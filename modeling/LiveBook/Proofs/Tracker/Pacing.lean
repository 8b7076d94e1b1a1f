import Mathlib.Data.List.Perm.Subperm
import LiveBook.Proofs.Tracker.Loops
import LiveBook.Proofs.Tracker.Markets
import LiveBook.Proofs.Tracker.Restarting

/-!
# No loop goes round twice at one time

Between two rounds of a loop a run pauses. As long as no pause is configured to take no time, the
times of the rounds of each loop are ascending, so that at any one time a run asks for something and
listens no more often than it has loops.

* `LiveBook.TrackerConfig.Pauses` – every pause of a run takes time;
* `LiveBook.Run.Past` – how far a run has come in a loop once a round lies behind: the next one
  comes later;
* `LiveBook.Tracker.Spaces` – what every rule of a run does to this, and
  `LiveBook.Tracker.Apart`, what is so after any moves;
* `LiveBook.Tracker.rounds_apart` – **the rounds of a loop are apart in time**.

A configuration may well ask for pauses that take no time: only those of the refresh after an answer
are checked. Then a run goes round as often as it likes (`LiveBook.Tracker.rounds_at_once`).
-/

namespace LiveBook

/-- **Every pause takes time,** of those after which a run tries again. -/
structure TrackerConfig.Pauses (c : TrackerConfig) : Prop where
  listener : 0 < c.listenerBackoff
  worker : 0 < c.workerBackoff
  refresh : c.tradeRefresh.enabled = true → 0 < c.tradeRefresh.errorBackoff

/-- The pause of the refresh after an answer is checked. -/
theorem TrackerConfig.pollInterval_pos {c : TrackerConfig} (h : c.validate = .ok ())
    (enabled : c.tradeRefresh.enabled = true) : 0 < c.tradeRefresh.pollInterval := by
  by_contra hzero
  simp only [validate, fault?, enabled, Nat.eq_zero_of_not_pos hzero, and_self, if_true] at h
  split at h
  · cases h
  next hnone => split_ifs at hnone

/-! ### Rounds that lie behind -/

/-- A round of the refresh at a time lies behind. -/
def RefreshStage.Past (clock c : ℕ) : RefreshStage → Prop
  | .awaitingReady | .checking => c < clock
  | .asking _ => c ≤ clock
  | .sleeping due => c < due
  | .ended => True

/-- A round of a listener at a time lies behind. -/
def ListenerStage.Past (clock c : ℕ) : ListenerStage → Prop
  | .starting => c < clock
  | .listening => c ≤ clock
  | .backingOff due => c < due
  | .ended => True

/-- A round of the startup for a market at a time lies behind. A market that remains has its turn
now, or later. -/
def StartupStage.Past (m : MarketId) (clock c : ℕ) : StartupStage → Prop
  | .next ms => m ∈ ms → c < clock
  | .fetching m' rest | .locking m' rest _ => (m = m' → c ≤ clock) ∧ (m ∈ rest → c < clock)
  | .backingOff m' rest due => (m = m' → c < due) ∧ (m ∈ rest → c < clock)
  | .pausing rest _ => m ∈ rest → c < clock
  | .ended => True

theorem RefreshStage.Past.mono {stage : RefreshStage} {clock clock' c : ℕ}
    (h : stage.Past clock c) (hle : clock ≤ clock') : stage.Past clock' c := by
  cases stage with
  | awaitingReady | checking => exact Nat.lt_of_lt_of_le h hle
  | asking => exact Nat.le_trans h hle
  | _ => exact h

theorem ListenerStage.Past.mono {stage : ListenerStage} {clock clock' c : ℕ}
    (h : stage.Past clock c) (hle : clock ≤ clock') : stage.Past clock' c := by
  cases stage with
  | starting => exact Nat.lt_of_lt_of_le h hle
  | listening => exact Nat.le_trans h hle
  | _ => exact h

theorem StartupStage.Past.mono {stage : StartupStage} {m : MarketId} {clock clock' c : ℕ}
    (h : stage.Past m clock c) (hle : clock ≤ clock') : stage.Past m clock' c := by
  cases stage with
  | next | pausing => exact fun hm => (h hm).trans_le hle
  | fetching | locking => exact ⟨fun hm => (h.1 hm).trans hle, fun hm => (h.2 hm).trans_le hle⟩
  | backingOff => exact ⟨h.1, fun hm => (h.2 hm).trans_le hle⟩
  | ended => exact h

/-- **A round of a loop at a time lies behind**: the next one comes later. -/
def Run.Past (run : Run) (clock c : ℕ) : Tracker.Loop → Prop
  | .prices => run.refresh.Past clock c
  | .book m => run.startup.Past m clock c
  | .listen k => (run.listener k).Past clock c

theorem Run.past_prices {run : Run} {clock c : ℕ} :
    run.Past clock c .prices ↔ run.refresh.Past clock c := Iff.rfl

theorem Run.past_book {run : Run} {clock c : ℕ} {m : MarketId} :
    run.Past clock c (.book m) ↔ run.startup.Past m clock c := Iff.rfl

theorem Run.past_listen {run : Run} {clock c : ℕ} {k : Listener} :
    run.Past clock c (.listen k) ↔ (run.listener k).Past clock c := Iff.rfl

theorem Run.Past.mono {run : Run} {clock clock' c : ℕ} {κ : Tracker.Loop}
    (h : run.Past clock c κ) (hle : clock ≤ clock') : run.Past clock' c κ := by
  cases κ with
  | prices => exact RefreshStage.Past.mono h hle
  | book m => exact StartupStage.Past.mono h hle
  | listen k => exact ListenerStage.Past.mono h hle

namespace Tracker

variable {t t' t₀ : Tracker} {r : ℕ} {l : Label} {fx : List TrackerEffect} {run run' : Run}
  {x : Move} {xs : List Move} {config : TrackerConfig} {κ : Loop} {c : ℕ}

theorem SameLoops.past (h : SameLoops run run') : run'.Past t.clock c κ ↔ run.Past t.clock c κ := by
  cases κ <;> simp only [Run.Past, h.refresh, h.startup, h.listener]

/-- The loops that a run may have. -/
def loops (config : TrackerConfig) : List Loop :=
  .prices :: config.markets.map .book ++ Listener.all.map .listen

theorem length_loops (config : TrackerConfig) :
    (loops config).length = config.markets.length + 5 := by
  simp [loops, Listener.all, EventStream.all]

/-- **A run as the configuration has it**: it fetches the configured markets, and refreshes only if
this is wanted. -/
structure Fits (config : TrackerConfig) (run : Run) : Prop where
  remaining : run.startup.remaining.Sublist config.markets
  refresh : run.refresh ≠ .ended → config.tradeRefresh.enabled = true

/-- **What a rule does to the rounds of a run**: those that lie behind still do, and a round comes
only if it is later than those that lie behind. -/
structure Spaces (t : Tracker) (r : ℕ) (run : Run) (fx : List TrackerEffect) (run' : Run) :
    Prop where
  keeps : ∀ κ c, run.Past t.clock c κ → run'.Past t.clock c κ
  later : ∀ κ ∈ fx.filterMap (loop? r), ∀ c, run.Past t.clock c κ → c < t.clock
  past : ∀ κ ∈ fx.filterMap (loop? r), run'.Past t.clock t.clock κ
  known : ∀ κ ∈ fx.filterMap (loop? r), κ ∈ loops t.config
  once : (fx.filterMap (loop? r)).length ≤ 1

/-- A rule without any round. -/
theorem Spaces.of_silent (silent : ∀ e ∈ fx, loop? r e = none)
    (keeps : ∀ κ c, run.Past t.clock c κ → run'.Past t.clock c κ) : t.Spaces r run fx run' := by
  have hnil : fx.filterMap (loop? r) = [] := List.filterMap_eq_nil_iff.mpr silent
  refine ⟨keeps, ?_, ?_, ?_, ?_⟩ <;> simp [hnil]

/-- A rule with a round. -/
theorem Spaces.of_round {e : TrackerEffect} (round : loop? r e = some κ)
    (known : κ ∈ loops t.config) (keeps : ∀ κ c, run.Past t.clock c κ → run'.Past t.clock c κ)
    (later : ∀ c, run.Past t.clock c κ → c < t.clock) (past : run'.Past t.clock t.clock κ) :
    t.Spaces r run [e] run' := by
  have hsingle : [e].filterMap (loop? r) = [κ] := List.filterMap_cons_some round
  refine ⟨keeps, ?_, ?_, ?_, ?_⟩ <;> rw [hsingle]
  · exact List.forall_mem_singleton.mpr later
  · exact List.forall_mem_singleton.mpr past
  · exact List.forall_mem_singleton.mpr known
  · exact le_rfl

/-- The other loops stay where they are when the refresh goes on. -/
theorem past_setRefresh {stage : RefreshStage}
    (h : ∀ c, run.refresh.Past t.clock c → stage.Past t.clock c) :
    ∀ κ c, run.Past t.clock c κ → Run.Past { run with refresh := stage } t.clock c κ := by
  intro κ c hpast
  cases κ with
  | prices => exact h c hpast
  | book m => exact hpast
  | listen k => cases k <;> exact hpast

theorem past_setStartup {stage : StartupStage}
    (h : ∀ m c, run.startup.Past m t.clock c → stage.Past m t.clock c) :
    ∀ κ c, run.Past t.clock c κ → Run.Past { run with startup := stage } t.clock c κ := by
  intro κ c hpast
  cases κ with
  | prices => exact hpast
  | book m => exact h m c hpast
  | listen k => cases k <;> exact hpast

theorem past_setListener {k : Listener} {stage : ListenerStage}
    (h : ∀ c, (run.listener k).Past t.clock c → stage.Past t.clock c) :
    ∀ κ c, run.Past t.clock c κ → (run.setListener k stage).Past t.clock c κ := by
  intro κ c hpast
  cases κ with
  | prices => cases k <;> exact hpast
  | book m => cases k <;> exact hpast
  | listen k' =>
    change ((run.setListener k stage).listener k').Past t.clock c
    rw [Run.listener_setListener]
    split
    next heq => exact h c (heq ▸ hpast)
    next => exact hpast

/-! ### The rules -/

theorem Listens.spaces {k : Listener} {stage : ListenerStage}
    (h : t.Listens r run k l fx stage) (pauses : t.config.Pauses) :
    t.Spaces r run fx (run.setListener k stage) := by
  have known : .listen k ∈ loops t.config :=
    List.mem_append_right _ (List.mem_map_of_mem (by cases k with
      | stream s => cases s <;> decide
      | subscriptions => decide))
  have keeps : ∀ c, (run.listener k).Past t.clock c → stage.Past t.clock c := by
    intro c hpast
    cases h with
    | listens hs =>
      rw [hs] at hpast
      exact Nat.le_of_lt hpast
    | resumes hs time =>
      rw [hs] at hpast
      exact Nat.lt_of_lt_of_le hpast time
    | hungUp error? hs =>
      rw [hs] at hpast
      unfold afterHangUp
      split
      · trivial
      · split
        · trivial
        · exact lt_add_of_le_of_pos hpast pauses.listener
    | quits => trivial
  cases h with
  | listens hs =>
    refine .of_round (if_pos rfl) known (past_setListener keeps) (fun c hpast => ?_) ?_
    · rwa [Run.past_listen, hs] at hpast
    · change ((run.setListener k .listening).listener k).Past t.clock t.clock
      rw [Run.listener_setListener, if_pos rfl]
      exact le_rfl
  | _ => exact .of_silent (by simp [loop?]) (past_setListener keeps)

theorem Refreshes.spaces {stage : RefreshStage} {d' : Desk}
    (h : t.Refreshes r run l fx stage d') (pauses : t.config.Pauses)
    (valid : t.config.validate = .ok ()) (fits : Fits t.config run) :
    t.Spaces r run fx { run with refresh := stage } := by
  have known : .prices ∈ loops t.config := List.mem_cons_self
  have enabled := fits.refresh
  have keeps : ∀ c, run.refresh.Past t.clock c → stage.Past t.clock c := by
    intro c hpast
    cases h with
    | begins hs =>
      rw [hs] at hpast
      exact hpast
    | idles hs =>
      rw [hs] at hpast
      exact Nat.lt_add_right _ hpast
    | asks hs =>
      rw [hs] at hpast
      exact Nat.le_of_lt hpast
    | writes _ hs =>
      rw [hs] at hpast enabled
      exact lt_add_of_le_of_pos hpast (TrackerConfig.pollInterval_pos valid (enabled nofun))
    | fails _ hs =>
      rw [hs] at hpast enabled
      exact lt_add_of_le_of_pos hpast (pauses.refresh (enabled nofun))
    | wakes hs time =>
      rw [hs] at hpast
      exact Nat.lt_of_lt_of_le hpast time
    | quits => trivial
  cases h with
  | asks hs =>
    refine .of_round (if_pos rfl) known (past_setRefresh keeps) (fun c hpast => ?_) le_rfl
    rwa [Run.past_prices, hs] at hpast
  | _ => exact .of_silent (by simp) (past_setRefresh keeps)

theorem Fetches.spaces {stage : StartupStage} (h : t.Fetches r run l fx stage t')
    (pauses : t.config.Pauses) (fits : Fits t.config run)
    (distinct : t.config.markets.Nodup) : t.Spaces r run fx { run with startup := stage } := by
  have keeps : ∀ m c, run.startup.Past m t.clock c → stage.Past m t.clock c := by
    intro m c hpast
    cases h with
    | calls hs =>
      rw [hs] at hpast
      exact ⟨fun hm => Nat.le_of_lt (hpast (hm ▸ List.mem_cons_self)),
        fun hm => hpast (List.mem_cons_of_mem _ hm)⟩
    | hears _ hs =>
      rw [hs] at hpast
      exact hpast
    | misses _ hs | retries hs =>
      rw [hs] at hpast
      exact ⟨fun hm => lt_add_of_le_of_pos (hpast.1 hm) pauses.worker, hpast.2⟩
    | activates hs =>
      rw [hs] at hpast
      exact hpast.2
    | resumes hs time =>
      rw [hs] at hpast
      exact fun hm => (List.mem_cons.mp hm).elim
        (fun heq => Nat.lt_of_lt_of_le (hpast.1 heq) time) hpast.2
    | goesOn hs =>
      rw [hs] at hpast
      exact hpast
    | completes | ends | quits => trivial
  cases h with
  | @calls m rest hs =>
    have remaining : (m :: rest).Sublist t.config.markets := by
      simpa [hs, StartupStage.remaining] using fits.remaining
    have known : .book m ∈ loops t.config :=
      List.mem_append_left _ (List.mem_cons_of_mem _
        (List.mem_map_of_mem (remaining.subset List.mem_cons_self)))
    -- a market that was asked for is not among those that remain
    have hnot : m ∉ rest := (List.nodup_cons.mp (distinct.sublist remaining)).1
    refine .of_round (if_pos rfl) known (past_setStartup keeps) (fun c hpast => ?_)
      ⟨fun _ => le_rfl, fun hm => absurd hm hnot⟩
    rw [Run.past_book, hs] at hpast
    exact hpast List.mem_cons_self
  | _ => exact .of_silent (by simp [loop?]) (past_setStartup keeps)

/-! ### Moves -/

/-- The markets that remain are among those that remained. -/
theorem Fetches.remaining {stage : StartupStage} (h : t.Fetches r run l fx stage t') :
    stage.remaining.Sublist run.startup.remaining := by
  cases h with
  | activates hs | completes hs =>
    rw [hs]
    exact List.sublist_cons_self _ _
  | quits => exact List.nil_sublist _
  | calls hs | hears _ hs | misses _ hs | retries hs | resumes hs | goesOn hs | ends hs =>
    rw [hs]
    exact .refl _

theorem fits_begin (config : TrackerConfig) :
    Fits config (.begin config.markets config.tradeRefresh.enabled) where
  remaining := .refl _
  refresh := by cases config.tradeRefresh.enabled <;> simp [Run.begin]

namespace Move.Runs

theorem fits (h : x.Runs r run run') (fits : Fits config run) : Fits config run' := by
  cases h with
  | rests _ same => exact ⟨same.startup ▸ fits.remaining, same.refresh ▸ fits.refresh⟩
  | @listens k => cases k <;> exact ⟨fits.remaining, fits.refresh⟩
  | refreshes h => exact ⟨fits.remaining, fun _ => fits.refresh h.going⟩
  | fetches h => exact ⟨h.remaining.trans fits.remaining, fits.refresh⟩

theorem spaces (h : x.Runs r run run') (pauses : x.before.config.Pauses)
    (valid : x.before.config.validate = .ok ()) (fits : Fits x.before.config run) :
    x.before.Spaces r run x.effects run' := by
  cases h with
  | rests silent same => exact .of_silent silent fun κ c => same.past.mpr
  | listens h => exact h.spaces pauses
  | refreshes h => exact h.spaces pauses valid fits
  | fetches h => exact h.spaces pauses fits (TrackerConfig.nodup_markets valid)

end Move.Runs

/-- **The rounds of a run are apart in time,** and all of them lie behind. -/
structure Apart (config : TrackerConfig) (r : ℕ) (log : List (Loop × ℕ)) (t : Tracker) : Prop where
  same : t.config = config
  fits : ∀ run, t.run? r = some run → Fits config run
  apart : log.Pairwise fun e e' => e.1 = e'.1 → e.2 < e'.2
  past : ∀ e ∈ log, ∃ run, t.run? r = some run ∧ run.Past t.clock e.2 e.1
  known : ∀ e ∈ log, e.1 ∈ loops config

theorem apart_ofConfig (valid : ofConfig config = .ok t₀) (r : ℕ) : Apart config r [] t₀ := by
  obtain ⟨-, rfl⟩ := eq_of_ofConfig valid
  exact ⟨rfl, fun _ hr => (nomatch hr), .nil, by simp, by simp⟩

/-- A move without any round of a run. -/
theorem Move.rounds_of_silent (silent : ∀ e ∈ x.effects, loop? r e = none) : x.rounds r = [] := by
  rw [rounds, List.filterMap_eq_nil_iff.mpr silent, List.map_nil]

/-- **Every move keeps the rounds of a run apart.** -/
theorem Apart.move {log : List (Loop × ℕ)} (h : Apart config r log x.before)
    (pauses : config.Pauses) (valid : config.validate = .ok ()) :
    Apart config r (log ++ x.rounds r) x.after := by
  obtain ⟨rfl, fits, apart, past, known⟩ := h
  obtain ⟨_, does, -⟩ := step_does x.step
  have hconfig := does.config
  rcases x.runs_or r with ⟨run, run', hr, hr', runs⟩ | ⟨hr, silent⟩
  · have spaces := runs.spaces pauses valid (fits run hr)
    have hlog : ∀ e ∈ log, run.Past x.before.clock e.2 e.1 := fun e he => by
      obtain ⟨_, hr₀, hpast⟩ := past e he
      exact Option.some.inj (hr.symm.trans hr₀) ▸ hpast
    have hround : ∀ e ∈ x.rounds r,
        e.1 ∈ x.effects.filterMap (loop? r) ∧ e.2 = x.before.clock := fun e he => by
      obtain ⟨κ, hκ, rfl⟩ := List.mem_map.mp he
      exact ⟨hκ, rfl⟩
    refine ⟨hconfig, fun run₀ hr₀ => ?_, List.pairwise_append.mpr ⟨apart, ?_, ?_⟩, ?_, ?_⟩
    · exact Option.some.inj (hr'.symm.trans hr₀) ▸ runs.fits (fits run hr)
    · have honce : (x.rounds r).length ≤ 1 := (List.length_map ..).trans_le spaces.once
      match x.rounds r, honce with
      | [], _ => exact .nil
      | [e], _ => exact List.pairwise_singleton _ _
    · intro e he e' he' heq
      obtain ⟨hκ, htime⟩ := hround e' he'
      rw [htime]
      exact spaces.later e'.1 hκ e.2 (heq ▸ hlog e he)
    · refine List.forall_mem_append.mpr ⟨fun e he => ⟨run', hr', ?_⟩, fun e he => ⟨run', hr', ?_⟩⟩
      · exact (spaces.keeps _ _ (hlog e he)).mono runs.clock
      · obtain ⟨hκ, htime⟩ := hround e he
        rw [htime]
        exact (spaces.past _ hκ).mono runs.clock
    · exact List.forall_mem_append.mpr ⟨known, fun e he => spaces.known _ (hround e he).1⟩
  · -- a run that there is not has had no rounds
    have hlog : log = [] := List.eq_nil_iff_forall_not_mem.mpr fun e he => by
      obtain ⟨run, hr₀, -⟩ := past e he
      cases hr.symm.trans hr₀
    rw [Move.rounds_of_silent silent, hlog]
    refine ⟨hconfig, fun run' hr' => ?_, .nil, by simp, by simp⟩
    rcases step_changes x.step hr' with ⟨run, hr₀, -⟩ | ⟨-, -, -, rfl⟩
    · cases hr.symm.trans hr₀
    · exact fits_begin _

theorem Trail.apart (trail : Trail t₀ xs t) (valid : ofConfig config = .ok t₀)
    (pauses : config.Pauses) (r : ℕ) : Apart config r (rounds r xs) t := by
  induction trail with
  | nil => exact apart_ofConfig valid r
  | snoc _ ih =>
    rw [rounds_snoc]
    exact ih.move pauses (eq_of_ofConfig valid).1

/-- **The rounds of each loop of a run are apart in time**, whatever happens, if every pause takes
time: two requests for prices, two requests for the first book of a market, and two times at which
something is listened to. So at any one time, a run has at most one round of each loop. -/
theorem rounds_apart (valid : ofConfig config = .ok t₀) (pauses : config.Pauses)
    (trail : Trail t₀ xs t) (r : ℕ) :
    ((rounds r xs).Pairwise fun e e' => e.1 = e'.1 → e.2 < e'.2) ∧
      ∀ c, ((rounds r xs).filter fun e => e.2 = c).length ≤ config.markets.length + 5 := by
  have h := trail.apart valid pauses r
  refine ⟨h.apart, fun c => ?_⟩
  let now := (rounds r xs).filter fun e => e.2 = c
  have distinct : (now.map Prod.fst).Nodup := by
    refine List.pairwise_map.mpr ((h.apart.sublist List.filter_sublist).imp_of_mem ?_)
    intro e e' he he' hlt heq
    have hc : e.2 = c := by simpa using (List.mem_filter.mp he).2
    have hc' : e'.2 = c := by simpa using (List.mem_filter.mp he').2
    exact absurd (hlt heq) (by rw [hc, hc']; exact lt_irrefl c)
  have known : now.map Prod.fst ⊆ loops config := fun κ hκ => by
    obtain ⟨e, he, rfl⟩ := List.mem_map.mp hκ
    exact h.known e (List.mem_filter.mp he).1
  have hle := (List.subperm_of_subset distinct known).length_le
  rwa [List.length_map, length_loops] at hle

/-! ### Loops of a sample

A run fetches the book of its market, is hung up on, and asks for prices. Every source call fails at
first, and once more after a pause. -/

/-- A tracker of one market whose pauses are of some length. -/
def samplePausing (millis : ℕ) : Tracker :=
  { sample with config := { sample.config with
      workerBackoff := millis, listenerBackoff := millis, tradeRefresh := {
        enabled := true, staleAfter := 0, minInterval := 1, pollInterval := 1,
        errorBackoff := millis } } }

/-- A book cannot be had, and is had after a pause. -/
def fetchAgain (millis : ℕ) : List Label :=
  [.proceed (.startup 0), .hear (.startup 0) (.book (.error .notConnected)),
    .pass millis (millis * 1000000), .proceed (.startup 0)] ++ fetchBook 10 ++
  [.proceed (.startup 0)]

/-- A stream ends with an error, and is listened to again after a pause. -/
def listenAgain (millis : ℕ) : List Label :=
  [.proceed (.listener 0 (.stream .diff)), .hangUp 0 (.stream .diff) (some .notConnected),
    .pass millis (millis * 1000000), .proceed (.listener 0 (.stream .diff)),
    .proceed (.listener 0 (.stream .diff))]

/-- Prices cannot be had, and are asked for again after a pause. -/
def askAgain (millis : ℕ) : List Label :=
  [.proceed (.refresh 0), .proceed (.refresh 0),
    .hear (.refresh 0) (.prices (.error .notConnected)), .pass millis (millis * 1000000),
    .proceed (.refresh 0), .proceed (.refresh 0)]

/-- The moves of the sample. -/
def goingRound (millis : ℕ) : List Label :=
  .start :: fetchAgain millis ++ listenAgain millis ++ askAgain millis

/-- The rounds of the sample, with a pause of 5 ms in each of its loops. -/
theorem rounds_apart_sample : ∃ xs t, ofConfig (samplePausing 5).config = .ok (samplePausing 5) ∧
    (samplePausing 5).config.Pauses ∧ Trail (samplePausing 5) xs t ∧
    rounds 0 xs = [(.book ⟨"BTC-USD"⟩, 0), (.book ⟨"BTC-USD"⟩, 5), (.listen (.stream .diff), 5),
      (.listen (.stream .diff), 10), (.prices, 10), (.prices, 15)] ∧
    (rounds 0 xs).Pairwise (fun e e' => e.1 = e'.1 → e.2 < e'.2) ∧
    ∀ c, ((rounds 0 xs).filter fun e => e.2 = c).length ≤ 1 + 5 := by
  have valid : ofConfig (samplePausing 5).config = .ok (samplePausing 5) := rfl
  have pauses : (samplePausing 5).config.Pauses := ⟨by decide, by decide, fun _ => by decide⟩
  have trail := trail_moves (goingRound 5) (samplePausing 5)
  exact ⟨_, _, valid, pauses, trail, by decide +kernel, rounds_apart valid pauses trail 0⟩

/-- The book of a market cannot be had, over and over. -/
theorem trail_failing (n : ℕ) : ∃ xs, Trail (samplePausing 0) xs (samplePausing 0).started ∧
    rounds 0 xs = List.replicate n (.book ⟨"BTC-USD"⟩, 0) := by
  induction n with
  | zero => exact ⟨_, trail_moves [.start] (samplePausing 0), rfl⟩
  | succ n ih =>
    obtain ⟨xs, trail, hrounds⟩ := ih
    -- without a pause, the run is back where it was
    let failing : List Label := [.proceed (.startup 0),
      .hear (.startup 0) (.book (.error .notConnected)), .proceed (.startup 0)]
    have again : Trail (samplePausing 0).started ((samplePausing 0).started.moves failing).1
        (samplePausing 0).started := trail_moves failing (samplePausing 0).started
    refine ⟨_, trail.trans again, ?_⟩
    rw [rounds_append, hrounds, List.replicate_succ']
    rfl

/-- **Without pauses loops go round at one time**: all those of the sample, and the request for the
first book of its market as often as one likes. -/
theorem rounds_at_once : ofConfig (samplePausing 0).config = .ok (samplePausing 0) ∧
    (∃ xs t, Trail (samplePausing 0) xs t ∧
      rounds 0 xs = [(.book ⟨"BTC-USD"⟩, 0), (.book ⟨"BTC-USD"⟩, 0), (.listen (.stream .diff), 0),
        (.listen (.stream .diff), 0), (.prices, 0), (.prices, 0)]) ∧
    ∀ n, ∃ xs t, Trail (samplePausing 0) xs t ∧
      rounds 0 xs = List.replicate n (.book ⟨"BTC-USD"⟩, 0) := by
  refine ⟨rfl, ⟨_, _, trail_moves (goingRound 0) (samplePausing 0), by decide +kernel⟩, fun n => ?_⟩
  obtain ⟨xs, trail, hrounds⟩ := trail_failing n
  exact ⟨xs, _, trail, hrounds⟩

end Tracker

end LiveBook
