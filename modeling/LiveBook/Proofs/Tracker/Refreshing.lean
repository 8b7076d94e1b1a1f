import LiveBook.Proofs.Tracker.Gate
import LiveBook.Proofs.Tracker.Loops
import LiveBook.Proofs.Tracker.Prices

/-!
# Which prices are asked for, and how often

A run asks for the prices of the markets that are due at that moment. Whether a market is due can be
read off its book, which knows when a trade was last brought and when an answer last came
(`LiveBook.Tracker.Trail.quote`); both times lie so far behind exactly if all trades and all answers
do.

* `LiveBook.Tracker.notesOf` – the trades and the answers for the book of a worker since the tracker
  was made;
* `LiveBook.Tracker.Trail.isDue_iff` – a worker's book is due if all of them lie behind;
* `LiveBook.Tracker.Waited` – what a run that refreshes has waited for;
* `LiveBook.Tracker.Move.Requests` – **a request for prices as it should be**;
* `LiveBook.Tracker.refreshing_of_trail` – all requests are like this, and answers change only what
  they should (`LiveBook.Desk.Answered`).
-/

namespace LiveBook

/-! ### What lies behind -/

/-- If the last of some ascending times lies long behind, all of them do. -/
theorem Book.longSince_getLast?_iff {now : Instant} {limit : ℕ} {times : List Instant}
    (ascending : times.Pairwise (· ≤ ·)) :
    Book.longSince now limit times.getLast? = true ↔ ∀ τ ∈ times, τ + limit < now := by
  rcases List.eq_nil_or_concat times with rfl | ⟨older, last, rfl⟩
  · simp [Book.longSince]
  · rw [List.concat_eq_append] at ascending ⊢
    have hle : ∀ τ ∈ older, τ ≤ last := fun τ hτ =>
      (List.pairwise_append.mp ascending).2.2 τ hτ last (List.mem_singleton_self last)
    rw [List.getLast?_concat, Book.longSince, Option.all_some, decide_eq_true_iff,
      Instant.lt_since_iff, List.forall_mem_append, List.forall_mem_singleton, iff_and_self]
    exact fun hlast τ hτ => lt_of_le_of_lt (add_le_add_left (hle τ hτ) _) hlast

namespace PriceNote

/-- When it was written. -/
def time : PriceNote → Instant
  | .trade _ now => now
  | .answer _ now => now

theorem mem_tradedAt? {ns : List PriceNote} {τ : Instant} :
    τ ∈ ns.filterMap tradedAt? ↔ ∃ p, .trade p τ ∈ ns := by
  rw [List.mem_filterMap]
  constructor
  · rintro ⟨n, hn, hτ⟩
    cases n with
    | trade p τ' => exact ⟨p, Option.some.inj hτ ▸ hn⟩
    | answer => cases hτ
  · exact fun ⟨p, hp⟩ => ⟨_, hp, rfl⟩

theorem mem_answeredAt? {ns : List PriceNote} {τ : Instant} :
    τ ∈ ns.filterMap answeredAt? ↔ ∃ p?, .answer p? τ ∈ ns := by
  rw [List.mem_filterMap]
  constructor
  · rintro ⟨n, hn, hτ⟩
    cases n with
    | trade => cases hτ
    | answer p? τ' => exact ⟨p?, Option.some.inj hτ ▸ hn⟩
  · exact fun ⟨p?, hp⟩ => ⟨_, hp, rfl⟩

/-- Its parts show the time at which it was written. -/
theorem time_of_mem {n : PriceNote} {τ : Instant}
    (h : n.tradedAt? = some τ ∨ n.answeredAt? = some τ) : n.time = τ := by
  cases n with
  | trade => exact h.elim Option.some.inj nofun
  | answer => exact h.elim nofun Option.some.inj

/-- Times that are read off ascending notes are ascending. -/
theorem ascending_filterMap {ns : List PriceNote} {f : PriceNote → Option Instant}
    (ascending : ns.Pairwise fun n n' => n.time ≤ n'.time)
    (time : ∀ n τ, f n = some τ → n.time = τ) : (ns.filterMap f).Pairwise (· ≤ ·) :=
  ascending.filterMap f fun n n' hle τ hτ τ' hτ' => by
    rw [← time n τ hτ, ← time n' τ' hτ']
    exact hle

end PriceNote

/-- A book in which notes were written in the order of their times is due if its trades and its
answers lie behind. -/
theorem Book.needsRefresh_iff {b : Book} {ns : List PriceNote} {now : Instant}
    {staleAfter minInterval : ℕ} (quote : b.quote = ns.foldl Quote.note .blank)
    (ascending : ns.Pairwise fun n n' => n.time ≤ n'.time) :
    b.needsRefresh now staleAfter minInterval = true ↔
      (∀ p τ, .trade p τ ∈ ns → τ + staleAfter < now) ∧
        ∀ p? τ, .answer p? τ ∈ ns → τ + minInterval < now := by
  have traded : b.tradedAt = (ns.filterMap PriceNote.tradedAt?).getLast? :=
    (congrArg Quote.tradedAt quote).trans
      ((Quote.tradedAt_foldl .blank ns).trans Option.or_none)
  have answered : b.refreshedAt = (ns.filterMap PriceNote.answeredAt?).getLast? :=
    (congrArg Quote.answeredAt quote).trans
      ((Quote.answeredAt_foldl .blank ns).trans Option.or_none)
  have trades := PriceNote.ascending_filterMap ascending fun n τ hτ => n.time_of_mem (.inl hτ)
  have answers := PriceNote.ascending_filterMap ascending fun n τ hτ => n.time_of_mem (.inr hτ)
  rw [needsRefresh, Bool.and_eq_true, traded, answered, longSince_getLast?_iff trades,
    longSince_getLast?_iff answers]
  refine and_congr ?_ ?_
  · simp only [PriceNote.mem_tradedAt?, forall_exists_index]
    exact forall_comm
  · simp only [PriceNote.mem_answeredAt?, forall_exists_index]
    exact forall_comm

/-- Nothing is asked for before a time. -/
def RefreshStage.Rests (clock due : ℕ) : RefreshStage → Prop
  | .sleeping due' => due ≤ due'
  | .ended => True
  | .awaitingReady | .checking | .asking _ => due ≤ clock

theorem RefreshStage.Rests.mono {stage : RefreshStage} {clock clock' due : ℕ}
    (h : stage.Rests clock due) (hle : clock ≤ clock') : stage.Rests clock' due := by
  cases stage with
  | sleeping | ended => exact h
  | _ => exact Nat.le_trans h hle

namespace Tracker

variable {t t' t₀ : Tracker} {i r : ℕ} {m : MarketId} {l : Label} {fx : List TrackerEffect}
  {xs past : List Move} {x y : Move} {config : TrackerConfig} {run run' : Run}

/-! ### The clock that stamps books -/

/-- **Time does not go back.** -/
theorem Move.now_le (x : Move) : x.before.now ≤ x.after.now := by
  obtain ⟨t, l, fx, t', step⟩ := x
  cases step_happens step with
  | abandons => exact (t.now_cancelRun _).ge
  | asks asks =>
    cases asks with
    | stops => exact (t.now_cancelRun _).ge
    | _ => exact le_rfl
  | goes hl hs goes => cases goes <;> exact le_rfl
  | tends hl other =>
    cases step_advances step hl other with
    | fetches hr fetches => cases fetches <;> exact le_rfl
    | passes millis nanos => exact le_add_of_nonneg_right (Int.natCast_nonneg nanos)
    | _ => exact le_rfl
  | _ => exact le_rfl

theorem Move.time_of_mem_notes {n : PriceNote} (h : n ∈ x.notes i) : n.time = x.before.now := by
  rcases List.mem_append.mp h with h | h
  · obtain ⟨p, -, rfl⟩ := List.mem_map.mp h
    rfl
  · unfold answerNotes at h
    split at h
    next r prices hl =>
      obtain ⟨a, -, ha⟩ := List.mem_filterMap.mp h
      obtain ⟨-, heq⟩ := Option.ite_none_right_eq_some.mp ha
      exact Option.some.inj heq ▸ rfl
    next => cases h

/-- **Notes are written in the order of their times**, and not ahead of time. -/
theorem Trail.ascending (trail : Trail t₀ xs t) (i : ℕ) :
    ((notesOf xs i).Pairwise fun n n' => n.time ≤ n'.time) ∧
      ∀ n ∈ notesOf xs i, n.time ≤ t.now := by
  induction trail with
  | nil => exact ⟨.nil, by simp⟩
  | @snoc xs x before ih =>
    obtain ⟨ascending, hle⟩ := ih
    have htime : ∀ n ∈ x.notes i, n.time = x.before.now := fun n => x.time_of_mem_notes
    rw [notesOf_snoc]
    refine ⟨List.pairwise_append.mpr ⟨ascending, ?_, fun n hn n' hn' => ?_⟩, ?_⟩
    · exact List.pairwise_of_forall_mem_list fun n hn n' hn' =>
        ((htime n hn).trans (htime n' hn').symm).le
    · exact htime n' hn' ▸ hle n hn
    · refine List.forall_mem_append.mpr ⟨fun n hn => ?_, fun n hn => ?_⟩
      · exact (hle n hn).trans x.now_le
      · exact htime n hn ▸ x.now_le

/-! ### What the books know -/

/-- Whoever is there stays there. -/
theorem Trail.worker? {w : Worker} (trail : Trail t xs t') (hw : t.desk.worker? i = some w) :
    ∃ w', t'.desk.worker? i = some w' := by
  obtain ⟨w', hw', -⟩ := trail.writes i w hw
  exact ⟨w', hw'⟩

theorem exists_asking_of_mem_askedBy {a : MarketId × ℕ} (h : a ∈ t.askedBy r) :
    ∃ run, t.run? r = some run ∧ run.refresh = .asking (t.askedBy r) := by
  cases hr : t.run? r with
  | none => simp [askedBy, hr] at h
  | some run =>
    have hasked : t.askedBy r = run.refresh.asked := by simp [askedBy, hr]
    refine ⟨run, rfl, ?_⟩
    rw [hasked] at h ⊢
    cases hs : run.refresh with
    | asking due => rfl
    | _ => simp [hs, RefreshStage.asked] at h

/-- Whoever was asked for is there. -/
theorem Trail.staffed_of_asked (trail : Trail t₀ xs t) (valid : ofConfig config = .ok t₀)
    (h : (m, i) ∈ t.askedBy r) : ∃ w, t.desk.worker? i = some w := by
  obtain ⟨run, hr, asking⟩ := exists_asking_of_mem_askedBy h
  obtain ⟨xs₁, x, xs₂, rfl, reached, asks, since⟩ := trail.asked valid hr asking
  obtain ⟨w, hw, -⟩ := reached.sound.staffed m i (asks.covers reached h).1
  obtain ⟨w', hw', -⟩ := x.writes i w hw
  exact since.worker? hw'

/-- Nothing is written for somebody who is not there. -/
theorem Trail.notes_eq_nil (trail : Trail t₀ xs x.before) (valid : ofConfig config = .ok t₀)
    (hi : x.before.desk.worker? i = none) : x.notes i = [] := by
  have reached := trail.reachable ⟨config, t₀, [], valid, .refl t₀⟩
  rw [Move.notes, List.append_eq_nil_iff, List.map_eq_nil_iff]
  refine ⟨List.filterMap_eq_nil_iff.mpr fun a _ => ?_, ?_⟩
  · unfold Desk.tradePrice?
    split
    next e =>
      refine if_neg fun slot => ?_
      obtain ⟨w, hw, -⟩ := reached.sound.staffed _ i slot
      cases hi.symm.trans hw
    next => rfl
  · unfold answerNotes
    split
    next r prices hl =>
      refine List.filterMap_eq_nil_iff.mpr fun a ha => if_neg fun heq => ?_
      obtain ⟨w, hw⟩ := trail.staffed_of_asked valid (m := a.1) (i := i) (r := r) (heq ▸ ha)
      cases hi.symm.trans hw
    next => rfl

/-- **What the book of a worker knows of the last trade** is what was written there. -/
theorem Trail.quote (trail : Trail t₀ xs t) (valid : ofConfig config = .ok t₀) (i : ℕ) :
    (∀ w, t.desk.worker? i = some w →
      w.keeper.book.quote = (notesOf xs i).foldl Quote.note .blank) ∧
      (t.desk.worker? i = none → notesOf xs i = []) := by
  induction trail with
  | nil =>
    obtain ⟨-, rfl⟩ := eq_of_ofConfig valid
    exact ⟨fun w hw => (nomatch hw), fun _ => rfl⟩
  | @snoc xs x before ih =>
    obtain ⟨known, unknown⟩ := ih
    rw [notesOf_snoc]
    cases hi : x.before.desk.worker? i with
    | none =>
      have hnil : notesOf xs i ++ x.notes i = [] := by
        rw [unknown hi, before.notes_eq_nil valid hi, List.append_nil]
      rw [hnil]
      refine ⟨fun w hw => ?_, fun _ => rfl⟩
      obtain ⟨_, does, -⟩ := step_does x.step
      exact does.desk.quote_of_new hi hw
    | some w =>
      obtain ⟨w', hw', -, hquote⟩ := x.noted i w hi
      refine ⟨fun w'' hw'' => ?_, fun hnone => nomatch hnone.symm.trans hw'⟩
      obtain rfl := Option.some.inj (hw'.symm.trans hw'')
      rw [hquote, known w hi, List.foldl_append]

/-- **A worker's book is due** if its trades and its answers lie behind. -/
theorem Trail.isDue_iff {staleAfter minInterval : ℕ} {w : Worker} (trail : Trail t₀ xs t)
    (valid : ofConfig config = .ok t₀) (hw : t.desk.worker? i = some w) :
    t.desk.isDue i t.now staleAfter minInterval = true ↔
      (∀ p τ, .trade p τ ∈ notesOf xs i → τ + staleAfter < t.now) ∧
        ∀ p? τ, .answer p? τ ∈ notesOf xs i → τ + minInterval < t.now := by
  rw [Desk.isDue, hw]
  exact Book.needsRefresh_iff ((trail.quote valid i).1 w hw) (trail.ascending i).1

/-! ### What a run has waited for -/

/-- Run `r` sees that prices cannot be had. -/
def Move.Fails (x : Move) (r : ℕ) : Prop :=
  ∃ e, x.label = .hear (.refresh r) (.prices (.error e))

/-- The refresh of run `r` goes on while the ready signal is up. -/
def Move.SeesReady (x : Move) (r : ℕ) : Prop :=
  x.label = .proceed (.refresh r) ∧ x.before.ready.raised = true

/-- A refresh begins only when it sees the ready signal. -/
theorem Refreshes.begun {stage : RefreshStage} {d' : Desk} (h : t.Refreshes r run l fx stage d') :
    stage = .ended ∨ (l = .proceed (.refresh r) ∧ t.ready.raised = true) ∨
      run.refresh ≠ .awaitingReady ∧ run.refresh ≠ .ended := by
  cases h with
  | begins _ ready => exact .inr (.inl ⟨rfl, ready⟩)
  | quits => exact .inl rfl
  | idles hs | asks hs | writes _ hs | fails _ hs | wakes hs =>
    exact .inr (.inr (hs ▸ ⟨nofun, nofun⟩))

theorem Refreshes.rests {stage : RefreshStage} {d' : Desk} {due : ℕ}
    (h : t.Refreshes r run l fx stage d') (rests : run.refresh.Rests t.clock due) :
    stage.Rests t.clock due := by
  cases h with
  | begins hs | asks hs =>
    rw [hs] at rests
    exact rests
  | idles hs | writes _ hs | fails _ hs =>
    rw [hs] at rests
    exact Nat.le_add_right_of_le rests
  | wakes hs time =>
    rw [hs] at rests
    exact Nat.le_trans rests time
  | quits => trivial

/-- **What a run has waited for**: for the ready signal before it began to ask, and for the pause
after each failure. -/
structure Waited (config : TrackerConfig) (past : List Move) (r : ℕ) (t : Tracker) : Prop where
  same : t.config = config
  begun : ∀ run, t.run? r = some run →
    run.refresh = .awaitingReady ∨ run.refresh = .ended ∨ ∃ y ∈ past, y.SeesReady r
  rests : ∀ y ∈ past, y.Fails r → ∃ run, t.run? r = some run ∧
    run.refresh.Rests t.clock (y.before.clock + config.tradeRefresh.errorBackoff)

theorem waited_ofConfig (valid : ofConfig config = .ok t₀) (r : ℕ) : Waited config [] r t₀ := by
  obtain ⟨-, rfl⟩ := eq_of_ofConfig valid
  exact ⟨rfl, fun _ hr => (nomatch hr), by simp⟩

/-- A refresh takes an error with a pause, and leaves the desk alone. -/
theorem Refreshes.of_error {e : SourceError} {stage : RefreshStage} {d' : Desk}
    (h : t.Refreshes r run (.hear (.refresh r) (.prices (.error e))) fx stage d') :
    stage = .sleeping (t.clock + t.config.tradeRefresh.errorBackoff) ∧ d' = t.desk := by
  cases h with
  | fails => exact ⟨rfl, rfl⟩

/-- A failure leads to a pause. -/
theorem Move.Fails.rests (h : x.Fails r) : ∃ run, x.after.run? r = some run ∧
    run.refresh.Rests x.after.clock
      (x.before.clock + x.before.config.tradeRefresh.errorBackoff) := by
  obtain ⟨t, l, fx, t', step⟩ := x
  obtain ⟨e, hl⟩ := h
  dsimp only at hl
  subst hl
  obtain ⟨run, stage, d', hr, refreshes, rfl⟩ := refreshes_of_hear step
  obtain ⟨rfl, rfl⟩ := refreshes.of_error
  exact ⟨_, run?_setRun_self hr _, le_rfl⟩

/-- **Every move keeps to this.** -/
theorem Waited.move (h : Waited config past r x.before) :
    Waited config (past ++ [x]) r x.after := by
  obtain ⟨rfl, begun, rests⟩ := h
  obtain ⟨_, does, -⟩ := step_does x.step
  have mono : (∃ y ∈ past, y.SeesReady r) → ∃ y ∈ past ++ [x], y.SeesReady r :=
    fun ⟨y, hy, sees⟩ => ⟨y, List.mem_append_left _ hy, sees⟩
  rcases x.runs_or r with ⟨run, run', hr, hr', runs⟩ | ⟨hr, -⟩
  · refine ⟨does.config, fun run₀ hr₀ => ?_, List.forall_mem_append.mpr
      ⟨fun y hy fails => ⟨run', hr', ?_⟩, List.forall_mem_singleton.mpr Move.Fails.rests⟩⟩
    · obtain rfl := Option.some.inj (hr'.symm.trans hr₀)
      rcases runs.refresh_or with same | refreshes
      · exact same ▸ (begun run hr).imp_right (.imp_right mono)
      · rcases refreshes.begun with ended | sees | ⟨awaiting, going⟩
        · exact .inr (.inl ended)
        · exact .inr (.inr ⟨x, List.mem_concat_self, sees⟩)
        · exact .inr (.inr (mono (((begun run hr).resolve_left awaiting).resolve_left going)))
    · obtain ⟨run₀, hr₀, hrests⟩ := rests y hy fails
      obtain rfl := Option.some.inj (hr.symm.trans hr₀)
      refine RefreshStage.Rests.mono ?_ runs.clock
      rcases runs.refresh_or with same | refreshes
      · exact same ▸ hrests
      · exact refreshes.rests hrests
  · -- a run that there is not has seen no answer
    refine ⟨does.config, fun run' hr' => ?_, List.forall_mem_append.mpr
      ⟨fun y hy fails => ?_, List.forall_mem_singleton.mpr Move.Fails.rests⟩⟩
    · rcases step_changes x.step hr' with ⟨run, hr₀, -⟩ | ⟨-, -, -, rfl⟩
      · cases hr.symm.trans hr₀
      · cases x.before.config.tradeRefresh.enabled <;> simp [Run.begin]
    · obtain ⟨run, hr₀, -⟩ := rests y hy fails
      cases hr.symm.trans hr₀

theorem Trail.waited (trail : Trail t₀ xs t) (valid : ofConfig config = .ok t₀) (r : ℕ) :
    Waited config xs r t := by
  induction trail with
  | nil => exact waited_ofConfig valid r
  | snoc _ ih => exact ih.move

/-! ### Requests and answers -/

/-- An answer comes that the book of worker `i` was asked for, with a price or without. -/
def Move.Answers (x : Move) (i : ℕ) : Prop :=
  ∃ r prices m, x.label = .hear (.refresh r) (.prices (.ok prices)) ∧ (m, i) ∈ x.before.askedBy r

theorem Move.Answers.mem_notes (h : x.Answers i) : ∃ p?, .answer p? x.before.now ∈ x.notes i := by
  obtain ⟨r, prices, m, hl, hm⟩ := h
  refine ⟨prices.get? m, List.mem_append_right _ ?_⟩
  rw [hl]
  exact List.mem_filterMap.mpr ⟨(m, i), hm, if_pos rfl⟩

/-- **A request for prices as it should be**, by run `r` for some markets, with what has happened
before. -/
structure Move.Requests (x : Move) (config : TrackerConfig) (past : List Move) (r : ℕ)
    (ms : List MarketId) : Prop where
  /-- The run has seen the ready signal. -/
  begun : ∃ y ∈ past, y.SeesReady r
  /-- The signal is still up, unless a run was begun while a stop was in progress. -/
  ready : x.before.Orderly → x.before.ready.raised = true
  something : ms ≠ []
  ascending : ms.Pairwise (· < ·)
  /-- It asks for the active markets whose trades and answers lie behind. -/
  due : ∀ m, m ∈ ms ↔ ∃ i, x.before.desk.slot? m = some (.active i) ∧
    (∀ p τ, .trade p τ ∈ notesOf past i →
      τ + ofMillis config.tradeRefresh.staleAfter < x.before.now) ∧
    ∀ p? τ, .answer p? τ ∈ notesOf past i →
      τ + ofMillis config.tradeRefresh.minInterval < x.before.now
  /-- So there is some time between an answer for the book of a market and this request. -/
  spaced : ∀ y ∈ past, ∀ m ∈ ms, ∀ i, x.before.desk.slot? m = some (.active i) → y.Answers i →
    y.before.now + ofMillis config.tradeRefresh.minInterval < x.before.now
  /-- There is some time between a failure that the run has seen and this request. -/
  rested : ∀ y ∈ past, y.Fails r →
    y.before.clock + config.tradeRefresh.errorBackoff ≤ x.before.clock

/-- **Prices are asked for as they should be**, and answers change what they should. -/
structure Move.Refreshing (x : Move) (config : TrackerConfig) (past : List Move) : Prop where
  requests : ∀ a ms, .called a (.prices ms) ∈ x.effects →
    ∃ r, a = .refresh r ∧ x.Requests config past r ms
  /-- A failure changes no book, and nothing else at the desk. -/
  failures : ∀ r, x.Fails r → x.after.desk = x.before.desk
  /-- An answer belongs to a request, and changes only what it was asked for. -/
  answers : ∀ r prices, x.label = .hear (.refresh r) (.prices (.ok prices)) →
    (∃ y ∈ past, y.Asks r (x.before.askedBy r)) ∧
      Desk.Answered (x.before.askedBy r) prices x.before.now x.before.desk x.after.desk

theorem Trail.requests {a : Actor} {ms : List MarketId} (trail : Trail t₀ past x.before)
    (valid : ofConfig config = .ok t₀) (h : .called a (.prices ms) ∈ x.effects) :
    ∃ r, a = .refresh r ∧ x.Requests config past r ms := by
  obtain ⟨r, run, hr, checking, rfl, rfl, something⟩ := step_prices x.step h
  have reached := trail.reachable ⟨config, t₀, [], valid, .refl t₀⟩
  obtain ⟨same, begun, rests⟩ := trail.waited valid r
  have hdue : ∀ m, m ∈ x.before.dueMarkets.map (·.1) ↔ ∃ i,
      x.before.desk.slot? m = some (.active i) ∧
      (∀ p τ, .trade p τ ∈ notesOf past i →
        τ + ofMillis config.tradeRefresh.staleAfter < x.before.now) ∧
      ∀ p? τ, .answer p? τ ∈ notesOf past i →
        τ + ofMillis config.tradeRefresh.minInterval < x.before.now := by
    intro m
    rw [List.mem_map]
    constructor
    · rintro ⟨⟨m, i⟩, hm, rfl⟩
      obtain ⟨slot, isDue⟩ := (Desk.mem_dueMarkets reached.distinct).mp hm
      obtain ⟨w, hw, -⟩ := reached.sound.staffed m i slot
      exact ⟨i, slot, same ▸ (trail.isDue_iff valid hw).mp isDue⟩
    · rintro ⟨i, slot, behind⟩
      obtain ⟨w, hw, -⟩ := reached.sound.staffed m i slot
      refine ⟨(m, i), (Desk.mem_dueMarkets reached.distinct).mpr ⟨slot, ?_⟩, rfl⟩
      exact (trail.isDue_iff valid hw).mpr (same.symm ▸ behind)
  refine ⟨r, rfl, ?_, fun orderly => ?_, ?_, ?_, hdue, fun y hy m hm i slot answers => ?_, ?_⟩
  · have going := begun run hr
    simpa [checking] using going
  · by_contra lowered
    exact (orderly.waits (Bool.not_eq_true _ ▸ lowered)).priced _ _ h
  · exact fun hnil => something (List.map_eq_nil_iff.mp hnil)
  · exact Desk.ascending_dueMarkets reached.distinct _ _ _
  · obtain ⟨j, slot', -, behind⟩ := (hdue m).mp hm
    obtain rfl := Slot.active.inj (Option.some.inj (slot.symm.trans slot'))
    obtain ⟨p?, hp⟩ := answers.mem_notes
    exact behind p? _ (List.mem_flatMap.mpr ⟨y, hy, hp⟩)
  · intro y hy fails
    obtain ⟨run', hr', hrests⟩ := rests y hy fails
    obtain rfl := Option.some.inj (hr.symm.trans hr')
    rw [checking] at hrests
    exact hrests

/-- A failure leaves the desk alone. -/
theorem Move.Fails.desk (h : x.Fails r) : x.after.desk = x.before.desk := by
  obtain ⟨t, l, fx, t', step⟩ := x
  obtain ⟨e, hl⟩ := h
  dsimp only at hl
  subst hl
  obtain ⟨run, stage, d', hr, refreshes, rfl⟩ := refreshes_of_hear step
  obtain ⟨rfl, rfl⟩ := refreshes.of_error
  rfl

theorem Trail.answers {prices : Table MarketId Decimal} (trail : Trail t₀ past x.before)
    (valid : ofConfig config = .ok t₀)
    (hl : x.label = .hear (.refresh r) (.prices (.ok prices))) :
    (∃ y ∈ past, y.Asks r (x.before.askedBy r)) ∧
      Desk.Answered (x.before.askedBy r) prices x.before.now x.before.desk x.after.desk := by
  obtain ⟨t, l, fx, t', step⟩ := x
  dsimp only at hl trail ⊢
  subst hl
  obtain ⟨run, stage, d', hr, refreshes, rfl⟩ := refreshes_of_hear step
  clear step
  cases refreshes with
  | writes _ asking =>
    obtain ⟨xs₁, y, xs₂, rfl, reached, asks, -⟩ := trail.asked valid hr asking
    rw [askedBy_eq hr asking]
    refine ⟨⟨y, by simp, asks⟩, Desk.answered_refresh _ _ _ fun m m' i hm hm' => ?_⟩
    exact (asks.covers reached hm).2 m' hm'

/-- **The refresh asks for the right markets, and keeps its rate**, whatever happens: trades and
answers, failures, markets that come and go, and runs that end and begin. -/
theorem refreshing_of_trail (valid : ofConfig config = .ok t₀) (trail : Trail t₀ past x.before) :
    x.Refreshing config past where
  requests _ _ h := trail.requests valid h
  failures _ h := h.desk
  answers _ _ hl := trail.answers valid hl

/-! ### Three requests of a sample

The first request fails. The answer to the second one has no price for the market, and a trade comes
at the same time. -/

/-- A tracker of one market whose price is asked for often. -/
def sampleRefreshing : Tracker :=
  { sample with config := { sample.config with tradeRefresh := {
      enabled := true, staleAfter := 2, minInterval := 5, pollInterval := 1,
      errorBackoff := 10 } } }

/-- What happens until the third request. The run looks once in between, when the market is not due
yet. -/
def untilThird : List Label :=
  askingPrices ++ [.hear (.refresh 0) (.prices (.error .notConnected)), .pass 10 10000000,
    .proceed (.refresh 0), .proceed (.refresh 0), .hear (.refresh 0) (.prices (.ok .empty))] ++
  trading ++ [.pass 3 3000000, .proceed (.refresh 0), .proceed (.refresh 0), .pass 3 3000000,
    .proceed (.refresh 0)]

/-- A run that looks asks if there is something to ask for. -/
theorem step_asks (hr : t.run? r = some run) (checking : run.refresh = .checking)
    (something : t.dueMarkets ≠ []) :
    t.step (.proceed (.refresh r)) = some (t.setRefresh r run (.asking t.dueMarkets),
      [.called (.refresh r) (.prices (t.dueMarkets.map (·.1)))]) := by
  simp only [step, proceed, refreshProceeds, hr, checking, Option.bind_eq_bind, Option.bind_some]

/-- The third request is as it should be, 6 ms after the answer to the second one, which came 10 ms
after the failure. -/
theorem refreshing_of_trail_sample : ∃ (past : List Move) (x : Move),
    ofConfig sampleRefreshing.config = .ok sampleRefreshing ∧
    Trail sampleRefreshing past x.before ∧ x.Refreshing sampleRefreshing.config past ∧
    rounds 0 past = [(.book ⟨"BTC-USD"⟩, 0), (.listen (.stream .trade), 0), (.prices, 0),
      (.prices, 10)] ∧
    notesOf past 0 = [.answer none 10000000, .trade livePrice 10000000] ∧
    x.before.clock = 16 ∧ x.effects = [.called (.refresh 0) (.prices [⟨"BTC-USD"⟩])] := by
  have valid : ofConfig sampleRefreshing.config = .ok sampleRefreshing := rfl
  have trail := trail_moves untilThird sampleRefreshing
  obtain ⟨run, hr, checking⟩ := Option.map_eq_some_iff.mp
    (show ((sampleRefreshing.moves untilThird).2.run? 0).map Run.refresh = some .checking by
      decide +kernel)
  have clock : (sampleRefreshing.moves untilThird).2.clock = 16 := by decide +kernel
  have due : (sampleRefreshing.moves untilThird).2.dueMarkets = [(⟨"BTC-USD"⟩, 0)] := by
    decide +kernel
  let x : Move := ⟨_, _, _, _, step_asks hr checking (due ▸ List.cons_ne_nil _ _)⟩
  have effects : x.effects = [.called (.refresh 0) (.prices [⟨"BTC-USD"⟩])] := by
    dsimp only [x]
    rw [due]
    rfl
  exact ⟨_, x, valid, trail, refreshing_of_trail valid (x := x) trail, by decide +kernel,
    by decide +kernel, clock, effects⟩

end Tracker

end LiveBook
