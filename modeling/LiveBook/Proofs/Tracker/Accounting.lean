import LiveBook.Proofs.Desk.Accounts
import LiveBook.Proofs.Tracker.Restarting

/-!
# The accounts of a tracker

Whatever happens to a tracker in whatever order, its metrics tell exactly what has become of the
events: how many were processed, rejected, set aside, and how many nobody knew what to do with.
This is `LiveBook.Tracker.accounts_of_trail`, for any moves of a tracker since it was made
(`LiveBook.Tracker.Trail`); a run may begin before an earlier stop has ended. Three kinds of acts
are counted (`LiveBook.Tracker.occurrences`): the events that are brought, the diffs that take the
place of others, and those that workers drop.

The tallies of the markets have less than the totals once a market was forgotten that had been
active, or all of them were. Both show as a change of the tracker
(`LiveBook.Tracker.Move.Forgets`), and until then nothing is missing
(`LiveBook.Tracker.Unspoilt.move`).
-/

namespace LiveBook

/-! ### Acts that show -/

/-- What does not show is not recorded. -/
theorem DeskAct.recorded_of_hidden {a : DeskAct} (h : a.isShown = false) : a.recorded = [] := by
  cases a with
  | routed e outcome => cases h
  | worked i act => cases h
  | _ => rfl

namespace Tracker

variable {t t' t₀ : Tracker} {a : DeskAct} {i : ℕ} {m : MarketId} {s : RequestStage} {l : Label}
  {fx : List TrackerEffect} {xs : List Move} {x : Move} {config : TrackerConfig}

/-- **Any moves,** one after the other. -/
inductive Trail (t : Tracker) : List Move → Tracker → Prop where
  | nil : Trail t [] t
  | snoc {xs : List Move} {x : Move} (before : Trail t xs x.before) : Trail t (xs ++ [x]) x.after

namespace Move

/-- What a move shows of the desk. -/
def acts (x : Move) : List DeskAct := x.effects.filterMap TrackerEffect.act?

/-- What is recorded with a move. -/
def recorded (x : Move) : List (EventStream × LiveBook.Outcome) := x.acts.flatMap DeskAct.recorded

/-- **What is done with a move** is what it shows, or nothing that is recorded. -/
theorem acts_cases (x : Move) : ∃ a, x.before.desk.Does a x.after.desk ∧
    (x.acts = [a] ∨ x.acts = [] ∧ a.recorded = []) := by
  obtain ⟨a, hdoes, -⟩ := step_does x.step
  refine ⟨a, hdoes.desk, ?_⟩
  rw [acts, hdoes.shown]
  cases ha : a.isShown with
  | true => exact .inl (by simp [ha])
  | false => exact .inr ⟨by simp [ha], DeskAct.recorded_of_hidden ha⟩

theorem recorded_cases (x : Move) :
    ∃ a, x.before.desk.Does a x.after.desk ∧ x.recorded = a.recorded := by
  obtain ⟨a, hdoes, hacts | ⟨hacts, hrecorded⟩⟩ := x.acts_cases
  · exact ⟨a, hdoes, by simp [recorded, hacts]⟩
  · exact ⟨a, hdoes, by simp [recorded, hacts, hrecorded]⟩

end Move

/-- How often something is done with some moves. -/
def occurrences (p : Move → DeskAct → Bool) (xs : List Move) : ℕ :=
  (xs.map fun x => x.acts.countP (p x)).sum

/-- What is recorded with some moves, in their order. -/
def recorded (xs : List Move) : List (EventStream × LiveBook.Outcome) := xs.flatMap Move.recorded

@[simp] theorem occurrences_nil (p : Move → DeskAct → Bool) : occurrences p [] = 0 := rfl

@[simp] theorem occurrences_cons (p : Move → DeskAct → Bool) (x : Move) (xs : List Move) :
    occurrences p (x :: xs) = x.acts.countP (p x) + occurrences p xs :=
  List.sum_cons

/-! ### What is recorded with moves -/

/-- **The records of diffs**, by what was done with the move. -/
theorem Move.recorded_diffs (x : Move) :
    (x.recorded.countP fun k => k.1 = .diff) =
        x.acts.countP (DeskAct.brings .diff) + x.acts.countP DeskAct.evicts +
          x.acts.countP DeskAct.drops ∧
      x.recorded.count (.diff, .queued) =
        x.acts.countP (x.before.desk.finds [.initializing]) ∧
      x.recorded.count (.diff, .unknown) =
        x.acts.countP (x.before.desk.finds [.unregistered, .removed]) := by
  obtain ⟨a, hdoes, hacts | ⟨hacts, hrecorded⟩⟩ := x.acts_cases
  · have hcount : ∀ p : DeskAct → Bool, [a].countP p = (p a).toNat := fun p => by
      rw [List.countP_singleton]
      cases p a <;> rfl
    rw [recorded, hacts, List.flatMap_singleton, hcount, hcount, hcount, hcount, hcount]
    exact hdoes.recorded_diffs
  · rw [recorded, hacts]
    exact ⟨rfl, rfl, rfl⟩

/-- **The records of snapshots and trades**: each that is brought is recorded once. -/
theorem Move.recorded_once (x : Move) {s : EventStream} (hs : s ≠ .diff) :
    (x.recorded.countP fun k => k.1 = s) = x.acts.countP (DeskAct.brings s) ∧
      ((∃ a ∈ x.acts, a.brings s = true) →
        x.recorded = [(s, .processed)] ∨ x.recorded = [(s, .rejected)]) := by
  obtain ⟨a, hdoes, hacts | ⟨hacts, -⟩⟩ := x.acts_cases
  · have honce := hdoes.recorded_once hs
    rw [recorded, hacts, List.flatMap_singleton, List.countP_singleton]
    split at honce
    next hbrings =>
      rw [if_pos hbrings]
      refine ⟨?_, fun _ => honce⟩
      rcases honce with h | h <;> simp [h]
    next hbrings =>
      rw [if_neg hbrings]
      refine ⟨by simpa using honce, ?_⟩
      rintro ⟨b, hb, hb'⟩
      rw [List.mem_singleton.mp hb] at hb'
      exact absurd hb' hbrings
  · rw [recorded, hacts]
    exact ⟨rfl, by simp⟩

theorem countP_recorded_diffs (xs : List Move) :
    ((recorded xs).countP fun k => k.1 = .diff) =
      occurrences (fun _ => DeskAct.brings .diff) xs + occurrences (fun _ => DeskAct.evicts) xs +
        occurrences (fun _ => DeskAct.drops) xs := by
  induction xs with
  | nil => rfl
  | cons x xs ih =>
    have hx := x.recorded_diffs.1
    simp only [recorded, List.flatMap_cons, List.countP_append, occurrences_cons] at ih ⊢
    omega

theorem count_recorded_queued (xs : List Move) : (recorded xs).count (.diff, .queued) =
    occurrences (fun x => x.before.desk.finds [.initializing]) xs := by
  induction xs with
  | nil => rfl
  | cons x xs ih =>
    rw [recorded, List.flatMap_cons, List.count_append, occurrences_cons, ← ih,
      x.recorded_diffs.2.1, recorded]

theorem count_recorded_unknown (xs : List Move) : (recorded xs).count (.diff, .unknown) =
    occurrences (fun x => x.before.desk.finds [.unregistered, .removed]) xs := by
  induction xs with
  | nil => rfl
  | cons x xs ih =>
    rw [recorded, List.flatMap_cons, List.count_append, occurrences_cons, ← ih,
      x.recorded_diffs.2.2, recorded]

theorem countP_recorded_others {s : EventStream} (hs : s ≠ .diff) (xs : List Move) :
    ((recorded xs).countP fun k => k.1 = s) = occurrences (fun _ => DeskAct.brings s) xs := by
  induction xs with
  | nil => rfl
  | cons x xs ih =>
    rw [recorded, List.flatMap_cons, List.countP_append, occurrences_cons, ← ih,
      (x.recorded_once hs).1, recorded]

/-- **The totals are the numbers of what was recorded.** -/
theorem Trail.counts (trail : Trail t₀ xs t) (start : t₀.desk.metrics.totals.Counts []) :
    t.desk.metrics.totals.Counts (recorded xs) := by
  induction trail with
  | nil => exact start
  | @snoc xs x before ih =>
    obtain ⟨a, hdoes, hrecorded⟩ := x.recorded_cases
    rw [recorded, List.flatMap_append, List.flatMap_singleton, hrecorded]
    exact hdoes.counts ih

theorem Trail.balanced (trail : Trail t₀ xs t) (start : t₀.desk.metrics.Balanced) :
    t.desk.metrics.Balanced := by
  induction trail with
  | nil => exact start
  | @snoc xs x before ih =>
    obtain ⟨a, hdoes, -⟩ := x.acts_cases
    exact hdoes.balanced ih

/-! ### While nothing is forgotten -/

/-- A move forgets what was counted for a market: the market was removed, or a stop was asked
for. -/
def Move.Forgets (x : Move) : Prop :=
  (∃ m, x.before.desk.phase m = .removed ∧ x.after.desk.phase m = .unregistered) ∨
    x.before.run ≠ none ∧ x.after.run = none

/-- **What is done at the desk while no stop is in progress**: only new markets are registered, and
only markets are forgotten that wait for their first book or are being removed. -/
def Regular (t : Tracker) (t' : Tracker) : Prop :=
  ∃ a, t.desk.Does a t'.desk ∧ (∀ m c, a.Registers m c → t.desk.slot? m = none) ∧
    a ≠ .cleared ∧
    ∀ m, a = .discarded m → t.desk.phase m = .initializing ∨ t.desk.phase m = .removed

/-- An act that registers nothing and forgets nothing. -/
theorem regular_of_does (h : t.desk.Does a t'.desk) (registers : ∀ m c, ¬a.Registers m c)
    (cleared : a ≠ .cleared) (discarded : ∀ m, a ≠ .discarded m) : t.Regular t' :=
  ⟨a, h, fun m c hm => absurd hm (registers m c), cleared, fun m hm => absurd hm (discarded m)⟩

theorem regular_rest (desk : t'.desk = t.desk) : t.Regular t' :=
  regular_of_does (a := .rested) (desk ▸ .rest) (fun _ _ => id) nofun nofun

theorem regular_discard (desk : t'.desk = t.desk.discard m)
    (phase : t.desk.phase m = .initializing ∨ t.desk.phase m = .removed) : t.Regular t' := by
  refine ⟨.discarded m, desk ▸ .discard m, fun _ _ => False.elim, nofun, fun m' hm => ?_⟩
  obtain rfl := DeskAct.discarded.inj hm
  exact phase

theorem regular_minds {d' : Desk} (h : t.desk.Minds a d') (desk : t'.desk = d') :
    t.Regular t' := by
  refine regular_of_does (desk ▸ h.does) h.not_registers ?_ ?_
  · cases h <;> nofun
  · cases h <;> nofun

theorem regular_cancelRun (r : ℕ) (desk : t'.desk = (t.cancelRun r).desk) : t.Regular t' := by
  cases hr : t.run? r with
  | none =>
    rw [cancelRun_of_none hr] at desk
    exact regular_rest desk
  | some run =>
    rw [cancelRun_of_some hr] at desk
    exact regular_of_does (a := .rested) (desk ▸ .cancelRun r) (fun _ _ => id) nofun nofun

theorem Goes.regular (h : t.Goes i s l fx t') (order : t.InOrder) (hs : t.request? i = some s)
    (running : ¬t.IsStopping) : t.Regular t' := by
  have stop : ∀ {st}, s ≠ .stop st := by
    rintro st rfl
    exact running ⟨i, st, hs⟩
  cases h with
  | addRegisters holds going new =>
    refine ⟨_, .register _ new, ?_, nofun, nofun⟩
    rintro m c ⟨rfl, -⟩
    exact new
  | addRefused => exact regular_discard rfl (.inl (order.phase_of_adding hs rfl))
  | addQuits cancelled adding =>
    exact regular_discard rfl (.inl (order.phase_of_adding hs adding))
  | addFails why => exact regular_discard rfl (.inl (order.phase_of_adding hs rfl))
  | addActivates hd => exact regular_of_does (.activate hd) (fun _ _ => id) nofun nofun
  | removeRetires holds active charge =>
    exact regular_of_does (.retireFrom active _) (fun _ _ => id) nofun nofun
  | removeRetiresNobody holds active charge =>
    exact regular_of_does (.retire active) (fun _ _ => id) nofun nofun
  | removeEnds b => exact regular_discard rfl (.inr (order.phase_of_removing hs rfl))
  | stopQueues => exact absurd rfl stop
  | stopDismisses => exact absurd rfl stop
  | stopDisbands => exact absurd rfl stop
  | stopDrains => exact absurd rfl stop
  | stopEnds => exact absurd rfl stop
  | _ => exact regular_rest rfl

theorem Tends.regular (h : t.Tends fx t') : t.Regular t' := by
  cases h with
  | task hr later startup minds tells => exact regular_minds minds rfl
  | worker minds tells => exact regular_minds minds rfl
  | startupActivates hr locking holds hd =>
    exact regular_of_does (.activate hd) (fun _ _ => id) nofun nofun
  | _ => exact regular_rest rfl

/-- **While no stop is in progress, everything is regular.** -/
theorem Happens.regular (h : t.Happens l fx t') (order : t.InOrder) (running : ¬t.IsStopping) :
    t.Regular t' := by
  cases h with
  | starts idle =>
    exact ⟨_, t.started_does.desk,
      fun m _ _ => Desk.phase_eq_unregistered.mp (order.emptied idle running m), nofun, nofun⟩
  | abandons hrun => exact regular_cancelRun _ rfl
  | asks h =>
    cases h with
    | stops hrun => exact regular_cancelRun _ rfl
    | _ => exact regular_rest rfl
  | goes hl hs h => exact h.regular order hs running
  | tends hl other h => exact h.regular
  | _ => exact regular_rest rfl

/-- **A stop is in progress** only if it was before, or if it has just been asked for. -/
theorem Happens.isStopping (h : t.Happens l fx t') (stopping : t'.IsStopping) :
    t.IsStopping ∨ t.run ≠ none ∧ t'.run = none := by
  have append : ∀ {t₁ : Tracker} {s : RequestStage}, t₁.requests = t.requests →
      s.isStop = false → (t₁.append s).IsStopping → t.IsStopping := by
    rintro t₁ s hrequests hs ⟨j, st, hj⟩
    rcases request?_append hj with ⟨-, rfl⟩ | hj
    · cases hs
    · rw [Tracker.request?, hrequests] at hj
      exact ⟨j, st, hj⟩
  cases h with
  | abandons hrun =>
    obtain ⟨j, st, hj⟩ := stopping
    exact .inl ⟨j, st, (t.request?_cancelRun _ j).symm.trans hj⟩
  | asks h =>
    cases h with
    | stops hrun => exact .inr ⟨by simp [hrun], rfl⟩
    | addsNothing => exact .inl (append rfl rfl stopping)
    | adds => exact .inl (append rfl rfl stopping)
    | removes => exact .inl (append rfl rfl stopping)
    | stopsNothing => exact .inl (append rfl rfl stopping)
    | awaits => exact .inl (append rfl rfl stopping)
  | @goes i s _ _ _ hl hs h =>
    obtain ⟨j, st, hj⟩ := stopping
    by_cases hji : j = i
    · subst hji
      have same : s.isStop = true → t.IsStopping ∨ t.run ≠ none ∧ t'.run = none := fun hstop => by
        obtain ⟨st', rfl⟩ := RequestStage.isStop_iff.mp hstop
        exact .inl ⟨_, st', hs⟩
      have after : ∀ {v}, t'.request? j = some v → v.isStop = true := fun hv => by
        obtain rfl := Option.some.inj (hj.symm.trans hv)
        rfl
      cases h.uses hs with
      | comes before desk ready hv locking stop => exact same (stop ▸ after hv)
      | leaves before desk ready hv => cases after hv
      | keeps before ready hv has stop => exact same (stop ▸ after hv)
      | returns before ready hv => cases after hv
    · exact .inl ⟨j, st, (h.request?_of_ne hji).symm.trans hj⟩
  | tends hl other h =>
    obtain ⟨j, st, hj⟩ := stopping
    rw [Tracker.request?, h.rest.2.2] at hj
    exact .inl ⟨j, st, hj⟩
  | _ => exact .inl stopping

/-- **Nothing that was counted for a market was ever forgotten.** -/
structure Unspoilt (t : Tracker) : Prop where
  orderly : t.Orderly
  running : ¬t.IsStopping
  untallied : t.desk.Untallied
  whole : t.desk.metrics.IsWhole

theorem unspoilt_ofConfig (h : ofConfig config = .ok t) : t.Unspoilt := by
  refine ⟨.init h, ?_, ?_, ?_⟩
  all_goals obtain ⟨-, rfl⟩ := eq_of_ofConfig h
  · rintro ⟨j, st, hj⟩
    cases hj
  · intro m hm
    cases hm
  · exact Metrics.isWhole_ofConfig config.metrics 0

/-- **It stays so** as long as no move forgets anything. -/
theorem Unspoilt.move (h : x.before.Unspoilt) (keeps : ¬x.Forgets) : x.after.Unspoilt := by
  have order := h.orderly.inOrder
  obtain ⟨a, hdoes, registers, cleared, discarded⟩ := x.happens.regular order h.running
  refine ⟨.step h.orderly (fun _ => h.running) x.step, fun stopping => ?_,
    hdoes.untallied order.desk h.untallied registers,
    hdoes.isWhole h.whole cleared fun m hm => ?_⟩
  · exact (x.happens.isStopping stopping).elim h.running fun stops => keeps (.inr stops)
  · -- whoever was being removed would be forgotten with its tally
    rcases discarded m hm with waits | removed
    · by_contra tally
      exact h.untallied m (by simpa using tally) waits
    · refine absurd (.inl ⟨m, removed, Desk.phase_of_none ?_⟩) keeps
      rw [hdoes.slot? m, hm]
      exact if_pos rfl

theorem Trail.unspoilt (trail : Trail t₀ xs t) (start : t₀.Unspoilt)
    (keeps : ∀ x ∈ xs, ¬x.Forgets) : t.Unspoilt := by
  induction trail with
  | nil => exact start
  | @snoc xs x before ih =>
    exact (ih fun y hy => keeps y (List.mem_append_left _ hy)).move (keeps x (by simp))

/-! ### The accounts -/

/-- One more message of a stream was processed, or one more was rejected, and not both. -/
def AddsOne (s : EventStream) (u u' : Totals) : Prop :=
  u'.processed s = u.processed s + 1 ∧ u'.rejected s = u.rejected s ∨
    u'.processed s = u.processed s ∧ u'.rejected s = u.rejected s + 1

/-- **The accounts** of a tracker after some moves. -/
structure Accounts (xs : List Move) (t : Tracker) : Prop where
  /-- A diff is counted when it is brought, when another takes its place, and when a worker drops
  it. -/
  diffs : t.desk.metrics.totals.diffsProcessed + t.desk.metrics.totals.diffsQueued +
      t.desk.metrics.totals.diffsUnknown + t.desk.metrics.totals.diffsRejected =
    occurrences (fun _ => DeskAct.brings .diff) xs + occurrences (fun _ => DeskAct.evicts) xs +
      occurrences (fun _ => DeskAct.drops) xs
  /-- Those that were brought for markets that waited for their first books. -/
  queued : t.desk.metrics.totals.diffsQueued =
    occurrences (fun x => x.before.desk.finds [.initializing]) xs
  /-- Those that were brought for markets that were not tracked or were being removed. -/
  unknown : t.desk.metrics.totals.diffsUnknown =
    occurrences (fun x => x.before.desk.finds [.unregistered, .removed]) xs
  others : ∀ s, s ≠ .diff →
    t.desk.metrics.totals.processed s + t.desk.metrics.totals.rejected s =
      occurrences (fun _ => DeskAct.brings s) xs
  once : ∀ x ∈ xs, ∀ s, s ≠ .diff → (∃ a ∈ x.acts, a.brings s = true) →
    AddsOne s x.before.desk.metrics.totals x.after.desk.metrics.totals
  /-- The latencies are those of what was processed. -/
  totals : t.desk.metrics.totals.IsMeasured
  tallies : ∀ e ∈ t.desk.metrics.markets.entries, e.2.IsMeasured
  shares : ∀ s, t.desk.metrics.shares s ≤ t.desk.metrics.totals.processed s
  whole : (∀ x ∈ xs, ¬x.Forgets) →
    ∀ s, t.desk.metrics.shares s = t.desk.metrics.totals.processed s

/-- With a move that brings a snapshot or a trade, one more of them is counted. -/
theorem Move.addsOne {ks : List (EventStream × LiveBook.Outcome)} {s : EventStream} (x : Move)
    (before : x.before.desk.metrics.totals.Counts ks) (hs : s ≠ .diff)
    (brings : ∃ a ∈ x.acts, a.brings s = true) :
    AddsOne s x.before.desk.metrics.totals x.after.desk.metrics.totals := by
  obtain ⟨a, hdoes, hrecorded⟩ := x.recorded_cases
  have after := hdoes.counts before
  rw [← hrecorded] at after
  rcases (x.recorded_once hs).2 brings with hx | hx
  · rw [hx] at after
    exact .inl (before.next after hs)
  · rw [hx] at after
    exact .inr (before.next after hs)

theorem Trail.once (trail : Trail t₀ xs t) (start : t₀.desk.metrics.totals.Counts []) :
    ∀ x ∈ xs, ∀ s, s ≠ .diff → (∃ a ∈ x.acts, a.brings s = true) →
      AddsOne s x.before.desk.metrics.totals x.after.desk.metrics.totals := by
  induction trail with
  | nil => simp
  | @snoc xs x before ih =>
    intro y hy
    rcases List.mem_append.mp hy with hy | hy
    · exact ih y hy
    · obtain rfl := List.mem_singleton.mp hy
      exact fun s => y.addsOne (before.counts start)

/-- **The accounts of a tracker are exact**, whatever has happened to it since it was made. -/
theorem accounts_of_trail (valid : ofConfig config = .ok t₀) (trail : Trail t₀ xs t) :
    Accounts xs t := by
  have hmetrics : t₀.desk.metrics = .ofConfig config.metrics 0 := by
    obtain ⟨-, rfl⟩ := eq_of_ofConfig valid
    rfl
  have start : t₀.desk.metrics.totals.Counts [] :=
    hmetrics ▸ Metrics.counts_ofConfig config.metrics 0
  have counts := trail.counts start
  have balanced := trail.balanced (hmetrics ▸ Metrics.balanced_ofConfig config.metrics 0)
  exact
    { diffs := counts.diffs.trans (countP_recorded_diffs xs)
      queued := counts.diffsQueued.trans (count_recorded_queued xs)
      unknown := counts.diffsUnknown.trans (count_recorded_unknown xs)
      others := fun s hs => (counts.others hs).trans (countP_recorded_others hs xs)
      once := trail.once start
      totals := balanced.totals
      tallies := balanced.tallies
      shares := balanced.shares
      whole := fun keeps => (trail.unspoilt (unspoilt_ofConfig valid) keeps).whole }

/-! ### Diffs that are counted twice -/

theorem trail_cons {t₁ : Tracker} (hstep : t.step l = some (t₁, fx)) (trail : Trail t₁ xs t') :
    Trail t (⟨t, l, fx, t₁, hstep⟩ :: xs) t' := by
  induction trail with
  | nil =>
    have before : Trail t [] t := .nil
    exact before.snoc (x := ⟨t, l, fx, t₁, hstep⟩)
  | snoc _ ih => exact .snoc ih

theorem Trail.trans {t₁ : Tracker} {ys : List Move} (h : Trail t₀ xs t₁) (h' : Trail t₁ ys t) :
    Trail t₀ (xs ++ ys) t := by
  induction h' with
  | nil => exact (List.append_nil xs).symm ▸ h
  | snoc _ ih => exact List.append_assoc .. ▸ ih.snoc

theorem trail_moves (ls : List Label) : ∀ t : Tracker, Trail t (t.moves ls).1 (t.moves ls).2 := by
  induction ls with
  | nil => exact fun t => .nil
  | cons l ls ih =>
    intro t
    unfold moves
    split
    next t' fx h => exact trail_cons h (ih t')
    next => exact .nil

/-- Three diffs come while the market waits, and the third takes the place of the first. The book
is as new as the second, which its worker drops. A fourth one comes in the meantime. -/
def bringing : List Label :=
  .start :: .proceed (.listener 0 (.stream .diff)) :: bringDiff 11 ++ bringDiff 12 ++
    bringDiff 13 ++ fetchBook 12 ++ [.proceed (.startup 0)] ++ bringDiff 14 ++
    [.proceed (.worker 0)]

/-- The accounts of the sample: four diffs were brought, and counted six times. -/
theorem accounts_of_sample : ∃ xs t, ofConfig sample.config = .ok sample ∧ Trail sample xs t ∧
    Accounts xs t ∧ occurrences (fun _ => DeskAct.brings .diff) xs = 4 ∧
    occurrences (fun _ => DeskAct.evicts) xs = 1 ∧ occurrences (fun _ => DeskAct.drops) xs = 1 ∧
    t.desk.metrics.totals.diffsProcessed = 1 ∧ t.desk.metrics.totals.diffsQueued = 3 ∧
    t.desk.metrics.totals.diffsRejected = 2 := by
  have valid : ofConfig sample.config = .ok sample := rfl
  have trail := trail_moves bringing sample
  exact ⟨_, _, valid, trail, accounts_of_trail valid trail, rfl, rfl, rfl, rfl, rfl, rfl⟩

end Tracker

end LiveBook
