import LiveBook.Proofs.Tracker.Lifetime
import LiveBook.Proofs.Tracker.Upkeep

/-!
# The way of a market

A market comes, waits for its first book, is active, is removed, and is forgotten; it may also
be withdrawn while it waits, and a stop ends everything. Five kinds of tasks have a hand in
this, each of them in several steps with others in between. What holds between any two steps
is `LiveBook.Tracker.Lawful`; it holds of every tracker that has taken any steps whatsoever
since it was made, as long as it was not started before a stop had ended
(`LiveBook.Tracker.Orderly`, `LiveBook.Tracker.lawful_of_orderly`).
-/

namespace LiveBook

/-- A valid configuration has no market twice. -/
theorem TrackerConfig.nodup_markets {config : TrackerConfig} (h : config.validate = .ok ()) :
    config.markets.Nodup := by
  have hfault : config.fault? = none := by
    unfold validate at h
    split at h
    next => cases h
    next hnone => exact hnone
  unfold fault? at hfault
  iterate 5
    split at hfault
    next => cases hfault
  exact (marketFault?_eq_none.mp hfault).2.2

/-- A desk without any market is in order. -/
theorem Desk.inOrder_empty (policy : StalenessPolicy) (config : MetricsConfig) (now : Instant) :
    (Desk.empty policy (.ofConfig config now)).InOrder .idle :=
  ⟨fun m i hi => by simp [slot?, empty] at hi, fun m =>
    { adding := by simp
      removing := by simp [phase_eq, slot?, empty]
      inCharge := by simp [empty]
      charged := by simp [slot?, empty]
      dismissed := by simp
      working := by simp [worker?, empty]
      tallied := fun hm => by cases hm }⟩

namespace Tracker

variable {t t' : Tracker} {m : MarketId} {l : Label} {fx : List TrackerEffect}

/-- **A state that a tracker reaches** if it is not started before a stop has ended. -/
inductive Orderly : Tracker → Prop where
  | init {config : TrackerConfig} {t : Tracker} (h : ofConfig config = .ok t) : Orderly t
  | step {t t' : Tracker} {l : Label} {fx : List TrackerEffect} (before : Orderly t)
      (orderly : l = .start → ¬t.IsStopping) (next : t.step l = some (t', fx)) : Orderly t'

theorem inOrder_ofConfig {config : TrackerConfig} (h : ofConfig config = .ok t) : t.InOrder := by
  obtain ⟨hvalid, rfl⟩ := eq_of_ofConfig h
  exact
    { desk := Desk.inOrder_empty config.policy config.metrics 0
      held := by simp [request?]
      stopped := by simp [request?]
      stopsOnce := by simp [request?]
      emptied := fun _ _ _ => rfl
      current := by simp [run?]
      starting := by simp [run?]
      waiting := by simp [Waits, run?]
      distinct := by simp [run?]
      markets := TrackerConfig.nodup_markets hvalid }

/-- **All these states are in order.** -/
theorem Orderly.inOrder (h : t.Orderly) : t.InOrder := by
  induction h with
  | init h => exact inOrder_ofConfig h
  | step _ orderly next ih => exact (ih.keeps_step orderly next).order

/-- Within one lifetime of a configured market, no run begins, so there can be no start that comes
too early. -/
theorem Orderly.within (h : t.Orderly) (hm : m ∈ t.config.markets)
    {tr : List (Label × List TrackerEffect)} (steps : StepsWithin m t tr t') :
    t'.Orderly ∧ m ∈ t'.config.markets := by
  induction steps with
  | refl => exact ⟨h, hm⟩
  | tail _ last lives ih =>
    obtain ⟨x, hdoes, -⟩ := step_does last
    refine ⟨.step ih.1 ?_ last, hdoes.config ▸ ih.2⟩
    rintro rfl ⟨i, st, hi⟩
    exact lives (.inl ⟨rfl, ih.1.inOrder.stopped i st hi, ih.2⟩)

/-- **The law of the markets**, between two steps of a tracker. A worker gets the messages of
its queue through the slot of its market, so it has a queue as long as it is supplied. -/
structure Lawful (t : Tracker) : Prop where
  /-- The parts of every slot belong together: an active market has a book and a queue and nothing
  set aside, one that waits has neither book nor queue, and a removed one has no queue. -/
  parts : ∀ m x, t.desk.slot? m = some x → ∃ s, t.desk.slots.get? m = some s ∧ s.Shows x
  /-- An active market has a book and a queue, and no diffs that are set aside. -/
  active : ∀ m i, t.desk.slot? m = some (.active i) → ∃ w, t.desk.worker? i = some w ∧
    w.market = m ∧ t.desk.isSupplied i w = true ∧ t.desk.book? m = some w.keeper.book ∧
    t.desk.pendingSize m = 0
  /-- A market that waits for its book has no book and no queue, and nobody works for it. -/
  initializing : ∀ m p, t.desk.slot? m = some (.initializing p) →
    t.desk.book? m = none ∧ t.desk.inCharge.get? m = none ∧
    ∀ i w, t.desk.worker? i = some w → w.market = m →
      t.desk.isSupplied i w = false ∧ w.stage = .ended
  /-- A removed market has no queue and nobody in charge, and the one who is removing it has the
  lock. -/
  removed : ∀ m, t.desk.slot? m = some .removed → t.desk.inCharge.get? m = none ∧
    (∀ i w, t.desk.worker? i = some w → w.market = m → t.desk.isSupplied i w = false) ∧
    ∃ i stage, t.request? i = some (.remove m stage) ∧ stage ≠ .locking ∧
      t.holdsLock (.request i) = true
  /-- Who is in charge of a market is its worker, and the market is active. -/
  inCharge : ∀ m i, t.desk.inCharge.get? m = some i → t.desk.slot? m = some (.active i)
  /-- The worker of an active market is in charge of it, unless a stop is in progress. -/
  charged : ∀ m i, t.desk.slot? m = some (.active i) →
    t.desk.inCharge.get? m = some i ∨ t.IsStopping
  /-- Only markets with a slot have a tally. -/
  tallied : ∀ m, t.desk.metrics.hasMarket m = true → t.desk.slot? m ≠ none
  /-- The next step moves each market by one phase at most, unless a stop ends with it. -/
  moves : ∀ l fx t', (l = .start → ¬t.IsStopping) → t.step l = some (t', fx) → ∀ m,
    t'.desk.phase m = t.desk.phase m ∨ (t.desk.phase m).Next (t'.desk.phase m) ∨
      t.StopEnds t' ∧ t'.desk.phase m = .unregistered
  /-- With the next step, no activation fails because its market does not wait. -/
  waited : ∀ l fx t', (l = .start → ¬t.IsStopping) → t.step l = some (t', fx) → ∀ a m,
    TrackerEffect.failed a (.notInitializing m) ∉ fx

namespace InOrder

/-- Where a market is not active, nobody is in charge of it and nobody is supplied. -/
theorem unsupplied (h : t.InOrder) (inactive : ∀ i, t.desk.slot? m ≠ some (.active i)) :
    t.desk.inCharge.get? m = none ∧ ∀ i w, t.desk.worker? i = some w → w.market = m →
      t.desk.isSupplied i w = false := by
  refine ⟨?_, fun i w _ hm => ?_⟩
  · cases hi : t.desk.inCharge.get? m with
    | none => rfl
    | some i => exact absurd ((h.desk.market m).inCharge i hi) (inactive i)
  · rw [Bool.eq_false_iff, ne_eq, Desk.isSupplied_iff, hm]
    exact inactive i

/-- **A tracker in order obeys the law of the markets.** -/
theorem lawful (h : t.InOrder) : t.Lawful where
  parts m x hx := by
    obtain ⟨s, hs, hview⟩ := Desk.exists_of_slot? hx
    exact ⟨s, hs, hview ▸ s.shows_view⟩
  active m i hi := by
    obtain ⟨w, hw, hm⟩ := h.desk.staffed m i hi
    refine ⟨w, hw, hm, ?_, ?_, ?_⟩
    · rwa [Desk.isSupplied_iff, hm]
    · simp [Desk.book?, hi, hw]
    · exact Desk.pendingSize_eq_zero (by simp [hi])
  initializing m p hp := by
    have inactive : ∀ i, t.desk.slot? m ≠ some (.active i) := by simp [hp]
    obtain ⟨hcharge, hsupply⟩ := h.unsupplied inactive
    exact ⟨by simp [Desk.book?, hp], hcharge, fun i w hw hm =>
      ⟨hsupply i w hw hm, h.desk.ended_of_waiting (Desk.phase_of_slot hp) hw hm⟩⟩
  removed m hm := by
    have inactive : ∀ i, t.desk.slot? m ≠ some (.active i) := by simp [hm]
    obtain ⟨hcharge, hsupply⟩ := h.unsupplied inactive
    -- it is being removed, by a request that has the lock
    obtain ⟨j, hop⟩ := (h.desk.market m).removing.mp (Desk.phase_of_slot hm)
    obtain ⟨i, s, hs, holds, hsame⟩ := exists_request_of_operation (t := t) (by simp [hop])
    obtain ⟨stage, rfl, hstage⟩ := RequestStage.remove_of_removing (hsame.symm.trans hop)
    exact ⟨hcharge, hsupply, i, stage, hs, hstage, holds⟩
  inCharge m := (h.desk.market m).inCharge
  charged m i hi := by
    refine ((h.desk.market m).charged i hi).imp_right ?_
    rintro ⟨ws, hop⟩
    obtain ⟨k, s, hs, -, hsame⟩ := exists_request_of_operation (t := t) (by simp [hop])
    obtain ⟨st, rfl⟩ := RequestStage.isStop_of_dismissing (hsame.symm.trans hop)
    exact ⟨k, st, hs⟩
  tallied m hm hnone := (h.desk.market m).tallied hm (Desk.phase_of_none hnone)
  moves l fx t' orderly next := (h.keeps_step orderly next).phase
  waited l fx t' orderly next := (h.keeps_step orderly next).waited

end InOrder

/-- **The law of the markets holds throughout,** whatever the tasks of a tracker, its workers and
those who ask something of it do in whatever order, and whatever the source answers. -/
theorem lawful_of_orderly (h : t.Orderly) : t.Lawful := h.inOrder.lawful

/-! ### A market that is being removed

A market has become active, and its removal waits for the worker, which was cancelled and has
not ended yet. -/

/-- The tracker with the market that is being removed. -/
def sampleRemoving : Tracker :=
  ((sampleStarted.stepAll ⟨"BTC-USD"⟩ (fetchBook 10 ++ [.proceed (.startup 0),
    .ask (.remove ⟨"BTC-USD"⟩), .proceed (.request 0)])).map Prod.fst).getD sampleStarted

/-- Nobody is in charge of the market, and the removal has the lock. -/
theorem lawful_of_orderly_removing : sampleRemoving.Orderly ∧
    sampleRemoving.desk.slot? ⟨"BTC-USD"⟩ = some .removed ∧
    (∃ w, sampleRemoving.desk.worker? 0 = some w ∧ w.stage = .running) ∧
    sampleRemoving.desk.inCharge.get? ⟨"BTC-USD"⟩ = none ∧
    ∃ i stage, sampleRemoving.request? i = some (.remove ⟨"BTC-USD"⟩ stage) ∧
      stage ≠ .locking ∧ sampleRemoving.holdsLock (.request i) = true := by
  have first : sample.step .start = some (sampleStarted, []) := rfl
  have valid : ofConfig sample.config = .ok sample := rfl
  have started : sampleStarted.Orderly :=
    .step (.init valid) (fun _ ⟨i, st, hi⟩ => by cases hi) first
  have steps : StepsWithin ⟨"BTC-USD"⟩ sampleStarted _ sampleRemoving := stepsWithin_of_stepAll
    (fetchBook 10 ++ [.proceed (.startup 0), .ask (.remove ⟨"BTC-USD"⟩),
      .proceed (.request 0)]) rfl
  have orderly : sampleRemoving.Orderly := (started.within (by decide) steps).1
  obtain ⟨hcharge, -, hremove⟩ := (lawful_of_orderly orderly).removed ⟨"BTC-USD"⟩ rfl
  exact ⟨orderly, rfl, ⟨_, rfl, rfl⟩, hcharge, hremove⟩

end Tracker

end LiveBook
