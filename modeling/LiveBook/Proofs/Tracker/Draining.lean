import LiveBook.Proofs.Tracker.Lifetime

/-!
# The final book does not depend on the schedule

Routers and workers take their steps in any order, and a router drops the diffs that are
stale for the book as it is at that moment, which lags behind the queue. Nevertheless, once
the worker has nothing left to take, its book is the one that the keeper makes of everything
that was brought for the market, with no diff dropped on the way
(`LiveBook.Tracker.book_of_drained`). What is asked of the snapshots is only that they do not
go back; the diffs may be in any order, and even invalid.
-/

namespace LiveBook

namespace Tracker

variable {t t₁ t₂ : Tracker} {m : MarketId} {l : Label} {fx : List TrackerEffect}
  {tr : List (Label × List TrackerEffect)} {i : ℕ} {w₁ w : Worker} {p : PendingDiffs}

/-- The worker of a market at the moment of its activation. -/
theorem worker_of_activated (first : t.step l = some (t₁, fx))
    (waiting : t.desk.slot? m = some (.initializing p))
    (active : t₁.desk.slot? m = some (.active i)) (worker : t₁.desk.worker? i = some w₁) :
    w₁.backlog = p.toList.map .diff ∧
      ∃ b window, b.lastDiff = none ∧ w₁.keeper = .ofBook b window := by
  obtain ⟨x, hdoes, -⟩ := step_does first
  rw [hdoes.desk.slot? m] at active
  rcases DeskAct.slotAfter_eq_active active with hbefore | ⟨rfl, rfl⟩
  · exact absurd (waiting.symm.trans hbefore) (by simp)
  · obtain ⟨q, w, hq, hw, -, hbacklog, hkeeper⟩ := hdoes.desk.activated
    obtain rfl := Slot.initializing.inj (Option.some.inj (waiting.symm.trans hq))
    obtain rfl := Option.some.inj (worker.symm.trans hw)
    exact ⟨hbacklog, hkeeper⟩

theorem snapshotsOf_diffs (ds : List Diff) (ms : List BookMessage) :
    snapshotsOf (ds.map .diff ++ ms) = snapshotsOf ms := by
  rw [snapshotsOf_append, snapshotsOf, List.filterMap_map]
  exact congrArg (· ++ snapshotsOf ms) (List.filterMap_eq_nil_iff.mpr fun _ _ => rfl)

/-- **Neither the schedule nor the check of the router matters to the final book.** Take a
market that has just become active, and any steps after which it is still active and its
worker, which has not ended, has nothing left to take. If the snapshots that were brought do
not go back, and not below the first book, then the levels, the sequence number of the
snapshot and that of the last diff are what the keeper makes of the diffs set aside and then
of everything that was brought. -/
theorem book_of_drained (reached : t.Reachable) (first : t.step l = some (t₁, fx))
    (waiting : t.desk.slot? m = some (.initializing p))
    (active : t₁.desk.slot? m = some (.active i)) (worker₁ : t₁.desk.worker? i = some w₁)
    (steps : StepsWithin m t₁ tr t₂) (stays : t₂.desk.slot? m = some (.active i))
    (worker : t₂.desk.worker? i = some w) (running : w.stage ≠ .ended)
    (drained : w.pending = [] ∧ w.queue = [])
    (ascending : (snapshotsOf (brought m tr)).Pairwise (·.sequence ≤ ·.sequence))
    (notOlder : ∀ s ∈ snapshotsOf (brought m tr),
      w₁.keeper.book.snapshotSequence ≤ s.sequence) :
    let final := (w₁.keeper.processAll t.config.policy
      (p.toList.map .diff ++ brought m tr)).book
    w.keeper.book.bids = final.bids ∧ w.keeper.book.asks = final.asks ∧
      w.keeper.book.snapshotSequence = final.snapshotSequence ∧
      w.keeper.book.lastDiff = final.lastDiff := by
  have sound := (reached.step first).sound
  obtain ⟨hbacklog, b, window, hb, hkeeper⟩ := worker_of_activated first waiting active worker₁
  obtain ⟨x, hdoes, -⟩ := step_does first
  obtain ⟨-, xs, hacts, hshown, hxs⟩ := steps.doesAll
  have hpolicy : t₁.desk.policy = t.config.policy := by rw [sound.policy, hdoes.config]
  obtain ⟨w', hw', drains⟩ := hacts.drains
    (fun _ => hkeeper ▸ BookKeeper.remembers_ofBook hb window) sound.staffed active worker₁ hxs
    stays
  obtain rfl := Option.some.inj (worker.symm.trans hw')
  -- the diffs set aside do not count for the order of the snapshots
  have hasc : Ascends w₁.keeper.book.snapshotSequence
      (w₁.backlog ++ xs.flatMap (DeskAct.brought m)) := by
    rw [← brought_eq hshown, hbacklog, Ascends, snapshotsOf_diffs]
    exact List.pairwise_cons.mpr ⟨List.forall_mem_map.mpr notOlder, List.pairwise_map.mpr ascending⟩
  have hempty : w.backlog = [] := by
    rw [Worker.backlog, drained.1, drained.2]
    rfl
  -- nothing is left in the backlog, so all that was delivered was taken
  have htaken := drains.backlog
  rw [hempty, List.append_nil] at htaken
  have hsame := drains.keeper
  rw [htaken, ← drains.brought running hasc, hpolicy, hbacklog, ← brought_eq hshown] at hsame
  exact Book.eq_of_untraded (congrArg BookKeeper.book hsame)

/-! ### A diff that comes twice

Under the strict policy a diff that comes again is stale. Here it is received again before the
worker has taken it, and brought to the desk afterwards. A snapshot comes last. -/

/-- The tracker whose market waits, with the book already fetched. -/
def sampleWaiting : Tracker :=
  ((sampleStarted.stepAll ⟨"BTC-USD"⟩
    (.proceed (.listener 0 (.stream .diff)) :: bringDiff 11 ++ fetchBook 10)).map Prod.fst).getD
    sampleStarted

/-- That tracker when the market has just become active. -/
def sampleActive : Tracker :=
  ((sampleWaiting.step (.proceed (.startup 0))).map Prod.fst).getD sampleWaiting

/-- What happens then, until the worker has nothing left to take. -/
def sampleLabels : List Label :=
  bringDiff 12 ++ [.receive 0 (.diff (sampleDiff 12)), .proceed (.worker 0), .proceed (.worker 0),
    .proceed (.router 0 .diff), .proceed (.listener 0 (.stream .snapshot)),
    .receive 0 (.snapshot (sampleSnapshot 12)), .proceed (.router 0 .snapshot),
    .proceed (.router 0 .snapshot), .proceed (.worker 0)]

/-- The tracker after that, with all effects. -/
def sampleDrained : Tracker × List (Label × List TrackerEffect) :=
  (sampleActive.stepAll ⟨"BTC-USD"⟩ sampleLabels).getD (sampleActive, [])

theorem reachable_sampleWaiting : sampleWaiting.Reachable := by
  have first : sample.step .start = some (sampleStarted, []) := rfl
  have steps : StepsWithin ⟨"BTC-USD"⟩ sampleStarted _ sampleWaiting := stepsWithin_of_stepAll
    (.proceed (.listener 0 (.stream .diff)) :: bringDiff 11 ++ fetchBook 10) rfl
  exact steps.reachable (reachable_sample.step first)

/-- The diff that came twice was delivered once, and the book is as if it had been twice. -/
theorem book_of_drained_sample : ∃ w₁ w, sampleWaiting.Reachable ∧
    sampleWaiting.step (.proceed (.startup 0)) = some (sampleActive, []) ∧
    sampleWaiting.desk.slot? ⟨"BTC-USD"⟩ = some (.initializing ⟨2, [sampleDiff 11]⟩) ∧
    sampleActive.desk.slot? ⟨"BTC-USD"⟩ = some (.active 0) ∧
    sampleActive.desk.worker? 0 = some w₁ ∧
    StepsWithin ⟨"BTC-USD"⟩ sampleActive sampleDrained.2 sampleDrained.1 ∧
    sampleDrained.1.desk.slot? ⟨"BTC-USD"⟩ = some (.active 0) ∧
    sampleDrained.1.desk.worker? 0 = some w ∧ w.stage ≠ .ended ∧
    (w.pending = [] ∧ w.queue = []) ∧
    brought ⟨"BTC-USD"⟩ sampleDrained.2 =
      [.diff (sampleDiff 12), .diff (sampleDiff 12), .snapshot (sampleSnapshot 12)] ∧
    delivered ⟨"BTC-USD"⟩ sampleDrained.2 =
      [.diff (sampleDiff 12), .snapshot (sampleSnapshot 12)] ∧
    w.keeper.book.snapshotSequence = 12 ∧ w.keeper.book.lastDiff = none := by
  have first : sampleWaiting.step (.proceed (.startup 0)) = some (sampleActive, []) := rfl
  have active : sampleActive.desk.slot? ⟨"BTC-USD"⟩ = some (.active 0) := rfl
  have steps : StepsWithin ⟨"BTC-USD"⟩ sampleActive sampleDrained.2 sampleDrained.1 :=
    stepsWithin_of_stepAll sampleLabels rfl
  have h := book_of_drained reachable_sampleWaiting first rfl active rfl steps rfl rfl
    (by decide) ⟨rfl, rfl⟩ (by decide) (by decide)
  exact ⟨_, _, reachable_sampleWaiting, first, rfl, active, rfl, steps, rfl, rfl, by decide,
    ⟨rfl, rfl⟩, rfl, rfl, h.2.2.1, h.2.2.2⟩

end Tracker

end LiveBook
