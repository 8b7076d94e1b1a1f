import LiveBook.Proofs.Desk.Acts

/-!
# The service of a market

A market is served from when it is registered until it is registered anew. Two things are
shown here about all that is done at a desk meanwhile.

* `LiveBook.Desk.DoesAll.serves` – nothing is lost or changes its place where the diffs set
  aside are handed over to the worker: what the worker has taken, and then its backlog, are
  the diffs set aside, and then what was delivered.
* `LiveBook.Desk.DoesAll.drains` – the stale diffs that are dropped on the way to the worker
  do not matter: its keeper would have come to the same book with them.

Both are inductions over the acts, where `LiveBook.Desk.Does.worker?` is the step.
-/

namespace LiveBook

namespace Desk

variable {d d' : Desk} {m : MarketId} {xs : List DeskAct} {c i : ℕ}

/-- Some acts, one after the other, lead a desk from one state to another. -/
inductive DoesAll (d : Desk) : List DeskAct → Desk → Prop where
  | nil : DoesAll d [] d
  | snoc {xs : List DeskAct} {x : DeskAct} {d' d'' : Desk} (acts : DoesAll d xs d')
      (last : d'.Does x d'') : DoesAll d (xs ++ [x]) d''

theorem DoesAll.staffed (acts : d.DoesAll xs d') (hd : d.Staffed) : d'.Staffed := by
  induction acts with
  | nil => exact hd
  | snoc _ last ih => exact last.staffed ih

theorem DoesAll.policy (acts : d.DoesAll xs d') : d'.policy = d.policy := by
  induction acts with
  | nil => rfl
  | snoc _ last ih => exact last.policy_length.1.trans ih

/-! ### From the registration on -/

/-- **How a market stands** after some acts since it was registered with room for `c` diffs.
While it waits, the diffs that were brought are set aside. Once it is active, what its worker
has taken, and then its backlog, are the diffs that were set aside, as far as there was room,
and then what was delivered. -/
structure Serves (c : ℕ) (m : MarketId) (xs : List DeskAct) (d : Desk) : Prop where
  staffed : d.Staffed
  waiting : ∀ p, d.slot? m = some (.initializing p) →
    p = (PendingDiffs.ofCapacity c).pushAll (xs.flatMap (DeskAct.buffered m)) ∧
      xs.flatMap (DeskAct.buffered m) = diffsOf (xs.flatMap (DeskAct.brought m)) ∧
      xs.flatMap (DeskAct.delivered m) = []
  active : ∀ i, d.slot? m = some (.active i) → ∃ w, d.worker? i = some w ∧
    xs.flatMap (DeskAct.taken i) ++ w.backlog =
      ((PendingDiffs.ofCapacity c).pushAll (xs.flatMap (DeskAct.buffered m))).toList.map .diff ++
        xs.flatMap (DeskAct.delivered m)
  /-- Those who will come have not taken anything. -/
  untaken : ∀ i, d.staff.length ≤ i → xs.flatMap (DeskAct.taken i) = []

namespace Serves

theorem init (hd : d.Staffed) (hs : d.slot? m = some (.initializing (.ofCapacity c))) :
    Serves c m [] d := by
  refine ⟨hd, fun p hp => ?_, fun i hi => ?_, fun _ _ => rfl⟩
  · exact ⟨Slot.initializing.inj (Option.some.inj (hp.symm.trans hs)), rfl, rfl⟩
  · exact absurd (hs.symm.trans hi) (by simp)

/-- **A market stays well served** as long as it is not registered anew. At its activation
the new worker has taken nothing, and nothing was delivered. -/
theorem does {x : DeskAct} (h : Serves c m xs d) (last : d.Does x d')
    (hx : ∀ c, ¬x.Registers m c) : Serves c m (xs ++ [x]) d' := by
  refine ⟨last.staffed h.staffed, fun p hp => ?_, fun i hi => ?_, fun i hi => ?_⟩
  · -- it still waits, so all that was brought was set aside
    rw [last.slot? m] at hp
    obtain ⟨q, hq, rfl⟩ := DeskAct.slotAfter_eq_initializing hx hp
    obtain ⟨rfl, hbuffered, hdelivered⟩ := h.waiting q hq
    obtain ⟨hnone, hbrought⟩ := last.brought_waiting hq
    simp only [List.flatMap_append, List.flatMap_singleton]
    rw [PendingDiffs.pushAll_append, hdelivered, hnone, diffsOf_append, ← hbuffered, hbrought]
    exact ⟨rfl, rfl, rfl⟩
  · rw [last.slot? m] at hi
    simp only [List.flatMap_append, List.flatMap_singleton]
    rcases DeskAct.slotAfter_eq_active hi with hs | ⟨rfl, rfl⟩
    · -- it was active before, so nothing is set aside any more
      obtain ⟨w, hw, hbacklog⟩ := h.active i hs
      obtain ⟨w', hw', hcontinues⟩ := last.worker? hw
      refine ⟨w', hw', ?_⟩
      rw [(last.brought_active hs hw).1, List.append_nil, List.append_assoc, hcontinues.backlog,
        h.staffed.suppliedBy_eq hs, ← List.append_assoc, hbacklog, List.append_assoc]
    · -- it has just become active, and the new worker begins with what was set aside
      obtain ⟨p, w, hp, hw, -, hbacklog, -⟩ := last.activated
      obtain ⟨rfl, -, hdelivered⟩ := h.waiting p hp
      refine ⟨w, hw, ?_⟩
      rw [h.untaken d.staff.length le_rfl, hdelivered, hbacklog]
      simp [DeskAct.taken, DeskAct.buffered, DeskAct.delivered]
  · have hi := last.policy_length.2.trans hi
    rw [List.flatMap_append, List.flatMap_singleton, h.untaken i hi, last.taken_eq_nil hi,
      List.append_nil]

end Serves

/-- **Nothing is lost, doubled or moved** between what is brought for a market and its
worker, from its registration on. -/
theorem DoesAll.serves (acts : d.DoesAll xs d') (hd : d.Staffed)
    (hs : d.slot? m = some (.initializing (.ofCapacity c)))
    (hxs : ∀ x ∈ xs, ∀ c, ¬x.Registers m c) : Serves c m xs d' := by
  induction acts with
  | nil => exact .init hd hs
  | snoc acts last ih =>
    rw [List.forall_mem_append] at hxs
    exact (ih hxs.1).does last (hxs.2 _ (List.mem_singleton_self _))

/-! ### From the activation on -/

/-- The market has this worker and will get no other one. -/
def Assigns (d : Desk) (m : MarketId) (i : ℕ) : Prop :=
  ∀ s, d.slot? m = some s → s = .active i ∨ s = .removed

theorem Assigns.does {x : DeskAct} (h : d.Assigns m i) (last : d.Does x d')
    (hx : ∀ c, ¬x.Registers m c) : d'.Assigns m i := by
  intro s hs
  cases s with
  | removed => exact .inr rfl
  | initializing p =>
    rw [last.slot? m] at hs
    obtain ⟨q, hq, -⟩ := DeskAct.slotAfter_eq_initializing hx hs
    exact absurd (h _ hq) (by simp)
  | active j =>
    rw [last.slot? m] at hs
    rcases DeskAct.slotAfter_eq_active hs with hbefore | ⟨rfl, -⟩
    · exact h _ hbefore
    · obtain ⟨p, -, hp, -⟩ := last.activated
      exact absurd (h _ hp) (by simp)

theorem DoesAll.assigns (acts : d.DoesAll xs d') (h : d.Assigns m i)
    (hxs : ∀ x ∈ xs, ∀ c, ¬x.Registers m c) : d'.Assigns m i := by
  induction acts with
  | nil => exact h
  | snoc acts last ih =>
    rw [List.forall_mem_append] at hxs
    exact (ih hxs.1).does last (hxs.2 _ (List.mem_singleton_self _))

/-- **How a worker stands** after some acts since its market was active with the worker in
state `w₁`: what it has taken is in its book, and the stale diffs that did not get to it
would not have changed anything. -/
structure Drains (d₁ : Desk) (w₁ : Worker) (m : MarketId) (i : ℕ) (xs : List DeskAct)
    (w : Worker) : Prop where
  backlog : xs.flatMap (DeskAct.taken i) ++ w.backlog =
    w₁.backlog ++ xs.flatMap (DeskAct.delivered m)
  keeper : w.keeper.untraded =
    (w₁.keeper.processAll d₁.policy (xs.flatMap (DeskAct.taken i))).untraded
  delivered : (xs.flatMap (DeskAct.delivered m)).Sublist (xs.flatMap (DeskAct.brought m))
  brought : w.stage ≠ .ended →
    Ascends w₁.keeper.book.snapshotSequence
      (w₁.backlog ++ xs.flatMap (DeskAct.brought m)) →
    w₁.keeper.processAll d₁.policy (w₁.backlog ++ xs.flatMap (DeskAct.brought m)) =
      w₁.keeper.processAll d₁.policy (w₁.backlog ++ xs.flatMap (DeskAct.delivered m))

namespace Drains

variable {d₁ : Desk} {w₁ w : Worker} {x : DeskAct}

theorem init (d₁ : Desk) (w₁ : Worker) (m : MarketId) (i : ℕ) : Drains d₁ w₁ m i [] w₁ :=
  ⟨(List.append_nil _).symm, rfl, .refl _, fun _ _ => rfl⟩

/-- A diff that was stale when it came would have been stale when its turn had come. -/
theorem processAll_stale (h : Drains d₁ w₁ m i xs w)
    (hk : d₁.policy = .strictlyIncreasing → w₁.keeper.Remembers) {e : Diff}
    (hasc : Ascends w₁.keeper.book.snapshotSequence
      (w₁.backlog ++ xs.flatMap (DeskAct.delivered m)))
    (hstale : w.keeper.book.isStale d₁.policy e.sequence = true) :
    w₁.keeper.processAll d₁.policy
        (w₁.backlog ++ xs.flatMap (DeskAct.delivered m) ++ [.diff e]) =
      w₁.keeper.processAll d₁.policy (w₁.backlog ++ xs.flatMap (DeskAct.delivered m)) := by
  rw [← h.backlog] at hasc ⊢
  refine BookKeeper.processAll_stale hk hasc ?_
  rw [← hstale]
  exact BookKeeper.isStale_congr h.keeper.symm

/-- **Every act keeps a worker in this standing.** -/
theorem does (h : Drains d₁ w₁ m i xs w)
    (hk : d₁.policy = .strictlyIncreasing → w₁.keeper.Remembers) (last : d.Does x d')
    (hd : d.Staffed) (hpolicy : d.policy = d₁.policy) (hs : d.slot? m = some (.active i))
    (hw : d.worker? i = some w) :
    ∃ w', d'.worker? i = some w' ∧ Drains d₁ w₁ m i (xs ++ [x]) w' := by
  obtain ⟨w', hw', hcontinues⟩ := last.worker? hw
  refine ⟨w', hw', ?_, ?_, ?_, fun hstage hasc => ?_⟩
  · simp only [List.flatMap_append, List.flatMap_singleton]
    rw [List.append_assoc, hcontinues.backlog, hd.suppliedBy_eq hs, ← List.append_assoc, h.backlog,
      List.append_assoc]
  · rw [List.flatMap_append, List.flatMap_singleton, BookKeeper.processAll_append,
      ← BookKeeper.processAll_untraded, ← h.keeper, hcontinues.keeper, hpolicy,
      BookKeeper.processAll_untraded]
  · simp only [List.flatMap_append, List.flatMap_singleton]
    exact h.delivered.append (x.delivered_sublist m)
  · -- what came before makes no difference, so only this act is left to look at
    simp only [List.flatMap_append, List.flatMap_singleton, ← List.append_assoc] at hasc ⊢
    have hbefore := hasc.sublist (List.sublist_append_left _ _)
    have ih := h.brought (fun hended => hstage (hcontinues.ended hended)) hbefore
    rw [BookKeeper.processAll_append, ih, ← BookKeeper.processAll_append]
    rcases (last.brought_active hs hw).2 with hsame | hended | ⟨e, hbrought, hdelivered, hstale⟩
    · rw [hsame]
    · exact absurd (hcontinues.ended hended) hstage
    · rw [hbrought, hdelivered, List.append_nil]
      exact h.processAll_stale hk (hbefore.sublist ((List.Sublist.refl _).append h.delivered))
        (hpolicy ▸ hstale)

end Drains

/-- **Every worker of an active market stands so**, however what is brought to it and what it
does come in turn. -/
theorem DoesAll.drains {d₁ : Desk} {w₁ : Worker} (acts : d₁.DoesAll xs d)
    (hk : d₁.policy = .strictlyIncreasing → w₁.keeper.Remembers) (hd : d₁.Staffed)
    (hs₁ : d₁.slot? m = some (.active i)) (hw₁ : d₁.worker? i = some w₁)
    (hxs : ∀ x ∈ xs, ∀ c, ¬x.Registers m c) (hs : d.slot? m = some (.active i)) :
    ∃ w, d.worker? i = some w ∧ Drains d₁ w₁ m i xs w := by
  induction acts with
  | nil => exact ⟨w₁, hw₁, .init d₁ w₁ m i⟩
  | @snoc xs x d d' acts last ih =>
    rw [List.forall_mem_append] at hxs
    have hassigns : d.Assigns m i := by
      refine acts.assigns (fun s hs => .inl ?_) hxs.1
      exact (Option.some.inj (hs₁.symm.trans hs)).symm
    -- the market cannot have become active with this very act
    have hbefore : d.slot? m = some (.active i) := by
      rw [last.slot? m] at hs
      rcases DeskAct.slotAfter_eq_active hs with hbefore | ⟨rfl, -⟩
      · exact hbefore
      · obtain ⟨p, -, hp, -⟩ := last.activated
        exact absurd (hassigns _ hp) (by simp)
    obtain ⟨w, hw, hdrains⟩ := ih hxs.1 hbefore
    exact hdrains.does hk last (acts.staffed hd) acts.policy hbefore hw

end Desk

end LiveBook
