import LiveBook.Proofs.Tracker.Markets

/-!
# The queue for the lock

Who has the lock of a tracker, and who waits for it, stands in one queue. A request stands in it
exactly while it waits for the lock or has it, a startup while it waits for it with a book, and
nobody else ever does (`LiveBook.Tracker.Queued`).

* `LiveBook.Tracker.Goes.uses` – a request comes to the queue, goes on elsewhere, or goes on at
  the head of the queue, which it leaves with its answer;
* `LiveBook.Tracker.Happens.quiet` – while a request has the lock, nobody else does anything that
  concerns the order of the desk, a start excepted;
* `LiveBook.Tracker.Orderly.busy` – and there is no start then.
-/

namespace LiveBook

namespace Tracker

variable {t t' : Tracker} {a b : Actor} {i j r : ℕ} {m : MarketId} {s s' : RequestStage}
  {l : Label} {fx : List TrackerEffect} {run : Run}

/-! ### How a request uses the lock -/

/-- **How a request uses the lock** in one step. -/
inductive Uses (t : Tracker) (i : ℕ) (s : RequestStage) (t' : Tracker) : Prop where
  /-- It comes to the end of the queue. -/
  | comes {s' : RequestStage} (before : ¬s.IsLocking ∧ ¬s.HasLock) (desk : t'.desk = t.desk)
      (ready : t'.ready = t.ready) (after : t'.request? i = some s') (locking : s'.IsLocking)
      (stop : s'.isStop = s.isStop) (lock : t'.lock = t.lock ++ [.request i])
  /-- It is answered without the lock. -/
  | leaves {reply : Reply} (before : ¬s.IsLocking ∧ ¬s.HasLock) (desk : t'.desk = t.desk)
      (ready : t'.ready = t.ready) (after : t'.request? i = some (.answered reply))
      (stop : s.isStop = false) (lock : t'.lock = t.lock)
  /-- It goes on with the lock. -/
  | keeps {s' : RequestStage} (before : s.HasLock ∨ s.IsLocking ∧ t.holdsLock (.request i) = true)
      (ready : t'.ready = t.ready) (after : t'.request? i = some s') (has : s'.HasLock)
      (stop : s'.isStop = s.isStop) (lock : t'.lock = t.lock)
  /-- It is answered and gives the lock back. -/
  | returns {reply : Reply} (before : s.HasLock ∨ s.IsLocking ∧ t.holdsLock (.request i) = true)
      (ready : t'.ready = t.ready ∨ s.isStop = true ∧ t'.ready = t.ready.clear)
      (after : t'.request? i = some (.answered reply)) (lock : t'.lock = t.lock.tail)

/-- **Every rule of requests uses the lock in one of these ways.** -/
theorem Goes.uses (h : t.Goes i s l fx t') (hs : t.request? i = some s) : t.Uses i s t' := by
  have self : ∀ v, (t.setRequest i v).request? i = some v := fun _ => request?_setRequest_self hs
  cases h with
  | addQueues ready => exact .comes ⟨id, id⟩ rfl rfl (self _) trivial rfl rfl
  | addGivesUp cancelled => exact .leaves ⟨id, id⟩ rfl rfl (self _) rfl rfl
  | addDeclines holds => exact .returns (.inr ⟨trivial, holds⟩) (.inl rfl) (self _) rfl
  | addRegisters holds going new =>
    exact .keeps (.inr ⟨trivial, holds⟩) rfl (self _) trivial rfl rfl
  | addSubscribed => exact .keeps (.inl trivial) rfl (self _) trivial rfl rfl
  | addRefused => exact .returns (.inl trivial) (.inl rfl) (self _) rfl
  | addFetches => exact .keeps (.inl trivial) rfl (self _) trivial rfl rfl
  | addActivates hd => exact .returns (.inl trivial) (.inl rfl) (self _) rfl
  | @addQuits m r stage cancelled adding =>
    have has := RequestStage.hasLock_of_operation (s := .add m r stage) (by simp [adding])
    exact .keeps (.inl has) rfl (self _) trivial rfl rfl
  | addFails why => exact .keeps (.inl trivial) rfl (self _) trivial rfl rfl
  | addRolledBack b => exact .returns (.inl trivial) (.inl rfl) (self _) rfl
  | removeDeclines holds inactive =>
    exact .returns (.inr ⟨trivial, holds⟩) (.inl rfl) (self _) rfl
  | removeRetires holds active charge =>
    exact .keeps (.inr ⟨trivial, holds⟩) rfl (self _) trivial rfl rfl
  | removeRetiresNobody holds active charge =>
    exact .keeps (.inr ⟨trivial, holds⟩) rfl (self _) trivial rfl rfl
  | removeUnsubscribes ended => exact .keeps (.inl trivial) rfl (self _) trivial rfl rfl
  | removeEnds b => exact .returns (.inl trivial) (.inl rfl) (self _) rfl
  | stopQueues hr ended => exact .comes ⟨id, id⟩ rfl rfl (self _) trivial rfl rfl
  | stopDismisses holds workers =>
    exact .keeps (.inr ⟨trivial, holds⟩) rfl (self _) trivial rfl rfl
  | stopDisbands holds nobody =>
    exact .returns (.inr ⟨trivial, holds⟩) (.inr ⟨rfl, rfl⟩) (self _) rfl
  | stopDrains ended => exact .keeps (.inl trivial) rfl (self _) trivial rfl rfl
  | stopEnds ended => exact .returns (.inl trivial) (.inr ⟨rfl, rfl⟩) (self _) rfl
  | alerted ready => exact .leaves ⟨id, id⟩ rfl rfl (self _) rfl rfl

theorem holdsLock_iff : t.holdsLock a = true ↔ t.lock.head? = some a := decide_eq_true_iff

/-- Only one has the lock. -/
theorem holdsLock_unique (ha : t.holdsLock a = true) (hb : t.holdsLock b = true) : a = b :=
  Option.some.inj ((holdsLock_iff.mp ha).symm.trans (holdsLock_iff.mp hb))

theorem InOrder.holdsLock_of_before (h : t.InOrder) (hs : t.request? i = some s)
    (before : s.HasLock ∨ s.IsLocking ∧ t.holdsLock (.request i) = true) :
    t.holdsLock (.request i) = true :=
  before.elim (h.held i s hs) And.right

/-- **While another has the lock**, a request does nothing at the desk, and comes to the end of the
queue at most. -/
theorem Goes.aside (h : t.Goes j s l fx t') (hs : t.request? j = some s) (order : t.InOrder)
    (holds : t.holdsLock (.request i) = true) (hne : j ≠ i) :
    t'.desk = t.desk ∧ t.lock <+: t'.lock := by
  have without : ¬t.holdsLock (.request j) = true := fun hholds =>
    hne (Actor.request.inj (holdsLock_unique hholds holds))
  cases h.uses hs with
  | comes before desk ready after locking stop lock => exact ⟨desk, lock ▸ List.prefix_append _ _⟩
  | leaves before desk ready after stop lock => exact ⟨desk, lock ▸ List.prefix_refl _⟩
  | keeps before => exact absurd (order.holdsLock_of_before hs before) without
  | returns before => exact absurd (order.holdsLock_of_before hs before) without

/-- **While a request has the lock, nobody else touches the order of the desk**, unless a run
begins. -/
theorem Happens.quiet (h : t.Happens l fx t') (order : t.InOrder)
    (holds : t.holdsLock (.request i) = true) (hl : l.request? ≠ some i) :
    t.desk.Quiet t'.desk ∨ (l = .start ∧ t.run = none ∧ t' = t.started) := by
  cases h with
  | starts idle => exact .inr ⟨rfl, idle, rfl⟩
  | goesOn running => exact .inl t.desk.quiet_rest
  | abandons hrun => exact .inl (t.quiet_cancelRun _)
  | abandonsNothing idle => exact .inl t.desk.quiet_rest
  | asks h =>
    cases h with
    | stops hrun => exact .inl (t.quiet_cancelRun _)
    | _ => exact .inl t.desk.quiet_rest
  | @goes j _ _ _ _ hj hs h =>
    have hne : j ≠ i := fun heq => hl (heq ▸ hj)
    exact .inl ((h.aside hs order holds hne).1 ▸ t.desk.quiet_rest)
  | tends hl other h =>
    cases h with
    | task hr later startup minds tells => exact .inl (minds.quiet order.desk)
    | worker minds tells => exact .inl (minds.quiet order.desk)
    | startupActivates hr locking hholds => cases holdsLock_unique holds hholds
    | _ => exact .inl t.desk.quiet_rest

/-- **While a request has the lock,** the queue only grows. -/
theorem Happens.lock_prefix (h : t.Happens l fx t') (order : t.InOrder)
    (holds : t.holdsLock (.request i) = true) (hl : l.request? ≠ some i) : t.lock <+: t'.lock := by
  have same : t'.lock = t.lock → t.lock <+: t'.lock := fun hlock => hlock ▸ List.prefix_refl _
  have more : ∀ b, t'.lock = t.lock ++ [b] → t.lock <+: t'.lock := fun b hlock =>
    hlock ▸ List.prefix_append _ _
  cases h with
  | abandons hrun => exact same (t.lock_cancelRun _)
  | asks h =>
    cases h with
    | removes => exact more _ rfl
    | stops hrun => exact same (t.lock_cancelRun _)
    | _ => exact same rfl
  | @goes j _ _ _ _ hj hs h =>
    have hne : j ≠ i := fun heq => hl (heq ▸ hj)
    exact (h.aside hs order holds hne).2
  | tends hl other h =>
    cases h with
    | startupQueues book hr fetching => exact more _ rfl
    | startupActivates hr locking hholds => cases holdsLock_unique holds hholds
    | startupRetries hr locking hholds => cases holdsLock_unique holds hholds
    | _ => exact same rfl
  | _ => exact same rfl

/-- Who has the lock keeps it until it gives it back. -/
theorem Happens.holds (h : t.Happens l fx t') (order : t.InOrder)
    (holds : t.holdsLock (.request i) = true) (hl : l.request? ≠ some i) :
    t'.holdsLock (.request i) = true := by
  obtain ⟨more, hmore⟩ := h.lock_prefix order holds hl
  rw [holdsLock_iff] at holds ⊢
  rw [← hmore, List.head?_append, holds, Option.some_or]

/-! ### The queue -/

/-- Somebody waits for the lock, or has it. -/
def Attends (t : Tracker) : Actor → Prop
  | .startup r => ∃ run, t.run? r = some run ∧ run.startup.IsLocking
  | .request i => ∃ s, t.request? i = some s ∧ (s.IsLocking ∨ s.HasLock)
  | _ => False

/-- **The queue for the lock**: who stands in it, stands in it once, and waits for the lock or
has it. -/
structure Queued (t : Tracker) : Prop where
  nodup : t.lock.Nodup
  attends : ∀ a ∈ t.lock, t.Attends a
  waits : ∀ i s, t.request? i = some s → s.IsLocking → .request i ∈ t.lock

theorem Attends.mono (h : t.Attends a)
    (hrequest : ∀ i s, a = .request i → t.request? i = some s → t'.request? i = some s)
    (hstartup : ∀ r run, a = .startup r → t.run? r = some run → run.startup.IsLocking →
      ∃ run', t'.run? r = some run' ∧ run'.startup.IsLocking) : t'.Attends a := by
  cases a with
  | startup r =>
    obtain ⟨run, hr, hlocking⟩ := h
    exact hstartup r run rfl hr hlocking
  | request i =>
    obtain ⟨s, hs, hlock⟩ := h
    exact ⟨s, hrequest i s rfl hs, hlock⟩
  | _ => exact h

namespace Queued

/-- The queue stays as it is. -/
theorem stays (h : t.Queued) (lock : t'.lock = t.lock)
    (attends : ∀ a, t.Attends a → t'.Attends a)
    (waits : ∀ i s, t'.request? i = some s → s.IsLocking →
      ∃ v, t.request? i = some v ∧ v.IsLocking) : t'.Queued where
  nodup := lock ▸ h.nodup
  attends a ha := attends a (h.attends a (lock ▸ ha))
  waits i s hs hlocking := by
    obtain ⟨v, hv, hbefore⟩ := waits i s hs hlocking
    exact lock ▸ h.waits i v hv hbefore

/-- Somebody comes to the end of the queue. -/
theorem comes (h : t.Queued) (lock : t'.lock = t.lock ++ [a]) (new : ¬t.Attends a)
    (here : t'.Attends a) (attends : ∀ b, b ≠ a → t.Attends b → t'.Attends b)
    (waits : ∀ i s, t'.request? i = some s → s.IsLocking → a = .request i ∨
      ∃ v, t.request? i = some v ∧ v.IsLocking) : t'.Queued where
  nodup := by
    rw [lock, List.nodup_append]
    refine ⟨h.nodup, List.pairwise_singleton _ a, fun b hb c hc => ?_⟩
    obtain rfl := List.mem_singleton.mp hc
    rintro rfl
    exact new (h.attends b hb)
  attends b hb := by
    by_cases hba : b = a
    · exact hba ▸ here
    · rcases List.mem_append.mp (lock ▸ hb) with hb | hb
      · exact attends b hba (h.attends b hb)
      · exact absurd (List.mem_singleton.mp hb) hba
  waits i s hs hlocking := by
    rw [lock, List.mem_append]
    rcases waits i s hs hlocking with rfl | ⟨v, hv, hbefore⟩
    · exact .inr (List.mem_singleton.mpr rfl)
    · exact .inl (h.waits i v hv hbefore)

/-- The first leaves the queue. -/
theorem leaves (h : t.Queued) (holds : t.holdsLock a = true) (lock : t'.lock = t.lock.tail)
    (attends : ∀ b, b ≠ a → t.Attends b → t'.Attends b)
    (waits : ∀ i s, t'.request? i = some s → s.IsLocking → a ≠ .request i ∧
      ∃ v, t.request? i = some v ∧ v.IsLocking) : t'.Queued := by
  obtain ⟨rest, hrest⟩ : ∃ rest, t.lock = a :: rest :=
    ⟨_, List.eq_cons_of_mem_head? (holdsLock_iff.mp holds)⟩
  have nodup := h.nodup
  rw [hrest, List.nodup_cons] at nodup
  have htail : t'.lock = rest := by rw [lock, hrest, List.tail_cons]
  refine ⟨htail ▸ nodup.2, fun b hb => ?_, fun i s hs hlocking => ?_⟩
  · rw [htail] at hb
    refine attends b ?_ (h.attends b (hrest ▸ List.mem_cons_of_mem a hb))
    rintro rfl
    exact nodup.1 hb
  · obtain ⟨hne, v, hv, hbefore⟩ := waits i s hs hlocking
    have hmem := h.waits i v hv hbefore
    rw [hrest, List.mem_cons] at hmem
    exact htail ▸ hmem.resolve_left (Ne.symm hne)

/-- **A request goes on**, in the queue or elsewhere. -/
theorem goes (h : t.Queued) (order : t.InOrder) (hs : t.request? i = some s)
    (step : t.Goes i s l fx t') : t'.Queued := by
  have attends : ∀ b, b ≠ .request i → t.Attends b → t'.Attends b := fun b hb hattends =>
    hattends.mono (fun j v heq hv => (step.request?_of_ne fun hji => hb (hji ▸ heq)).trans hv)
      fun r run _ hr hlocking => ⟨run, by rwa [Tracker.run?, step.rest.2.2.1], hlocking⟩
  have others : ∀ j v, j ≠ i → t'.request? j = some v → v.IsLocking →
      ∃ v', t.request? j = some v' ∧ v'.IsLocking := fun j v hne hv hlocking =>
    ⟨v, (step.request?_of_ne hne).symm.trans hv, hlocking⟩
  cases step.uses hs with
  | comes before desk ready after locking stop lock =>
    refine h.comes lock ?_ ⟨_, after, .inl locking⟩ attends fun j v hv hlocking => ?_
    · rintro ⟨v, hv, hlock⟩
      obtain rfl := Option.some.inj (hs.symm.trans hv)
      exact hlock.elim before.1 before.2
    · by_cases hji : j = i
      · exact .inl (hji ▸ rfl)
      · exact .inr (others j v hji hv hlocking)
  | leaves before desk ready after stop lock =>
    refine h.stays lock (fun b hb => attends b ?_ hb) fun j v hv hlocking => ?_
    · -- it did not stand in the queue
      rintro rfl
      obtain ⟨v, hv, hlock⟩ := hb
      obtain rfl := Option.some.inj (hs.symm.trans hv)
      exact hlock.elim before.1 before.2
    · by_cases hji : j = i
      · subst hji
        obtain rfl := Option.some.inj (after.symm.trans hv)
        exact absurd hlocking id
      · exact others j v hji hv hlocking
  | keeps before ready after has stop lock =>
    refine h.stays lock (fun b hb => ?_) fun j v hv hlocking => ?_
    · by_cases hbi : b = .request i
      · exact hbi ▸ ⟨_, after, .inr has⟩
      · exact attends b hbi hb
    · by_cases hji : j = i
      · subst hji
        obtain rfl := Option.some.inj (after.symm.trans hv)
        exact absurd has hlocking.not_hasLock
      · exact others j v hji hv hlocking
  | returns before ready after lock =>
    refine h.leaves (order.holdsLock_of_before hs before) lock attends fun j v hv hlocking => ?_
    have hji : j ≠ i := by
      rintro rfl
      obtain rfl := Option.some.inj (after.symm.trans hv)
      exact hlocking
    exact ⟨fun heq => hji (Actor.request.inj heq).symm, others j v hji hv hlocking⟩

/-- A run comes to another stage, elsewhere than in the queue. -/
theorem setRun (h : t.Queued) {run' : Run} (hr : t.run? r = some run)
    (startup : run.startup.IsLocking → run'.startup.IsLocking) (lock : t'.lock = t.lock)
    (requests : t'.requests = t.requests) (runs : t'.runs = t.runs.set r run') : t'.Queued := by
  refine h.stays lock (fun b hb => hb.mono (fun j v _ hv => ?_) fun r' v _ hv hlocking => ?_)
    fun j v hv hlocking => ⟨v, ?_, hlocking⟩
  · rwa [Tracker.request?, requests]
  · rw [Tracker.run?, runs]
    by_cases heq : r' = r
    · subst heq
      obtain rfl := Option.some.inj (hr.symm.trans hv)
      exact ⟨run', List.getElem?_set_self (List.getElem?_eq_some_iff.mp hr).1, startup hlocking⟩
    · exact ⟨v, (List.getElem?_set_ne (Ne.symm heq)).trans hv, hlocking⟩
  · rwa [Tracker.request?, ← requests]

/-- Somebody other than a startup or a request is not in the queue, so a change of a run is a
matter of its startup. -/
theorem attends_setRun {run' : Run} (requests : t'.requests = t.requests)
    (runs : t'.runs = t.runs.set r run') : ∀ b, b ≠ .startup r → t.Attends b → t'.Attends b := by
  intro b hb hattends
  refine hattends.mono (fun j v _ hv => ?_) fun r' v heq hv hlocking => ⟨v, ?_, hlocking⟩
  · rwa [Tracker.request?, requests]
  · rw [Tracker.run?, runs, List.getElem?_set_ne fun hr => hb (heq.trans (congrArg _ hr.symm))]
    exact hv

theorem tends (h : t.Queued) (step : t.Tends fx t') : t'.Queued := by
  have here : ∀ {r : ℕ} {run run' : Run}, t.run? r = some run →
      (t.runs.set r run')[r]? = some run' := fun hr =>
    List.getElem?_set_self (List.getElem?_eq_some_iff.mp hr).1
  cases step with
  | task hr later startup minds tells => exact h.setRun hr (startup ▸ id) rfl rfl rfl
  | worker minds tells => exact h.stays rfl (fun _ hb => hb.mono (fun _ _ _ => id)
      fun r run _ hr hl => ⟨run, hr, hl⟩) fun j v hv hl => ⟨v, hv, hl⟩
  | startup hr going outside remaining tells =>
    exact h.setRun hr (absurd · outside.1) rfl rfl rfl
  | startupEnds hr none => exact h.setRun hr (by simp [none, StartupStage.IsLocking]) rfl rfl rfl
  | @startupQueues r run m rest book hr fetching =>
    refine h.comes rfl ?_ ⟨_, here hr, trivial⟩ (attends_setRun rfl rfl)
      fun j v hv hl => .inr ⟨v, hv, hl⟩
    rintro ⟨v, hv, hlocking⟩
    obtain rfl := Option.some.inj (hr.symm.trans hv)
    rw [fetching] at hlocking
    exact hlocking
  -- with the book or without, the startup gives the lock back
  | startupActivates hr locking holds hd outside remaining hready =>
    exact h.leaves holds rfl (attends_setRun rfl rfl) fun j v hv hl => ⟨by simp, v, hv, hl⟩
  | startupRetries hr locking holds he =>
    exact h.leaves holds rfl (attends_setRun rfl rfl) fun j v hv hl => ⟨by simp, v, hv, hl⟩
  | time clock now => exact h.stays rfl (fun _ hb => hb.mono (fun _ _ _ => id)
      fun r run _ hr hl => ⟨run, hr, hl⟩) fun j v hv hl => ⟨v, hv, hl⟩

/-- A request is made that does not come to the lock yet. -/
theorem append (h : t.Queued) (hs : ¬s.IsLocking) : (t.append s).Queued := by
  refine h.stays rfl (fun b hb => hb.mono (fun j v _ => request?_append_of_some)
    fun r run _ hr hl => ⟨run, hr, hl⟩) fun j v hv hlocking => ?_
  rcases request?_append hv with ⟨-, rfl⟩ | hv
  · exact absurd hlocking hs
  · exact ⟨v, hv, hlocking⟩

theorem cancelRun (h : t.Queued) (r : ℕ) : (t.cancelRun r).Queued := by
  refine h.stays (t.lock_cancelRun r) (fun b hb => hb.mono (fun j v _ hv => ?_)
    fun r' run _ hr hl => ?_) fun j v hv hl => ⟨v, (t.request?_cancelRun r j).symm.trans hv, hl⟩
  · exact (t.request?_cancelRun r j).trans hv
  · rw [run?_cancelRun, hr, Option.map_some]
    split
    · exact ⟨_, rfl, hl⟩
    · exact ⟨_, rfl, hl⟩

theorem asks (h : t.Queued) {q : Request} (step : t.Asks q fx t') : t'.Queued := by
  cases step with
  | addsNothing idle => exact h.append id
  | adds hrun => exact h.append id
  | @removes m =>
    refine h.comes rfl ?_ ⟨_, List.getElem?_concat_length, .inl trivial⟩ (fun b _ hb => ?_)
      fun j v hv hlocking => ?_
    · -- there was no request of this number
      rintro ⟨v, hv, -⟩
      exact absurd (List.getElem?_eq_some_iff.mp hv).1 (lt_irrefl _)
    · exact hb.mono (fun j v _ => request?_append_of_some) fun r run _ hr hl => ⟨run, hr, hl⟩
    · rcases request?_append (s := .remove m .locking) hv with ⟨rfl, -⟩ | hv
      · exact .inl rfl
      · exact .inr ⟨v, hv, hlocking⟩
  | stopsNothing idle => exact h.append id
  | @stops r hrun =>
    have happend : ((t.cancelRun r).append (.stop (.awaitingTasks r))).Queued :=
      (h.cancelRun r).append id
    exact ⟨happend.nodup, happend.attends, happend.waits⟩
  | awaits => exact h.append id

/-- **Every step keeps the queue.** -/
theorem happens (h : t.Queued) (order : t.InOrder) (step : t.Happens l fx t') : t'.Queued := by
  cases step with
  | starts idle =>
    exact h.stays rfl (fun b hb => hb.mono (fun _ _ _ => id) fun r run _ hr hl =>
      ⟨run, (List.getElem?_append_left (List.getElem?_eq_some_iff.mp hr).1).trans hr, hl⟩)
      fun j v hv hl => ⟨v, hv, hl⟩
  | goesOn running => exact h
  | abandons hrun => exact h.cancelRun _
  | abandonsNothing idle => exact h
  | asks step => exact h.asks step
  | goes hl hs step => exact h.goes order hs step
  | tends hl other step => exact h.tends step

end Queued

theorem Orderly.queued (h : t.Orderly) : t.Queued := by
  induction h with
  | init h =>
    obtain ⟨-, rfl⟩ := eq_of_ofConfig h
    exact ⟨List.nodup_nil, by simp, by simp [request?]⟩
  | step before _ next ih => exact ih.happens before.inOrder (step_happens next)

/-! ### No start while the lock is used -/

/-- Whoever does something that takes the lock does it for a run, or while a stop is in
progress. -/
def Busy (t : Tracker) : Prop :=
  ∀ i s, t.request? i = some s → s.HasLock → t.run ≠ none ∨ t.IsStopping

/-- Where nothing is under way, a market is tracked only for a run. -/
theorem InOrder.run_of_tracked (h : t.InOrder) (tracked : t.desk.phase m ≠ .unregistered) :
    t.run ≠ none ∨ t.IsStopping := by
  by_contra hnone
  obtain ⟨hrun, hstop⟩ := not_or.mp hnone
  exact tracked (h.emptied (not_not.mp hrun) hstop m)

/-- A request that goes on with the lock does it for a run, or for a stop. -/
theorem Goes.run_of_keeps (h : t.Goes i s l fx t') (order : t.InOrder)
    (hs : t.request? i = some s) (locking : s.IsLocking) (has : s'.HasLock)
    (after : t'.request? i = some s') : t.run ≠ none ∨ t.IsStopping := by
  have answered : ∀ {reply : Reply}, (t.requests.set i (.answered reply))[i]? ≠ some s' := by
    intro reply heq
    rw [List.getElem?_set_self (List.getElem?_eq_some_iff.mp hs).1] at heq
    obtain rfl := Option.some.inj heq
    exact has
  cases h with
  | addRegisters holds going new =>
    exact .inl (by rw [order.run_of_not_isCancelled going]; simp)
  | removeRetires holds active charge =>
    exact order.run_of_tracked (by rw [Desk.phase_of_slot active]; simp [Slot.phase])
  | removeRetiresNobody holds active charge =>
    exact order.run_of_tracked (by rw [Desk.phase_of_slot active]; simp [Slot.phase])
  | stopDismisses holds workers => exact .inr ⟨i, _, hs⟩
  | addDeclines holds => exact absurd after answered
  | removeDeclines holds inactive => exact absurd after answered
  | stopDisbands holds nobody => exact absurd after answered
  | @addQuits m r stage cancelled adding =>
    cases stage with
    | locking => cases adding
    | _ => exact absurd locking id
  | _ => exact absurd locking id

/-- The stops are those that there were before, as long as no request is answered. -/
theorem IsStopping.of_request? {v v' : RequestStage} (h : t.IsStopping)
    (hv : t.request? i = some v) (hv' : t'.request? i = some v') (stop : v'.isStop = v.isStop)
    (others : ∀ j s, j ≠ i → t.request? j = some s → t'.request? j = some s) :
    t'.IsStopping := by
  obtain ⟨j, st, hj⟩ := h
  by_cases hji : j = i
  · subst hji
    obtain rfl := Option.some.inj (hv.symm.trans hj)
    obtain ⟨st', rfl⟩ := RequestStage.isStop_iff.mp stop
    exact ⟨j, st', hv'⟩
  · exact ⟨j, st, others j _ hji hj⟩

theorem Busy.goes (h : t.Busy) (order : t.InOrder) (hs : t.request? i = some s)
    (step : t.Goes i s l fx t') : t'.Busy := by
  have hrun := step.rest.2.1
  have earlier : ∀ {j v}, j ≠ i → t'.request? j = some v → t.request? j = some v := fun hne =>
    (step.request?_of_ne hne).symm.trans
  -- as long as the request is not a stop that ends, all goes on as before
  have goesOn : ∀ {v}, t'.request? i = some v → v.isStop = s.isStop →
      t.run ≠ none ∨ t.IsStopping → t'.run ≠ none ∨ t'.IsStopping := fun hv stop hbusy =>
    hbusy.imp (hrun ▸ id) fun hstop => hstop.of_request? hs hv stop fun j s hne =>
      (step.request?_of_ne hne).trans
  intro j v hv has
  cases step.uses hs with
  | comes before desk ready after locking stop lock =>
    by_cases hji : j = i
    · subst hji
      obtain rfl := Option.some.inj (after.symm.trans hv)
      exact absurd has locking.not_hasLock
    · exact goesOn after stop (h j v (earlier hji hv) has)
  | leaves before desk ready after stop lock =>
    by_cases hji : j = i
    · subst hji
      obtain rfl := Option.some.inj (after.symm.trans hv)
      exact absurd has id
    · exact goesOn after stop.symm (h j v (earlier hji hv) has)
  | keeps before ready after hhas stop lock =>
    by_cases hji : j = i
    · subst hji
      refine goesOn after stop ?_
      -- it had the lock before, or has just taken it up
      rcases before with hbefore | ⟨hlocking, -⟩
      · exact h j s hs hbefore
      · exact step.run_of_keeps order hs hlocking hhas after
    · exact goesOn after stop (h j v (earlier hji hv) has)
  | returns before ready after lock =>
    -- nobody else had the lock
    have hji : j ≠ i := by
      rintro rfl
      obtain rfl := Option.some.inj (after.symm.trans hv)
      exact absurd has id
    have hv := earlier hji hv
    have := holdsLock_unique (order.held j v hv has) (order.holdsLock_of_before hs before)
    exact absurd (Actor.request.inj this) hji

/-- **Whoever does something that takes the lock does it for a run, or while a stop is in
progress.** So there is no start then. -/
theorem Orderly.busy (h : t.Orderly) : t.Busy := by
  induction h with
  | init h =>
    obtain ⟨-, rfl⟩ := eq_of_ofConfig h
    intro i s hs
    simp [request?] at hs
  | @step t t' l fx before orderly next ih =>
    have same : ∀ {t' : Tracker}, t'.run = t.run → t'.requests = t.requests → t'.Busy := by
      intro t' hrun hrequests j v hv has
      rw [Tracker.request?, hrequests] at hv
      refine (ih j v hv has).imp (hrun ▸ id) ?_
      rintro ⟨k, st, hk⟩
      exact ⟨k, st, by rwa [Tracker.request?, hrequests]⟩
    have append : ∀ {s : RequestStage} {lock : List Actor}, ¬s.HasLock →
        Busy { t.append s with lock := lock } := by
      intro s lock hs j v hv has
      rcases request?_append (t := t) hv with ⟨-, rfl⟩ | hv
      · exact absurd has hs
      · refine (ih j v hv has).imp_right ?_
        rintro ⟨k, st, hk⟩
        exact ⟨k, st, request?_append_of_some hk⟩
    cases step_happens next with
    | starts idle => exact fun j v hv has => .inl (by simp [started])
    | goesOn running => exact ih
    | abandons hrun => exact same (t.run_cancelRun _) (t.requests_cancelRun _)
    | abandonsNothing idle => exact ih
    | asks h =>
      cases h with
      | addsNothing idle => exact append id
      | adds hrun => exact append id
      | removes => exact append id
      | stopsNothing idle => exact append id
      | stops hrun =>
        exact fun j v hv has => .inr ⟨_, _, List.getElem?_concat_length⟩
      | awaits => exact append id
    | goes hl hs h => exact ih.goes before.inOrder hs h
    | tends hl other h => exact same h.rest.2.1 h.rest.2.2

end Tracker

end LiveBook
