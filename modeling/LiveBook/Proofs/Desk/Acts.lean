import LiveBook.Proofs.Desk.Operations

/-!
# One step of a desk

Whatever a tracker does in one step, it does one thing at its desk. These acts
(`LiveBook.DeskAct`, `LiveBook.Desk.Does`) are the only ones, and three statements say what
any of them does:

* `LiveBook.Desk.Does.slot?` – what it makes of the slot of a market;
* `LiveBook.Desk.Does.worker?` – what it makes of a worker: the messages that the worker takes
  go from the head of its backlog into its book, and those that are brought to it come to the
  end (`LiveBook.Desk.Continues`);
* `LiveBook.Desk.Does.staffed` – behind the slot of an active market there stays a worker of
  this market.

Most acts do not show. Those that do, the ways of events and the steps of workers, tell which
messages were brought, set aside, delivered and taken.
-/

namespace LiveBook

/-- The message that an event has for a market. -/
def Event.messageFor (m : MarketId) (e : Event) : List BookMessage :=
  if e.market = m then e.message?.toList else []

theorem Event.messageFor_of_eq {m : MarketId} {e : Event} (h : e.market = m) :
    e.messageFor m = e.message?.toList :=
  if_pos h

theorem Event.messageFor_of_ne {m : MarketId} {e : Event} (h : e.market ≠ m) :
    e.messageFor m = [] :=
  if_neg h

/-! ### Diffs that are set aside -/

/-- Sets diffs aside if the market waits for a book. -/
def Slot.setAside (ds : List Diff) : Slot → Slot
  | .initializing p => .initializing (p.pushAll ds)
  | s => s

theorem Slot.setAside_eq_active {ds : List Diff} {s : Slot} {i : ℕ} :
    s.setAside ds = .active i ↔ s = .active i := by
  cases s <;> simp [setAside]

theorem Slot.setAside_eq_initializing {ds : List Diff} {s : Slot} {p : PendingDiffs} :
    s.setAside ds = .initializing p ↔ ∃ q, s = .initializing q ∧ p = q.pushAll ds := by
  cases s <;> simp [setAside, eq_comm]

theorem Slot.map_setAside_nil (s? : Option Slot) : s?.map (setAside []) = s? := by
  cases s? with
  | none => rfl
  | some s => cases s <;> rfl

/-! ### Acts -/

/-- **What can be done at a desk** in one step. -/
inductive DeskAct where
  /-- Nothing that concerns slots or messages. -/
  | rested
  /-- Some markets were registered because a run has begun. -/
  | started (markets : List MarketId) (capacity : ℕ)
  /-- A market was registered because it is being added. -/
  | registered (market : MarketId) (capacity : ℕ)
  | activated (market : MarketId)
  | retired (market : MarketId)
  | discarded (market : MarketId)
  /-- All markets were forgotten. -/
  | cleared
  | routed (e : Event) (outcome : RouteOutcome)
  | worked (i : ℕ) (act : WorkerAct)

namespace DeskAct

variable (m : MarketId)

/-- Whether it begins to track a market, or begins anew, with room for `c` diffs. -/
def Registers (c : ℕ) : DeskAct → Prop
  | .started ms c' => m ∈ ms ∧ c' = c
  | .registered m' c' => m' = m ∧ c' = c
  | _ => False

/-- Whether others see it. -/
def isShown : DeskAct → Bool
  | .routed _ _ | .worked _ _ => true
  | _ => false

/-- The messages that it brings for a market, whatever becomes of them. -/
def brought : DeskAct → List BookMessage
  | .routed e _ => e.messageFor m
  | _ => []

/-- Those of them that go into the queue of the worker. -/
def delivered : DeskAct → List BookMessage
  | .routed e .delivered => e.messageFor m
  | _ => []

/-- The diffs that it sets aside for a market. -/
def buffered : DeskAct → List Diff
  | .routed e (.buffered _) => diffsOf (e.messageFor m)
  | _ => []

/-- The messages that a worker takes with it. -/
def taken (i : ℕ) : DeskAct → List BookMessage
  | .worked j (.took x _) => if j = i then [x] else []
  | _ => []

/-- What it makes of the slot of a market, where there are `n` workers. -/
def slotAfter (n : ℕ) (s? : Option Slot) : DeskAct → Option Slot
  | .started ms c => if m ∈ ms then some (.initializing (.ofCapacity c)) else s?
  | .registered m' c => if m' = m then some (.initializing (.ofCapacity c)) else s?
  | .activated m' => if m' = m then some (.active n) else s?
  | .retired m' => if m' = m then some .removed else s?
  | .discarded m' => if m' = m then none else s?
  | .cleared => none
  | .routed e outcome => s?.map (.setAside (buffered m (.routed e outcome)))
  | .rested | .worked _ _ => s?

/-- The number of workers that come with it. -/
def hires : DeskAct → ℕ
  | .activated _ => 1
  | _ => 0

variable {m}

/-- Events of other markets bring nothing. -/
theorem brought_of_ne {e : Event} (hm : e.market ≠ m) (outcome : RouteOutcome) :
    (routed e outcome).brought m = [] ∧ (routed e outcome).delivered m = [] ∧
      (routed e outcome).buffered m = [] := by
  have hnone := Event.messageFor_of_ne hm
  cases outcome with
  | delivered => exact ⟨hnone, hnone, rfl⟩
  | buffered => exact ⟨hnone, rfl, congrArg diffsOf hnone⟩
  | _ => exact ⟨hnone, rfl, rfl⟩

/-- What does not show brings nothing. -/
theorem brought_of_hidden {x : DeskAct} (hx : x.isShown = false) :
    x.brought m = [] ∧ x.delivered m = [] ∧ x.buffered m = [] := by
  cases x with
  | routed e outcome => cases hx
  | _ => exact ⟨rfl, rfl, rfl⟩

theorem taken_of_hidden {x : DeskAct} (hx : x.isShown = false) (i : ℕ) : x.taken i = [] := by
  cases x with
  | worked j act => cases hx
  | _ => rfl

theorem delivered_sublist (x : DeskAct) (m : MarketId) :
    (x.delivered m).Sublist (x.brought m) := by
  cases x with
  | routed e outcome =>
    cases outcome with
    | delivered => exact .refl _
    | _ => exact List.nil_sublist _
  | _ => exact .refl _

theorem slotAfter_of_registers {c n : ℕ} {s? : Option Slot} {x : DeskAct}
    (h : x.Registers m c) : x.slotAfter m n s? = some (.initializing (.ofCapacity c)) := by
  cases x with
  | started ms c' =>
    obtain ⟨hm, rfl⟩ := h
    exact if_pos hm
  | registered m' c' =>
    obtain ⟨hm, rfl⟩ := h
    exact if_pos hm
  | _ => exact absurd h id

/-- **The ways of a slot**: an act adds the diffs that it sets aside, registers or activates
the market, or ends the service. -/
theorem slotAfter_cases (m : MarketId) (n : ℕ) (s? : Option Slot) (x : DeskAct) :
    x.slotAfter m n s? = s?.map (.setAside (x.buffered m)) ∨ (∃ c, x.Registers m c) ∨
      (x = .activated m ∧ x.slotAfter m n s? = some (.active n)) ∨
      (x = .retired m ∧ x.slotAfter m n s? = some .removed) ∨ x.slotAfter m n s? = none := by
  cases x with
  | started ms c =>
    by_cases hm : m ∈ ms
    · exact .inr (.inl ⟨c, hm, rfl⟩)
    · exact .inl ((if_neg hm).trans (Slot.map_setAside_nil s?).symm)
  | registered m' c =>
    by_cases hm : m' = m
    · exact .inr (.inl ⟨c, hm, rfl⟩)
    · exact .inl ((if_neg hm).trans (Slot.map_setAside_nil s?).symm)
  | activated m' =>
    by_cases hm : m' = m
    · exact .inr (.inr (.inl ⟨congrArg _ hm, if_pos hm⟩))
    · exact .inl ((if_neg hm).trans (Slot.map_setAside_nil s?).symm)
  | retired m' =>
    by_cases hm : m' = m
    · exact .inr (.inr (.inr (.inl ⟨congrArg _ hm, if_pos hm⟩)))
    · exact .inl ((if_neg hm).trans (Slot.map_setAside_nil s?).symm)
  | discarded m' =>
    by_cases hm : m' = m
    · exact .inr (.inr (.inr (.inr (if_pos hm))))
    · exact .inl ((if_neg hm).trans (Slot.map_setAside_nil s?).symm)
  | cleared => exact .inr (.inr (.inr (.inr rfl)))
  | routed e outcome => exact .inl rfl
  | rested => exact .inl (Slot.map_setAside_nil s?).symm
  | worked i act => exact .inl (Slot.map_setAside_nil s?).symm

/-- A market is active after an act if it was before, or if it was just activated. -/
theorem slotAfter_eq_active {n i : ℕ} {s? : Option Slot} {x : DeskAct}
    (h : x.slotAfter m n s? = some (.active i)) :
    s? = some (.active i) ∨ x = .activated m ∧ i = n := by
  rcases slotAfter_cases m n s? x with hx | ⟨c, hx⟩ | ⟨rfl, hx⟩ | ⟨-, hx⟩ | hx
  · obtain ⟨s, hs, hactive⟩ := Option.map_eq_some_iff.mp (hx.symm.trans h)
    exact .inl (hs.trans (congrArg some (Slot.setAside_eq_active.mp hactive)))
  · exact absurd ((slotAfter_of_registers hx).symm.trans h) (by simp)
  · exact .inr ⟨rfl, Slot.active.inj (Option.some.inj (h.symm.trans hx))⟩
  · exact absurd (hx.symm.trans h) (by simp)
  · exact absurd (hx.symm.trans h) (by simp)

/-- A market waits after an act that does not register it only if it waited before; then the
diffs that the act sets aside were added. -/
theorem slotAfter_eq_initializing {n : ℕ} {s? : Option Slot} {x : DeskAct} {p : PendingDiffs}
    (hx : ∀ c, ¬x.Registers m c) (h : x.slotAfter m n s? = some (.initializing p)) :
    ∃ q, s? = some (.initializing q) ∧ p = q.pushAll (x.buffered m) := by
  rcases slotAfter_cases m n s? x with hx' | ⟨c, hx'⟩ | ⟨-, hx'⟩ | ⟨-, hx'⟩ | hx'
  · obtain ⟨s, hs, hp⟩ := Option.map_eq_some_iff.mp (hx'.symm.trans h)
    obtain ⟨q, rfl, rfl⟩ := Slot.setAside_eq_initializing.mp hp
    exact ⟨q, hs, rfl⟩
  · exact absurd hx' (hx c)
  · exact absurd (hx'.symm.trans h) (by simp)
  · exact absurd (hx'.symm.trans h) (by simp)
  · exact absurd (hx'.symm.trans h) (by simp)

end DeskAct

namespace Desk

variable {d d' : Desk} {x : DeskAct} {m : MarketId} {i j : ℕ} {w w' : Worker}

/-- **What a tracker does at its desk** in one step. -/
inductive Does (d : Desk) : DeskAct → Desk → Prop where
  | rest : Does d .rested d
  | cancel (i : ℕ) : Does d .rested (d.cancel i)
  | cancelRun (r : ℕ) : Does d .rested (d.cancelRun r)
  | dismiss (i : ℕ) : Does d .rested (d.dismiss.1.cancel i)
  | refresh (asked : List (MarketId × ℕ)) (prices : Table MarketId Decimal) (now : Instant) :
      Does d .rested (d.refresh asked prices now)
  | start (ms : List MarketId) (c : ℕ) (now : Instant) :
      Does d (.started ms c)
        (ms.foldl (fun d m => d.register m c) { d with metrics := d.metrics.markStarted now })
  | register {m : MarketId} (c : ℕ) (new : d.slot? m = none) :
      Does d (.registered m c) (d.register m c)
  | activate {m : MarketId} {s : Snapshot} {run : ℕ} {isCancelled : Bool} {window : ℕ}
      {d' : Desk} (h : d.activate m s run isCancelled window = .ok d') : Does d (.activated m) d'
  | retire {m : MarketId} {j : ℕ} (active : d.slot? m = some (.active j)) :
      Does d (.retired m) (d.retire m).1
  | retireFrom {m : MarketId} {j : ℕ} (active : d.slot? m = some (.active j)) (i : ℕ) :
      Does d (.retired m) ((d.retire m).1.cancel i)
  | discard (m : MarketId) : Does d (.discarded m) (d.discard m)
  | clear : Does d .cleared d.clear
  | disband : Does d .cleared d.dismiss.1.clear
  | route (e : Event) (now : Instant) : Does d (.routed e (d.route e now).2) (d.route e now).1
  | work {i backoff clock : ℕ} {now : Instant} {d' : Desk} {act : WorkerAct}
      (h : d.work i backoff clock now = some (d', act)) : Does d (.worked i act) d'
  | quit {i : ℕ} {d' : Desk} (h : d.workerQuits i = some d') : Does d (.worked i .ended) d'

namespace Does

theorem alike (h : d.Does .rested d') : d.Alike d' := by
  cases h with
  | rest => exact .refl d
  | cancel i => exact d.alike_cancel i
  | cancelRun r => exact d.alike_cancelRun r
  | dismiss i => exact d.alike_dismiss.trans (d.dismiss.1.alike_cancel i)
  | refresh asked prices now => exact d.alike_refresh asked prices now

theorem routes {e : Event} {outcome : RouteOutcome} (h : d.Does (.routed e outcome) d') :
    d.Routes e outcome d' := by
  cases h with
  | route e now => exact routes_route e now

theorem works {act : WorkerAct} (h : d.Does (.worked i act) d') : d.Works i act d' := by
  cases h with
  | work h => exact works_work h
  | quit h => exact works_workerQuits h

/-! ### Slots -/

/-- **What an act makes of the slot of a market.** -/
theorem slot? (h : d.Does x d') (m : MarketId) :
    d'.slot? m = x.slotAfter m d.staff.length (d.slot? m) := by
  cases x with
  | rested => exact h.alike.slot? m
  | started ms c =>
    cases h with
    | start ms c now => exact slot?_registerAll _ ms c m
  | registered m' c =>
    cases h with
    | register c new => exact d.slot?_register m' m c
  | activated m' =>
    cases h with
    | activate h =>
      obtain ⟨b, p, -, -, hp, rfl⟩ := activate_eq_ok h
      exact slot?_adjust rfl hp (fun s _ => s.view_activated _) m
  | retired m' =>
    cases h with
    | retire active => exact slot?_retire active m
    | retireFrom active i =>
      exact (((d.retire m').1.alike_cancel i).slot? m).trans (slot?_retire active m)
  | discarded m' =>
    cases h with
    | discard => exact d.slot?_discard m' m
  | cleared =>
    cases h with
    | clear => rfl
    | disband => rfl
  | routed e outcome =>
    have hroutes := h.routes
    cases hroutes with
    | @buffered e p ms slot =>
      refine (slot?_setPending slot _ m).trans ?_
      by_cases hm : e.market = m
      · obtain rfl := hm
        have hmessage : (Event.diff e).messageFor e.market = [.diff e] :=
          Event.messageFor_of_eq rfl
        rw [if_pos rfl, slot, DeskAct.slotAfter, DeskAct.buffered, hmessage]
        rfl
      · rw [if_neg hm, DeskAct.slotAfter, DeskAct.buffered,
          Event.messageFor_of_ne (e := .diff e) hm]
        exact (Slot.map_setAside_nil _).symm
    | _ => exact (Slot.map_setAside_nil _).symm
  | worked i act =>
    have hworks := h.works
    cases hworks <;> rfl

end Does

/-! ### Workers -/

/-- The messages that an act brings to a worker. -/
def suppliedBy (d : Desk) (i : ℕ) : DeskAct → List BookMessage
  | .routed e .delivered =>
    if d.slot? e.market = some (.active i) then e.message?.toList else []
  | _ => []

/-- **What an act makes of a worker.** It takes messages from the head of its backlog, and
does with them what its keeper does; those that are brought to it go to the end. It does not
change its market, and does not begin again after it has ended. -/
structure Continues (d : Desk) (x : DeskAct) (i : ℕ) (w w' : Worker) : Prop where
  market : w'.market = w.market
  backlog : x.taken i ++ w'.backlog = w.backlog ++ d.suppliedBy i x
  keeper : w'.keeper.untraded = (w.keeper.processAll d.policy (x.taken i)).untraded
  ended : w.stage = .ended → w'.stage = .ended

/-- Where no message moves. -/
theorem continues_of_alike (h : w.Alike w') (ht : x.taken i = []) (hs : d.suppliedBy i x = []) :
    d.Continues x i w w' := by
  refine ⟨h.market, ?_, ?_, fun hw => h.stage.trans hw⟩
  · rw [ht, hs, h.backlog, List.nil_append, List.append_nil]
  · rw [ht, h.keeper, BookKeeper.processAll_nil]

/-- Where only one worker is changed. -/
theorem continues_setWorker {v v' : Worker} (worker : d.worker? i = some v)
    (hself : d.Continues x i v v')
    (hother : ∀ j, i ≠ j → x.taken j = [] ∧ d.suppliedBy j x = [])
    (hw : d.worker? j = some w) :
    ∃ w', (d.setWorker i v').worker? j = some w' ∧ d.Continues x j w w' := by
  by_cases hij : i = j
  · obtain rfl := hij
    obtain rfl := Option.some.inj (worker.symm.trans hw)
    exact ⟨v', worker?_setWorker_self worker, hself⟩
  · obtain ⟨ht, hs⟩ := hother j hij
    exact ⟨w, (worker?_setWorker_ne hij v').trans hw, continues_of_alike (.refl w) ht hs⟩

theorem Routes.continues {e : Event} {outcome : RouteOutcome} (h : d.Routes e outcome d')
    (hw : d.worker? j = some w) :
    ∃ w', d'.worker? j = some w' ∧ d.Continues (.routed e outcome) j w w' := by
  cases h with
  | unknown => exact ⟨w, hw, continues_of_alike (.refl w) rfl rfl⟩
  | buffered => exact ⟨w, hw, continues_of_alike (.refl w) rfl rfl⟩
  | stale => exact ⟨w, hw, continues_of_alike (.refl w) rfl rfl⟩
  | rejected => exact ⟨w, hw, continues_of_alike (.refl w) rfl rfl⟩
  | delivered ms message slot worker =>
    refine continues_setWorker worker ⟨rfl, ?_, rfl, id⟩ (fun j hij => ⟨rfl, ?_⟩) hw
    · simp [DeskAct.taken, suppliedBy, slot, message, Worker.backlog]
    · simp [suppliedBy, slot, hij]
  | traded ms now slot worker =>
    refine continues_setWorker worker ⟨rfl, ?_, rfl, id⟩ (fun j hij => ⟨rfl, ?_⟩) hw
    · simp [DeskAct.taken, suppliedBy, Event.message?, Worker.backlog]
    · simp [suppliedBy, Event.message?]

theorem Works.continues {act : WorkerAct} (h : d.Works i act d') (hw : d.worker? j = some w) :
    ∃ w', d'.worker? j = some w' ∧ d.Continues (.worked i act) j w w' := by
  cases h with
  | took ms stage worker running wanted next going =>
    have hbacklog := Worker.backlog_of_take? next
    obtain ⟨pending, queue, rfl⟩ := Worker.take?_eq next
    refine continues_setWorker worker ⟨rfl, ?_, ?_, ?_⟩ (fun j hij => ⟨if_neg hij, rfl⟩) hw
    · rw [DeskAct.taken, if_pos rfl, hbacklog]
      exact (List.append_nil _).symm
    · rw [DeskAct.taken, if_pos rfl]
      rfl
    · intro hended
      exact absurd (running.symm.trans hended) (by simp)
  | resumed worker paused =>
    refine continues_setWorker worker ⟨rfl, (List.append_nil _).symm, rfl, ?_⟩
      (fun _ _ => ⟨rfl, rfl⟩) hw
    intro hended
    exact absurd (paused.symm.trans hended) (by simp)
  | ended worker =>
    exact continues_setWorker worker ⟨rfl, (List.append_nil _).symm, rfl, fun _ => rfl⟩
      (fun _ _ => ⟨rfl, rfl⟩) hw

namespace Does

/-- **Every act continues every worker.** -/
theorem worker? (h : d.Does x d') (hw : d.worker? j = some w) :
    ∃ w', d'.worker? j = some w' ∧ d.Continues x j w w' := by
  cases x with
  | rested =>
    obtain ⟨w', hw', halike⟩ := h.alike.staff j w hw
    exact ⟨w', hw', continues_of_alike halike rfl rfl⟩
  | started ms c =>
    cases h with
    | start ms c now =>
      obtain ⟨slots, heq⟩ := registerAll_eq { d with metrics := d.metrics.markStarted now } ms c
      rw [heq]
      exact ⟨w, hw, continues_of_alike (.refl w) rfl rfl⟩
  | registered m c =>
    cases h with
    | register => exact ⟨w, hw, continues_of_alike (.refl w) rfl rfl⟩
  | activated m =>
    cases h with
    | activate h =>
      obtain ⟨b, p, -, -, -, rfl⟩ := activate_eq_ok h
      -- the new worker comes behind all others
      refine ⟨w, ?_, continues_of_alike (.refl w) rfl rfl⟩
      exact (List.getElem?_append_left (lt_length hw)).trans hw
  | retired m =>
    cases h with
    | retire => exact ⟨w, hw, continues_of_alike (.refl w) rfl rfl⟩
    | retireFrom active i =>
      obtain ⟨w', hw', halike⟩ := ((d.retire m).1.alike_cancel i).staff j w hw
      exact ⟨w', hw', continues_of_alike halike rfl rfl⟩
  | discarded m =>
    cases h with
    | discard => exact ⟨w, hw, continues_of_alike (.refl w) rfl rfl⟩
  | cleared =>
    cases h with
    | clear => exact ⟨w, hw, continues_of_alike (.refl w) rfl rfl⟩
    | disband => exact ⟨w, hw, continues_of_alike (.refl w) rfl rfl⟩
  | routed e outcome => exact h.routes.continues hw
  | worked i act => exact h.works.continues hw

/-- Only those who are there take messages. -/
theorem taken_eq_nil (h : d.Does x d') (hj : d.staff.length ≤ j) : x.taken j = [] := by
  cases x with
  | worked i act =>
    have hworks := h.works
    cases hworks with
    | took ms stage worker => exact if_neg ((lt_length worker).trans_le hj).ne
    | _ => rfl
  | _ => rfl

/-- **The worker of a market that was just activated** has the book and the diffs set aside. -/
theorem activated (h : d.Does (.activated m) d') :
    ∃ p w, d.slot? m = some (.initializing p) ∧ d'.worker? d.staff.length = some w ∧
      w.market = m ∧ w.backlog = p.toList.map .diff ∧
      ∃ b window, b.lastDiff = none ∧ w.keeper = .ofBook b window := by
  cases h with
  | activate h =>
    obtain ⟨b, p, hm, hb, hp, rfl⟩ := activate_eq_ok h
    refine ⟨p, _, hp, List.getElem?_concat_length, rfl, List.append_nil _, b, _, ?_, rfl⟩
    exact Book.lastDiff_ofSnapshot hb

/-- Only a registration gives a slot to a market without one. -/
theorem registers_of_isSome (h : d.Does x d') (hnone : d.slot? m = none)
    (hsome : (d'.slot? m).isSome) : ∃ c, x.Registers m c := by
  rw [h.slot? m, hnone] at hsome
  rcases DeskAct.slotAfter_cases m d.staff.length none x with hx | hx | ⟨rfl, -⟩ | ⟨rfl, -⟩ | hx
  · rw [hx] at hsome
    cases hsome
  · exact hx
  · obtain ⟨p, w, hp, -⟩ := h.activated
    exact absurd (hnone.symm.trans hp) (by simp)
  · cases h with
    | retire active => exact absurd (hnone.symm.trans active) (by simp)
    | retireFrom active => exact absurd (hnone.symm.trans active) (by simp)
  · rw [hx] at hsome
    cases hsome

/-- A desk has the same policy all the time, and only an activation brings somebody. -/
theorem policy_hires (h : d.Does x d') :
    d'.policy = d.policy ∧ d'.staff.length = d.staff.length + x.hires := by
  cases x with
  | rested => exact ⟨h.alike.policy, h.alike.length⟩
  | started ms c =>
    cases h with
    | start ms c now =>
      obtain ⟨slots, heq⟩ := registerAll_eq { d with metrics := d.metrics.markStarted now } ms c
      rw [heq]
      exact ⟨rfl, rfl⟩
  | registered m c =>
    cases h with
    | register => exact ⟨rfl, rfl⟩
  | activated m =>
    cases h with
    | activate h =>
      obtain ⟨b, p, -, -, -, rfl⟩ := activate_eq_ok h
      exact ⟨rfl, List.length_append⟩
  | retired m =>
    cases h with
    | retire => exact ⟨rfl, rfl⟩
    | retireFrom active i =>
      have halike := (d.retire m).1.alike_cancel i
      exact ⟨halike.policy, halike.length⟩
  | discarded m =>
    cases h with
    | discard => exact ⟨rfl, rfl⟩
  | cleared =>
    cases h with
    | clear => exact ⟨rfl, rfl⟩
    | disband => exact ⟨rfl, rfl⟩
  | routed e outcome =>
    have hroutes := h.routes
    cases hroutes with
    | delivered => exact ⟨rfl, List.length_set⟩
    | traded => exact ⟨rfl, List.length_set⟩
    | _ => exact ⟨rfl, rfl⟩
  | worked i act =>
    have hworks := h.works
    cases hworks with
    | _ => exact ⟨rfl, List.length_set⟩

/-- A desk has the same policy all the time, and nobody leaves it. -/
theorem policy_length (h : d.Does x d') :
    d'.policy = d.policy ∧ d.staff.length ≤ d'.staff.length :=
  ⟨h.policy_hires.1, h.policy_hires.2 ▸ Nat.le_add_right _ _⟩

/-- **Whoever is there after an act** was there before it, or was just set to a market. -/
theorem worker?_before (h : d.Does x d') (hw' : d'.worker? j = some w') :
    (∃ w, d.worker? j = some w ∧ d.Continues x j w w') ∨
      ∃ m, x = .activated m ∧ j = d.staff.length := by
  by_cases hj : j < d.staff.length
  · obtain ⟨w, hw⟩ : ∃ w, d.worker? j = some w := ⟨_, List.getElem?_eq_getElem hj⟩
    obtain ⟨v, hv, hcontinues⟩ := h.worker? hw
    obtain rfl := Option.some.inj (hw'.symm.trans hv)
    exact .inl ⟨w, hw, hcontinues⟩
  · have hlength := lt_length hw'
    rw [h.policy_hires.2] at hlength
    -- somebody new is there, and only an activation brings one
    cases x with
    | activated m => exact .inr ⟨m, rfl, by simp only [DeskAct.hires] at hlength; omega⟩
    | _ => exact absurd hlength hj

end Does

/-! ### Active markets have workers -/

/-- Behind the slot of an active market there is a worker of this market. -/
def Staffed (d : Desk) : Prop :=
  ∀ m i, d.slot? m = some (.active i) → ∃ w, d.worker? i = some w ∧ w.market = m

/-- **Active markets keep their workers.** -/
theorem Does.staffed (h : d.Does x d') (hd : d.Staffed) : d'.Staffed := by
  intro m i hs
  rw [h.slot? m] at hs
  rcases DeskAct.slotAfter_eq_active hs with hbefore | ⟨rfl, rfl⟩
  · obtain ⟨w, hw, hm⟩ := hd m i hbefore
    obtain ⟨w', hw', hcontinues⟩ := h.worker? hw
    exact ⟨w', hw', hcontinues.market.trans hm⟩
  · obtain ⟨p, w, -, hw, hm, -⟩ := h.activated
    exact ⟨w, hw, hm⟩

/-- What is brought to a worker is what is delivered for its market. -/
theorem Staffed.suppliedBy_eq (hd : d.Staffed) (hs : d.slot? m = some (.active i))
    (x : DeskAct) : d.suppliedBy i x = x.delivered m := by
  cases x with
  | routed e outcome =>
    cases outcome with
    | delivered =>
      by_cases hm : e.market = m
      · obtain rfl := hm
        exact (if_pos hs).trans (Event.messageFor_of_eq rfl).symm
      · -- two markets do not share a worker
        refine (if_neg fun hslot => hm ?_).trans (Event.messageFor_of_ne hm).symm
        obtain ⟨w, hw, hmarket⟩ := hd _ _ hs
        obtain ⟨w', hw', hmarket'⟩ := hd _ _ hslot
        obtain rfl := Option.some.inj (hw.symm.trans hw')
        exact hmarket'.symm.trans hmarket
    | _ => rfl
  | _ => rfl

/-! ### What becomes of the messages for a market -/

/-- **While a market waits for a book,** its diffs are set aside and nothing is delivered. -/
theorem Does.brought_waiting {p : PendingDiffs} (h : d.Does x d')
    (hs : d.slot? m = some (.initializing p)) :
    x.delivered m = [] ∧ diffsOf (x.brought m) = x.buffered m := by
  cases x with
  | routed e outcome =>
    by_cases hm : e.market = m
    · obtain rfl := hm
      have hroutes := h.routes
      cases hroutes with
      | unknown ms slot =>
        rcases slot with slot | slot
        · exact absurd (hs.symm.trans slot) (by simp)
        · exact absurd (hs.symm.trans slot) (by simp)
      | buffered => exact ⟨rfl, rfl⟩
      | stale ms slot => exact absurd (hs.symm.trans slot) (by simp)
      | rejected ms ended active =>
        -- a diff would have been set aside, and nothing else has diffs
        cases e with
        | diff e =>
          obtain ⟨i, slot⟩ := active e rfl
          exact absurd (hs.symm.trans slot) (by simp)
        | snapshot e =>
          refine ⟨rfl, ?_⟩
          rw [DeskAct.brought, Event.messageFor_of_eq rfl]
          rfl
        | trade e =>
          refine ⟨rfl, ?_⟩
          rw [DeskAct.brought, Event.messageFor_of_eq rfl]
          rfl
      | delivered ms message slot => exact absurd (hs.symm.trans slot) (by simp)
      | traded ms now slot => exact absurd (hs.symm.trans slot) (by simp)
    · obtain ⟨hbrought, hdelivered, hbuffered⟩ := DeskAct.brought_of_ne hm outcome
      exact ⟨hdelivered, by rw [hbrought, hbuffered]; rfl⟩
  | _ => exact ⟨rfl, rfl⟩

/-- **While a market is active,** nothing is set aside, and its worker gets what is brought for
it, unless that is a stale diff or the worker has ended. -/
theorem Does.brought_active (h : d.Does x d') (hs : d.slot? m = some (.active i))
    (hw : d.worker? i = some w) :
    x.buffered m = [] ∧
      (x.brought m = x.delivered m ∨ w.stage = .ended ∨
        ∃ e, x.brought m = [.diff e] ∧ x.delivered m = [] ∧
          w.keeper.book.isStale d.policy e.sequence = true) := by
  cases x with
  | routed e outcome =>
    by_cases hm : e.market = m
    · obtain rfl := hm
      have hroutes := h.routes
      cases hroutes with
      | unknown ms slot =>
        rcases slot with slot | slot
        · exact absurd (hs.symm.trans slot) (by simp)
        · exact absurd (hs.symm.trans slot) (by simp)
      | buffered ms slot => exact absurd (hs.symm.trans slot) (by simp)
      | @stale e j v ms slot worker isStale =>
        obtain rfl := Slot.active.inj (Option.some.inj (slot.symm.trans hs))
        obtain rfl := Option.some.inj (worker.symm.trans hw)
        exact ⟨rfl, .inr (.inr ⟨e, Event.messageFor_of_eq rfl, rfl, isStale⟩)⟩
      | rejected ms ended => exact ⟨rfl, .inr (.inl (ended i w hs hw))⟩
      | delivered => exact ⟨rfl, .inl rfl⟩
      | traded => exact ⟨rfl, .inl rfl⟩
    · obtain ⟨hbrought, hdelivered, hbuffered⟩ := DeskAct.brought_of_ne hm outcome
      exact ⟨hbuffered, .inl (hbrought.trans hdelivered.symm)⟩
  | _ => exact ⟨rfl, .inl rfl⟩

end Desk

end LiveBook
