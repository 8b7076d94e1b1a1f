import LiveBook.Proofs.Desk.Separation

/-!
# How one market stands at the desk

Of everything that is done at a desk, a market takes notice only of what is done for it: that it is
registered, activated, taken away from its worker or forgotten, that an event is brought for it, and
that its worker takes a step (`LiveBook.Happening`). From these alone it follows how the market
stands (`LiveBook.Desk.standing`), levels and sequence numbers included, whatever else is done at
the desk: `LiveBook.Desk.Does.standing`.
-/

namespace LiveBook

/-- **What can happen to a market** at a desk. -/
inductive Happening where
  | registered (capacity : ℕ)
  /-- It was activated, with this book. -/
  | activated (k : BookKeeper)
  /-- An event was brought for it. -/
  | brought (e : Event)
  /-- A diff was set aside for it. -/
  | setAside (d : Diff)
  /-- A message was put into the queue of its worker. -/
  | delivered (y : BookMessage)
  /-- Its worker took a message. -/
  | took
  /-- Its worker ended. -/
  | ended
  | retired
  | forgotten
deriving DecidableEq

/-! ### What happens to a market with an act -/

/-- What an act of a worker is for its market. -/
def WorkerAct.happenings : WorkerAct → List Happening
  | .took _ _ => [.took]
  | .resumed => []
  | .ended => [.ended]

namespace Desk

/-- How far a market has come or gone between two states of a desk. -/
def turns (n : MarketId) (d d' : Desk) : List Happening :=
  match d.slot? n, d'.slot? n with
  | some (.initializing _), some (.active i) =>
    (d'.worker? i).toList.map fun w => .activated w.keeper.untraded
  | some (.active _), some .removed => [.retired]
  | some _, none => [.forgotten]
  | _, _ => []

/-- What an act does for a market, whatever comes of it: an event is brought, or the worker of the
market takes a step. -/
def inputs (d : Desk) (n : MarketId) : DeskAct → List Happening
  | .routed e _ => if e.market = n then [.brought e] else []
  | .worked i act => if d.slot? n = some (.active i) then act.happenings else []
  | _ => []

end Desk

/-! ### Standings -/

/-- **How a market stands.** -/
inductive Standing where
  | untracked
  | waiting (pending : PendingDiffs)
  /-- Its worker has this book, not counting trades, and has these messages still to take. -/
  | served (keeper : BookKeeper) (backlog : List BookMessage) (hasEnded : Bool)
  | removed

namespace Standing

/-- An event is brought to a worker: a trade is not counted, a diff that is stale for the book is
dropped, and so is everything if the worker has ended. -/
def bring (policy : StalenessPolicy) (k : BookKeeper) (backlog : List BookMessage)
    (hasEnded : Bool) : Event → List BookMessage
  | .diff e =>
    if k.book.isStale policy e.sequence || hasEnded then backlog else backlog ++ [.diff e]
  | .snapshot e => if hasEnded then backlog else backlog ++ [.snapshot e]
  | .trade _ => backlog

/-- **How a market stands after something has happened to it.** -/
def after (policy : StalenessPolicy) : Standing → Happening → Standing
  | _, .registered c => .waiting (.ofCapacity c)
  | .waiting p, .activated k => .served k (p.toList.map .diff) false
  | .waiting p, .brought (.diff e) => .waiting (p.push e).1
  | .served k backlog hasEnded, .brought e =>
    .served k (bring policy k backlog hasEnded e) hasEnded
  | .served k (y :: backlog) hasEnded, .took => .served (k.process policy y).1 backlog hasEnded
  | .served k backlog _, .ended => .served k backlog true
  | _, .retired => .removed
  | _, .forgotten => .untracked
  | s, _ => s

end Standing

/-- How a market stands whose worker this is. -/
def Worker.standing (w : Worker) : Standing :=
  .served w.keeper.untraded w.backlog (w.stage = .ended)

theorem Worker.Alike.standing {w w' : Worker} (h : w.Alike w') : w'.standing = w.standing := by
  unfold Worker.standing
  rw [h.keeper, h.backlog, h.stage]

namespace Desk

variable {d d' : Desk} {x : DeskAct} {n : MarketId} {i j : ℕ} {w w' : Worker} {p : PendingDiffs}

/-- **How a market stands** at a desk. -/
def standing (d : Desk) (n : MarketId) : Standing :=
  match d.slot? n with
  | none => .untracked
  | some (.initializing p) => .waiting p
  | some (.active i) =>
    match d.worker? i with
    | some w => w.standing
    | none => .removed
  | some .removed => .removed

theorem standing_of_none (h : d.slot? n = none) : d.standing n = .untracked := by
  simp [standing, h]

theorem standing_of_waiting (h : d.slot? n = some (.initializing p)) :
    d.standing n = .waiting p := by
  simp [standing, h]

theorem standing_of_removed (h : d.slot? n = some .removed) : d.standing n = .removed := by
  simp [standing, h]

theorem standing_of_active (h : d.slot? n = some (.active i)) (hw : d.worker? i = some w) :
    d.standing n = w.standing := by
  simp [standing, h, hw]

/-- Where diffs are set aside at most. -/
theorem turns_of_setAside {ds : List Diff} (slot : d'.slot? n = (d.slot? n).map (.setAside ds)) :
    turns n d d' = [] := by
  unfold turns
  rw [slot]
  rcases d.slot? n with - | (p | i | -) <;> rfl

theorem turns_of_slot (slot : d'.slot? n = d.slot? n) : turns n d d' = [] :=
  turns_of_setAside (slot.trans (Slot.map_setAside_nil _).symm)

/-- Where neither the slot nor what is seen of its worker changes. -/
theorem standing_congr (staffed : d.Staffed) (slot : d'.slot? n = d.slot? n)
    (worker : ∀ i w, d.slot? n = some (.active i) → d.worker? i = some w → w.market = n →
      ∃ w', d'.worker? i = some w' ∧ w'.standing = w.standing) : d'.standing n = d.standing n := by
  cases hs : d.slot? n with
  | none => rw [standing_of_none hs, standing_of_none (slot.trans hs)]
  | some s =>
    cases s with
    | initializing p => rw [standing_of_waiting hs, standing_of_waiting (slot.trans hs)]
    | removed => rw [standing_of_removed hs, standing_of_removed (slot.trans hs)]
    | active i =>
      obtain ⟨w, hw, hm⟩ := staffed n i hs
      obtain ⟨w', hw', heq⟩ := worker i w hs hw hm
      rw [standing_of_active hs hw, standing_of_active (slot.trans hs) hw', heq]

theorem Untouched.standing (h : Untouched n d d') (staffed : d.Staffed) :
    d'.standing n = d.standing n :=
  standing_congr staffed h.slot fun i w _ hw hm => ⟨w, (h.worker i w hm).mpr hw, rfl⟩

/-! ### What does not show -/

/-- What does not show leaves workers as they were, but for trades and cancellations. -/
theorem Does.alike_worker (h : d.Does x d') (hidden : x.isShown = false)
    (hw : d.worker? j = some w) : ∃ w', d'.worker? j = some w' ∧ w.Alike w' := by
  cases h with
  | start ms c now =>
    obtain ⟨slots, heq⟩ := registerAll_eq { d with metrics := d.metrics.markStarted now } ms c
    rw [heq]
    exact ⟨w, hw, .refl w⟩
  | activate h =>
    obtain ⟨b, p, -, -, -, rfl⟩ := activate_eq_ok h
    exact ⟨w, (List.getElem?_append_left (lt_length hw)).trans hw, .refl w⟩
  | cancel i => exact (d.alike_cancel i).staff j w hw
  | cancelRun r => exact (d.alike_cancelRun r).staff j w hw
  | dismiss i => exact (d.dismiss.1.alike_cancel i).staff j w hw
  | refresh asked prices now => exact (d.alike_refresh asked prices now).staff j w hw
  | @retireFrom m _ active i => exact ((d.retire m).1.alike_cancel i).staff j w hw
  | route | work | quit => cases hidden
  | _ => exact ⟨w, hw, .refl w⟩

/-- What does not show and leaves the slot, leaves the standing. -/
theorem Does.standing_of_slot (h : d.Does x d') (staffed : d.Staffed) (hidden : x.isShown = false)
    (slot : d'.slot? n = d.slot? n) : d'.standing n = d.standing n := by
  refine standing_congr staffed slot fun i w _ hw _ => ?_
  obtain ⟨w', hw', halike⟩ := h.alike_worker hidden hw
  exact ⟨w', hw', halike.standing⟩

/-! ### Events and workers -/

theorem standing_setWorker (slot : d.slot? n = some (.active i)) (worker : d.worker? i = some w)
    (w' : Worker) : (d.setWorker i w').standing n = w'.standing :=
  standing_of_active slot (worker?_setWorker_self worker)

/-- A message comes to a worker, which takes no more once it has ended. -/
theorem standing_deliver (slot : d.slot? n = some (.active i)) (worker : d.worker? i = some w)
    (y : BookMessage) (stream : EventStream) (now : Instant) :
    (d.deliver i w y n stream now).1.standing n = .served w.keeper.untraded
      (if w.stage = .ended then w.backlog else w.backlog ++ [y]) (w.stage = .ended) := by
  unfold deliver
  split
  next hended =>
    refine (standing_of_active slot worker).trans ?_
    simp [Worker.standing, hended]
  next hended =>
    refine (standing_setWorker slot worker _).trans ?_
    simp [Worker.standing, Worker.backlog, hended]

theorem standing_routeDiff (staffed : d.Staffed) (e : Diff) (now : Instant) :
    (d.routeDiff e now).1.standing e.market =
      (d.standing e.market).after d.policy (.brought (.diff e)) := by
  unfold routeDiff
  split
  next hs => exact (standing_of_none hs).trans (by rw [standing_of_none hs]; rfl)
  next hs => exact (standing_of_removed hs).trans (by rw [standing_of_removed hs]; rfl)
  next p hs =>
    have hset : (d.setPending e.market (p.push e).1).standing e.market = .waiting (p.push e).1 :=
      standing_of_waiting ((slot?_setPending hs _ _).trans (if_pos rfl))
    rw [standing_of_waiting hs]
    dsimp only
    split <;> exact hset
  next i hs =>
    obtain ⟨w, hw, -⟩ := staffed e.market i hs
    rw [hw, standing_of_active hs hw]
    dsimp only
    by_cases hstale : w.keeper.book.isStale d.policy e.sequence = true
    · rw [if_pos hstale]
      refine (standing_of_active hs hw).trans ?_
      simp [Worker.standing, Standing.after, Standing.bring, BookKeeper.untraded, hstale]
    · rw [if_neg hstale, standing_deliver hs hw]
      by_cases hended : w.stage = .ended
      · simp [Worker.standing, Standing.after, Standing.bring, hended]
      · simp [Worker.standing, Standing.after, Standing.bring, BookKeeper.untraded, hstale, hended]

theorem standing_routeSnapshot (staffed : d.Staffed) (e : Snapshot) (now : Instant) :
    (d.routeSnapshot e now).1.standing e.market =
      (d.standing e.market).after d.policy (.brought (.snapshot e)) := by
  unfold routeSnapshot
  split
  next i hs =>
    obtain ⟨w, hw, -⟩ := staffed e.market i hs
    rw [hw, standing_of_active hs hw]
    dsimp only
    rw [standing_deliver hs hw]
    by_cases hended : w.stage = .ended
    · simp [Worker.standing, Standing.after, Standing.bring, hended]
    · simp [Worker.standing, Standing.after, Standing.bring, hended]
  next inactive =>
    change d.standing e.market = _
    rcases hs : d.slot? e.market with - | (p | i | -)
    · rw [standing_of_none hs]
      rfl
    · rw [standing_of_waiting hs]
      rfl
    · exact absurd hs (inactive i)
    · rw [standing_of_removed hs]
      rfl

theorem standing_routeTrade (staffed : d.Staffed) (e : Trade) (now : Instant) :
    (d.routeTrade e now).1.standing e.market =
      (d.standing e.market).after d.policy (.brought (.trade e)) := by
  have hsame : (d.standing e.market).after d.policy (.brought (.trade e)) =
      d.standing e.market := by
    cases d.standing e.market <;> rfl
  rw [hsame]
  unfold routeTrade
  split
  next i hs =>
    obtain ⟨w, hw, -⟩ := staffed e.market i hs
    rw [hw, standing_of_active hs hw]
    exact standing_setWorker hs hw _
  next => rfl

/-- **An event that is brought for a market.** -/
theorem standing_route (staffed : d.Staffed) (e : Event) (now : Instant) :
    (d.route e now).1.standing e.market =
      (d.standing e.market).after d.policy (.brought e) := by
  cases e with
  | diff e => exact standing_routeDiff staffed e now
  | snapshot e => exact standing_routeSnapshot staffed e now
  | trade e => exact standing_routeTrade staffed e now

/-- **The worker of a market takes a step.** -/
theorem Works.standing {act : WorkerAct} (h : d.Works i act d')
    (slot : d.slot? n = some (.active i)) :
    d'.standing n = act.happenings.foldl (Standing.after d.policy) (d.standing n) := by
  cases h with
  | @took w rest y ms stage worker running wanted next going =>
    have hbacklog := Worker.backlog_of_take? next
    obtain ⟨pending, queue, rfl⟩ := Worker.take?_eq next
    have hset := standing_setWorker slot worker { w with
      pending := pending, queue := queue, keeper := (w.keeper.process d.policy y).1,
      stage := stage }
    rw [standing_of_active slot worker, Worker.standing, hbacklog]
    refine hset.trans ?_
    simp [WorkerAct.happenings, Standing.after, Worker.standing, Worker.backlog,
      BookKeeper.process_untraded, running, going]
  | @resumed w due worker paused =>
    have hset := standing_setWorker slot worker { w with stage := .running }
    rw [standing_of_active slot worker]
    refine hset.trans ?_
    simp [WorkerAct.happenings, Worker.standing, Worker.backlog, paused]
  | @ended w worker going =>
    have hset := standing_setWorker slot worker { w with stage := .ended }
    rw [standing_of_active slot worker]
    refine hset.trans ?_
    simp [WorkerAct.happenings, Standing.after, Worker.standing, Worker.backlog]

/-- A worker to which the slot of the market does not lead takes a step. -/
theorem Works.standing_of_ne {act : WorkerAct} (h : d.Works i act d') (staffed : d.Staffed)
    (slot : d.slot? n ≠ some (.active i)) : d'.standing n = d.standing n := by
  have hslot : d'.slot? n = d.slot? n := by cases h <;> rfl
  refine standing_congr staffed hslot fun j w hj hw _ => ⟨w, ?_, rfl⟩
  have hij : i ≠ j := by
    rintro rfl
    exact slot hj
  cases h with
  | took | resumed | ended => exact (worker?_setWorker_ne hij _).trans hw

/-! ### Acts -/

/-- A market gets its first book, and a worker that takes first what was set aside. -/
theorem Does.standing_activated (h : d.Does (.activated n) d') :
    d'.standing n = (turns n d d').foldl (Standing.after d.policy) (d.standing n) := by
  obtain ⟨p, w, hs, hw, -, hbacklog, b, window, -, hkeeper⟩ := h.activated
  have hs' : d'.slot? n = some (.active d.staff.length) := (h.slot? n).trans (if_pos rfl)
  have hturns : turns n d d' = [.activated w.keeper.untraded] := by simp [turns, hs, hs', hw]
  have hstage : w.stage = .running := by
    cases h with
    | activate h =>
      obtain ⟨b, p, -, -, -, rfl⟩ := activate_eq_ok h
      obtain rfl := Option.some.inj (hw.symm.trans List.getElem?_concat_length)
      rfl
  rw [hturns, standing_of_waiting hs, standing_of_active hs' hw, Worker.standing, hbacklog, hstage]
  simp [Standing.after]

/-- Only an active market is taken away from its worker. -/
theorem Does.retired (h : d.Does (.retired n) d') : ∃ i, d.slot? n = some (.active i) := by
  cases h with
  | retire active => exact ⟨_, active⟩
  | retireFrom active i => exact ⟨_, active⟩

/-- What does not show leaves a market as it stands, apart from its turns. -/
theorem Does.standing_hidden (h : d.Does x d') (staffed : d.Staffed) (hidden : x.isShown = false)
    (hx : ∀ c, ¬x.Registers n c) :
    d'.standing n = (turns n d d').foldl (Standing.after d.policy) (d.standing n) := by
  have hslot := h.slot? n
  rcases DeskAct.slotAfter_cases n d.staff.length (d.slot? n) x with
    hafter | ⟨c, hc⟩ | ⟨rfl, -⟩ | ⟨rfl, hafter⟩ | hafter
  · rw [hafter, (DeskAct.brought_of_hidden hidden).2.2, Slot.map_setAside_nil] at hslot
    rw [turns_of_slot hslot]
    exact h.standing_of_slot staffed hidden hslot
  · exact absurd hc (hx c)
  · exact h.standing_activated
  · rw [hafter] at hslot
    obtain ⟨i, active⟩ := h.retired
    rw [standing_of_removed hslot, turns, hslot, active]
    rfl
  · rw [hafter] at hslot
    rw [standing_of_none hslot, turns, hslot]
    cases hs : d.slot? n with
    | none => exact (standing_of_none hs).symm
    | some s => cases s <;> rfl

/-- **How a market stands after an act** that does not register it. -/
theorem Does.standing (h : d.Does x d') (staffed : d.Staffed) (hx : ∀ c, ¬x.Registers n c) :
    d'.standing n =
      (turns n d d' ++ d.inputs n x).foldl (Standing.after d.policy) (d.standing n) := by
  cases x with
  | routed e outcome =>
    rw [turns_of_setAside (h.slot? n)]
    cases h with
    | route e now =>
      by_cases hm : e.market = n
      · obtain rfl := hm
        rw [inputs, if_pos rfl]
        exact standing_route staffed e now
      · rw [inputs, if_neg hm]
        exact (d.untouched_route staffed e hm now).standing staffed
  | worked i act =>
    rw [turns_of_slot (h.slot? n)]
    by_cases hs : d.slot? n = some (.active i)
    · rw [inputs, if_pos hs]
      exact h.works.standing hs
    · rw [inputs, if_neg hs]
      exact h.works.standing_of_ne staffed hs
  | _ => exact (List.append_nil (turns n d d')).symm ▸ h.standing_hidden staffed rfl hx

end Desk

end LiveBook
