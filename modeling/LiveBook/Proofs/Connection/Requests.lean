import LiveBook.Proofs.Connection.Rules

/-!
# What a request to subscribe leaves behind

A request to subscribe takes several frames, which are queued one by one, and the queue can be full
before the last of them. The request is then refused. The market is taken out of the registry again,
if it was put there by this request, but the frames that found a place stay in the queue and are
written like all others.

* `LiveBook.Connection.requested` – the frames that a request is made of;
* `LiveBook.Connection.room` – how many frames still find a place;
* `LiveBook.Connection.subscribe_cases` – the three ways of a request;
* `LiveBook.Connection.writes_queue` – what is queued is written;
* `LiveBook.Connection.left_of_subscribe` – the registry and the queue after a request, and what is
  written because of it;
* `LiveBook.Connection.writes_of_refused` – a request that is refused and yet written.
-/

namespace LiveBook

namespace SubscriptionRegistry

/-- Taking a new market out again leaves everything as it was. -/
theorem remove_add {r : SubscriptionRegistry} {m : MarketId} (h : r.contains m = false) :
    (r.add m).remove m = r := by
  have hm : m ∉ r.markets := by simpa [contains] using h
  have hinsert : ∀ ms : List MarketId, m ∉ ms → (insertOrdered m ms).filter (· ≠ m) = ms := by
    intro ms hms
    induction ms with
    | nil => simp [insertOrdered]
    | cons x rest ih =>
      obtain ⟨hx, hrest⟩ := not_or.mp (List.mem_cons.not.mp hms)
      have hkeep : (x :: rest).filter (· ≠ m) = x :: rest :=
        List.filter_eq_self.mpr fun y hy => by
          have hne : y ≠ m := fun heq => hms (heq ▸ hy)
          simpa using hne
      unfold insertOrdered
      split
      next => rw [List.filter_cons_of_neg (by simp), hkeep]
      next => rw [List.filter_cons_of_pos (by simpa using Ne.symm hx), ih hrest]
  rw [add, if_neg (by simp [h]), remove, hinsert r.markets hm]

end SubscriptionRegistry

namespace Connection

variable {d : Dialect} {c : Connection}

/-- The frames of a request to subscribe, unless the connection is down or they cannot be built. -/
def requested (d : Dialect) (c : Connection) (m : MarketId) : Option (List String) :=
  if c.isConnected then (d.subscribe m c.ids).2.toOption else none

/-- How many frames still find a place in the queue. -/
def room (c : Connection) : ℕ := outboundCapacity - c.outbound.length

/-- Frames are queued exactly when there is room for all of them. -/
theorem queueAll_snd (c : Connection) (fs : List String) :
    (c.queueAll fs).2 = true ↔ fs.length ≤ c.room := by
  induction fs generalizing c with
  | nil => simp [queueAll]
  | cons f fs ih =>
    unfold queueAll
    split
    next hroom =>
      rw [ih]
      simp only [room, List.length_append, List.length_cons, List.length_nil]
      omega
    next hfull =>
      simp only [room, List.length_cons, Bool.false_eq_true, false_iff]
      omega

/-- **A request to subscribe** is not made, is queued in full, or is refused because the queue is
full before its last frame. -/
theorem subscribe_cases (d : Dialect) (c : Connection) (m : MarketId) :
    (c.requested d m = none ∧ (c.subscribe d m).2 = false ∧
      (c.subscribe d m).1.registry = c.registry ∧
      (c.subscribe d m).1.outbound = c.outbound) ∨
    (∃ fs, c.requested d m = some fs ∧ fs.length ≤ c.room ∧ (c.subscribe d m).2 = true ∧
      (c.subscribe d m).1.registry = c.registry.add m ∧
      (c.subscribe d m).1.outbound = c.outbound ++ fs) ∨
    ∃ fs, c.requested d m = some fs ∧ c.room < fs.length ∧ (c.subscribe d m).2 = false ∧
      (c.subscribe d m).1.registry = c.registry ∧
      (c.subscribe d m).1.outbound = c.outbound ++ fs.take c.room := by
  unfold requested subscribe
  split
  next hconnected =>
    split
    next ids e hbuilt => exact .inl ⟨by simp [hbuilt, Except.toOption], rfl, rfl, rfl⟩
    next ids fs hbuilt =>
      have hrequest : (d.subscribe m c.ids).2.toOption = some fs := by
        simp [hbuilt, Except.toOption]
      have hfst := queueAll_fst { c with ids := ids, registry := c.registry.add m } fs
      have hsnd := queueAll_snd { c with ids := ids, registry := c.registry.add m } fs
      generalize { c with ids := ids, registry := c.registry.add m }.queueAll fs = r
        at hfst hsnd ⊢
      obtain ⟨c', isQueued⟩ := r
      obtain rfl := hfst
      cases isQueued with
      | true =>
        have hroom : fs.length ≤ c.room := hsnd.mp rfl
        refine .inr (.inl ⟨fs, hrequest, hroom, rfl, rfl, ?_⟩)
        exact congrArg (c.outbound ++ ·) (List.take_of_length_le hroom)
      | false =>
        have hroom : c.room < fs.length := Nat.lt_of_not_le fun h => nomatch hsnd.mpr h
        refine .inr (.inr ⟨fs, hrequest, hroom, ?_⟩)
        cases hnew : c.registry.contains m with
        | true =>
          have hadd : c.registry.add m = c.registry := if_pos hnew
          exact ⟨rfl, hadd, rfl⟩
        | false => exact ⟨rfl, SubscriptionRegistry.remove_add hnew, rfl⟩
  next => exact .inl ⟨rfl, rfl, rfl, rfl⟩

/-- The running call writes the first frame of the queue. -/
theorem step_proceed {due : ℕ} {f : String} {rest : List String} (d : Dialect)
    (hstage : c.stage = .live due) (hqueue : c.outbound = f :: rest) :
    c.step d .proceed = some ({ c with outbound := rest }.goOn, [.wrote f]) := by
  simp only [step, proceed, hstage, hqueue]

/-- **What is queued is written,** frame by frame, if the running call exchanges frames and nothing
else happens. -/
theorem writes_queue {due : ℕ} (d : Dialect) (h : c.stage = .live due) :
    ∃ (xs : List (Moment d)) (c' : Connection), Course c xs c' ∧
      xs.flatMap Moment.effects = c.outbound.map .wrote ∧ ∀ x ∈ xs, x.label = .proceed := by
  generalize hqueue : c.outbound = fs
  induction fs generalizing c due with
  | nil => exact ⟨[], c, .nil, rfl, by simp⟩
  | cons f fs ih =>
    let x : Moment d := ⟨c, .proceed, [.wrote f], _, step_proceed d h hqueue⟩
    obtain ⟨xs, c', hcourse, heffects, hlabels⟩ := ih (c := x.after) rfl rfl
    have first : Course c [x] x.after := .snoc (x := x) .nil
    exact ⟨x :: xs, c', first.append hcourse, by simp [heffects, x],
      List.forall_mem_cons.mpr ⟨rfl, hlabels⟩⟩

/-- **What a request to subscribe comes to.** It is accepted exactly when all of its frames find a
place; then its market is registered and the frames follow each other in the queue. If it is
refused, the registry is as before, but the frames that found a place are in the queue all the same.
And what is in the queue is written. -/
theorem left_of_subscribe (d : Dialect) (c : Connection) (m : MarketId) :
    ((c.subscribe d m).2 = true ↔ ∃ fs, c.requested d m = some fs ∧ fs.length ≤ c.room) ∧
    ((c.subscribe d m).2 = true →
      m ∈ (c.subscribe d m).1.registry.markets ∧
      (c.subscribe d m).1.registry = c.registry.add m ∧
      ∃ fs, c.requested d m = some fs ∧ (c.subscribe d m).1.outbound = c.outbound ++ fs) ∧
    ((c.subscribe d m).2 = false →
      (c.subscribe d m).1.registry = c.registry ∧
      (c.subscribe d m).1.outbound =
        c.outbound ++ ((c.requested d m).getD []).take c.room) ∧
    ∀ due, c.stage = .live due → ∃ (xs : List (Moment d)) (c' : Connection),
      Course (c.subscribe d m).1 xs c' ∧
      xs.flatMap Moment.effects = (c.subscribe d m).1.outbound.map .wrote ∧
      ∀ x ∈ xs, x.label = .proceed := by
  refine ⟨?_, ?_, ?_, fun due hlive => ?_⟩
  · rcases subscribe_cases d c m with ⟨hr, ha, -⟩ | ⟨fs, hr, hroom, ha, -⟩ | ⟨fs, hr, hroom, ha, -⟩
    · simp [hr, ha]
    · simp [hr, ha, hroom]
    · simp [hr, ha, hroom]
  · intro haccepted
    rcases subscribe_cases d c m with
      ⟨-, ha, -⟩ | ⟨fs, hr, -, -, hregistry, hqueue⟩ | ⟨fs, -, -, ha, -⟩
    · exact nomatch ha.symm.trans haccepted
    · exact ⟨hregistry ▸ SubscriptionRegistry.mem_add.mpr (.inl rfl), hregistry, fs, hr, hqueue⟩
    · exact nomatch ha.symm.trans haccepted
  · intro hrefused
    rcases subscribe_cases d c m with
      ⟨hr, -, hregistry, hqueue⟩ | ⟨fs, -, -, ha, -⟩ | ⟨fs, hr, -, -, hregistry, hqueue⟩
    · exact ⟨hregistry, by simp [hqueue, hr]⟩
    · exact nomatch ha.symm.trans hrefused
    · exact ⟨hregistry, by simp [hqueue, hr]⟩
  · obtain ⟨ids, registry, queued, hsubscribe⟩ := subscribe_fst d c m
    have live : (c.subscribe d m).1.stage = .live due := by rw [hsubscribe, hlive]
    exact writes_queue d live

/-- A dialect whose requests to subscribe say the name of the market so many times. -/
def insisting (times : ℕ) : Dialect where
  subscribe := fun m ids => (ids, .ok (List.replicate times m.name))
  unsubscribe := fun _ ids => (ids, .ok [])
  ping := fun ids => (ids, none)
  parse := fun _ => .ok []

/-- The moments in which a connection opens, where requests take 257 frames. -/
def opening : List (Moment (insisting 257)) × Connection :=
  moments (insisting 257) (ofConfig {} []) [.call, .accepted, .proceed]

/-- **A request that is refused and yet written.** Its last frame does not find a place, and so the
market is not registered. But the 256 frames before are in the queue, and the running call goes on
to write them. -/
theorem writes_of_refused :
    Course (ofConfig {} []) opening.1 opening.2 ∧ opening.2.outbound = [] ∧
      (opening.2.subscribe (insisting 257) ⟨"B"⟩).2 = false ∧
      (opening.2.subscribe (insisting 257) ⟨"B"⟩).1.registry = .empty ∧
      (opening.2.subscribe (insisting 257) ⟨"B"⟩).1.outbound = List.replicate 256 "B" ∧
      ∃ c', (opening.2.subscribe (insisting 257) ⟨"B"⟩).1.step (insisting 257) .proceed =
        some (c', [.wrote "B"]) := by
  have hqueue : (opening.2.subscribe (insisting 257) ⟨"B"⟩).1.outbound =
      List.replicate 256 "B" := by decide +kernel
  have hstage : (opening.2.subscribe (insisting 257) ⟨"B"⟩).1.stage = .live (ofMillis 5000) := by
    decide +kernel
  exact ⟨course_moments _ _, by decide +kernel, by decide +kernel, by decide +kernel, hqueue,
    _, step_proceed _ hstage hqueue⟩

end Connection

end LiveBook
