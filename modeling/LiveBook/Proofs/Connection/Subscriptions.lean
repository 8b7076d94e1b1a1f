import Mathlib.Data.Set.Insert
import LiveBook.Proofs.Connection.Rules

/-!
# What an exchange takes to be subscribed to

An exchange that understands the frames of a connection adds a market for every request to
subscribe and drops one for every request to end a subscription. Nothing is left of this when the
connection is lost: on the next one it starts with no market.

Requests arrive while the connection is down, in the pause before it subscribes, and between the
frames that it writes then. Once it has subscribed, the exchange will all the same take those
markets to be subscribed to that are registered, as soon as it has read what is still queued.

* `LiveBook.Dialect.Understood` – what it means that an exchange understands a dialect;
* `LiveBook.Connection.written`, `LiveBook.Connection.queued`, `LiveBook.Connection.sent` – the
  frames written on a connection, those queued since it began to subscribe, and those taken from
  the queue and written;
* `LiveBook.Connection.Line` – what holds of the frames of a connection at every moment;
* `LiveBook.Connection.subscribed_of_live` – the subscriptions follow the registry, and nothing
  that was queued before a connection began to subscribe is written on it.
-/

namespace LiveBook

/-! ### Frames and what they mean -/

/-- What a frame asks an exchange for. -/
inductive Wish where
  | subscribe (m : MarketId)
  | unsubscribe (m : MarketId)
  | other

/-- The markets that are subscribed to after a wish. -/
def Wish.grant : Wish → Set MarketId → Set MarketId
  | .subscribe m, s => insert m s
  | .unsubscribe m, s => s \ {m}
  | .other, s => s

/-- **The markets that are subscribed to** after an exchange has read these frames. -/
def subscribedAfter (meaning : String → Wish) (s : Set MarketId) (frames : List String) :
    Set MarketId :=
  frames.foldl (fun s f => (meaning f).grant s) s

/-- **An exchange understands a dialect.** Every request can be built; read in full, a request to
subscribe adds its market and a request to end a subscription drops it; pings change nothing. -/
structure Dialect.Understood (d : Dialect) (meaning : String → Wish) : Prop where
  subscribe : ∀ m ids, ∃ fs, (d.subscribe m ids).2 = .ok fs ∧
    ∀ s, subscribedAfter meaning s fs = insert m s
  unsubscribe : ∀ m ids, ∃ fs, (d.unsubscribe m ids).2 = .ok fs ∧
    ∀ s, subscribedAfter meaning s fs = s \ {m}
  ping : ∀ ids f, (d.ping ids).2 = some f → meaning f = .other

section subscribedAfter

variable {meaning : String → Wish} {s : Set MarketId} {fs gs : List String}

theorem subscribedAfter_append :
    subscribedAfter meaning s (fs ++ gs) =
      subscribedAfter meaning (subscribedAfter meaning s fs) gs :=
  List.foldl_append

end subscribedAfter

namespace Connection

variable {d : Dialect} {c c' : Connection} {meaning : String → Wish} {m : MarketId}

/-- The markets that are registered. -/
def registered (c : Connection) : Set MarketId := {m | m ∈ c.registry.markets}

/-! ### The frames of a moment -/

namespace Moment

/-- The connection opens. -/
def opens (x : Moment d) : Bool :=
  match x.label with
  | .accepted => true
  | _ => false

/-- The running call begins to subscribe. -/
def restores (x : Moment d) : Bool := x.after.stage.IsServing ∧ ¬x.before.stage.IsServing

/-- The frames that are written. -/
def written (x : Moment d) : List String :=
  x.effects.filterMap fun
    | .wrote f => some f
    | _ => none

/-- The frames that a request puts into the queue. -/
def queued (x : Moment d) : List String :=
  match x.label with
  | .subscribe _ | .unsubscribe _ => x.after.outbound.drop x.before.outbound.length
  | _ => []

/-- The frames that leave the queue when something is written. -/
def sent (x : Moment d) : List String :=
  if x.written = [] then []
  else x.before.outbound.take (x.before.outbound.length - x.after.outbound.length)

end Moment

/-! ### The frames of a connection -/

/-- The frames written on a connection since it was opened. -/
def written (xs : List (Moment d)) : List String :=
  (xs.rtakeWhile fun x => !x.opens).flatMap Moment.written

/-- The frames of the queue that were written on a connection since it was opened. -/
def sent (xs : List (Moment d)) : List String :=
  (xs.rtakeWhile fun x => !x.opens).flatMap Moment.sent

/-- The frames that were queued since the running call last began to subscribe. -/
def queued (xs : List (Moment d)) : List String :=
  (xs.rtakeWhile fun x => !x.restores).flatMap Moment.queued

section snoc

variable (xs : List (Moment d)) {x : Moment d}

theorem flatMap_rtakeWhile_snoc (p : Moment d → Bool) (f : Moment d → List String) :
    ((xs ++ [x]).rtakeWhile p).flatMap f =
      if p x = true then (xs.rtakeWhile p).flatMap f ++ f x else [] := by
  split
  next h => rw [List.rtakeWhile_concat_pos _ _ _ h]; simp
  next h => rw [List.rtakeWhile_concat_neg _ _ _ h]; rfl

theorem written_snoc : written (xs ++ [x]) = if x.opens then [] else written xs ++ x.written := by
  rw [written, flatMap_rtakeWhile_snoc]
  cases x.opens <;> rfl

theorem sent_snoc : sent (xs ++ [x]) = if x.opens then [] else sent xs ++ x.sent := by
  rw [sent, flatMap_rtakeWhile_snoc]
  cases x.opens <;> rfl

theorem queued_snoc : queued (xs ++ [x]) = if x.restores then [] else queued xs ++ x.queued := by
  rw [queued, flatMap_rtakeWhile_snoc]
  cases x.restores <;> rfl

end snoc

/-! ### The invariant -/

/-- The frames that the running call is about to write. -/
def Stage.frames : Stage → List String
  | .restoring fs _ => fs
  | _ => []

/-- The markets that the running call has still to build requests for. -/
def Stage.toBuild : Stage → List MarketId
  | .restoring _ ms => ms
  | _ => []

/-- **The frames of a connection.** While the running call is connected, the connection says so;
before it subscribes, nothing has been written; from then on the exchange will take the registered
markets to be subscribed to, once it has read all that was written, all that the running call has
still to write for the restored markets, and the queue. What was written from the queue comes first
among what was queued since. -/
structure Line (meaning : String → Wish) (c : Connection) (written sent queued : List String) :
    Prop where
  connected : c.stage.IsOpen → c.isConnected = true
  fresh : ∀ due, c.stage = .pausing due → written = [] ∧ sent = []
  subscribed : c.stage.IsServing → c.registered =
    subscribedAfter meaning
      (subscribedAfter meaning ∅ (written ++ c.stage.frames) ∪ {m | m ∈ c.stage.toBuild})
      c.outbound
  queue : c.stage.IsServing → queued = sent ++ c.outbound
  inOrder : sent <+: queued

/-- What holds of the frames of a connection after these moments. -/
def LineAfter (meaning : String → Wish) (xs : List (Moment d)) (c : Connection) : Prop :=
  Line meaning c (written xs) (sent xs) (queued xs)

namespace Line

variable {w s q : List String}

/-- Where nobody is connected, little is to be said. -/
theorem of_not_isOpen (hc : ¬c.stage.IsOpen) (hs : s <+: q) : Line meaning c w s q where
  connected h := absurd h hc
  fresh due h := absurd (by rw [h]; trivial) hc
  subscribed h := absurd h.isOpen hc
  queue h := absurd h.isOpen hc
  inOrder := hs

/-- What matters of the state of a connection. -/
theorem congr (h : Line meaning c w s q) (hstage : c'.stage = c.stage) (hstate : c'.state = c.state)
    (hregistry : c'.registry = c.registry) (houtbound : c'.outbound = c.outbound) :
    Line meaning c' w s q where
  connected ho := by
    have := h.connected (hstage ▸ ho)
    rwa [isConnected, hstate]
  fresh due hs := h.fresh due (hstage ▸ hs)
  subscribed hs := by
    rw [registered, hregistry, hstage, houtbound]
    exact h.subscribed (hstage ▸ hs)
  queue hs := by
    rw [houtbound]
    exact h.queue (hstage ▸ hs)
  inOrder := h.inOrder

/-- A call that goes on exchanging frames. -/
theorem of_live {due : ℕ} (hstage : c'.stage = .live due) (hstate : c'.isConnected = true)
    (hsub : c'.registered = subscribedAfter meaning (subscribedAfter meaning ∅ w) c'.outbound)
    (hqueue : q = s ++ c'.outbound) : Line meaning c' w s q where
  connected _ := hstate
  fresh due h := by simp [hstage] at h
  subscribed _ := by simpa [hstage, Stage.frames, Stage.toBuild] using hsub
  queue _ := hqueue
  inOrder := ⟨c'.outbound, hqueue.symm⟩

theorem live (h : Line meaning c w s q) {due : ℕ} (hs : c.stage = .live due) :
    c.registered = subscribedAfter meaning (subscribedAfter meaning ∅ w) c.outbound := by
  have := h.subscribed (by rw [hs]; trivial)
  simpa [hs, Stage.frames, Stage.toBuild] using this

/-- A call that subscribes, or begins to. -/
theorem of_restoring {fs : List String} {ms : List MarketId} (hstage : c'.stage = .restoring fs ms)
    (hstate : c'.isConnected = true)
    (hsub : c'.registered = subscribedAfter meaning
      (subscribedAfter meaning ∅ (w ++ fs) ∪ {m | m ∈ ms}) c'.outbound)
    (hqueue : q = s ++ c'.outbound) : Line meaning c' w s q where
  connected _ := hstate
  fresh due h := by simp [hstage] at h
  subscribed _ := by simpa [hstage, Stage.frames, Stage.toBuild] using hsub
  queue _ := hqueue
  inOrder := ⟨c'.outbound, hqueue.symm⟩

theorem restoring (h : Line meaning c w s q) {fs : List String} {ms : List MarketId}
    (hs : c.stage = .restoring fs ms) :
    c.registered = subscribedAfter meaning
      (subscribedAfter meaning ∅ (w ++ fs) ∪ {m | m ∈ ms}) c.outbound := by
  have := h.subscribed (by rw [hs]; trivial)
  simpa [hs, Stage.frames, Stage.toBuild] using this

/-- **A request** whose frames mean what it does to the registry. -/
theorem request (h : Line meaning c w s q) {ids : RequestIds} {r : SubscriptionRegistry}
    {fs : List String}
    (hr : {m | m ∈ r.markets} = subscribedAfter meaning c.registered fs) :
    Line meaning { c with ids := ids, registry := r, outbound := c.outbound ++ fs } w s
      (q ++ fs) where
  connected := h.connected
  fresh := h.fresh
  subscribed hs := by
    rw [subscribedAfter_append, ← h.subscribed hs]
    exact hr
  queue hs := by rw [h.queue hs, List.append_assoc]
  inOrder := h.inOrder.trans (List.prefix_append q fs)

/-- A connection that has just opened, when the running call lets some time pass first. -/
theorem of_pausing {due : ℕ} (hstage : c'.stage = .pausing due) (hstate : c'.isConnected = true) :
    Line meaning c' [] [] q where
  connected _ := hstate
  fresh _ _ := ⟨rfl, rfl⟩
  subscribed h := by rw [hstage] at h; exact absurd h id
  queue h := by rw [hstage] at h; exact absurd h id
  inOrder := List.nil_prefix

/-- The running call begins to subscribe. -/
theorem restore (hstage : c'.stage = .restoring [] c'.registry.markets)
    (hstate : c'.isConnected = true) (houtbound : c'.outbound = []) :
    Line meaning c' [] [] [] :=
  of_restoring hstage hstate (by simp [houtbound, registered, subscribedAfter])
    (by rw [houtbound]; rfl)

end Line

/-! ### One moment -/

namespace LineAfter

variable {xs : List (Moment d)} {x : Moment d}

theorem sent_eq_nil (hw : x.written = []) : x.sent = [] := if_pos hw

theorem not_restores (h : x.after.stage.IsServing → x.before.stage.IsServing) :
    x.restores = false := by
  simpa [Moment.restores] using h

theorem restores_of (h : x.after.stage.IsServing) (h' : ¬x.before.stage.IsServing) :
    x.restores = true := by
  simp [Moment.restores, h, h']

theorem unchanged (xs : List (Moment d)) (hopens : x.opens = false)
    (hserving : x.after.stage.IsServing → x.before.stage.IsServing) (hwritten : x.written = [])
    (hqueued : x.queued = []) :
    written (xs ++ [x]) = written xs ∧ sent (xs ++ [x]) = sent xs ∧
      queued (xs ++ [x]) = queued xs := by
  rw [written_snoc, sent_snoc, queued_snoc, hopens, not_restores hserving, sent_eq_nil hwritten,
    hwritten, hqueued]
  simp

/-- A moment after which nobody is connected. -/
theorem down (h : LineAfter meaning xs x.before)
    (hdown : ¬x.after.stage.IsOpen) (hopens : x.opens = false) (hwritten : x.written = []) :
    LineAfter meaning (xs ++ [x]) x.after := by
  have hrestores : x.restores = false := not_restores fun hs => absurd hs.isOpen hdown
  refine Line.of_not_isOpen hdown ?_
  rw [sent_snoc, queued_snoc, hopens, hrestores, sent_eq_nil hwritten]
  simpa using (Line.inOrder h).trans (List.prefix_append _ _)

/-- A moment at which nothing is written or queued. -/
theorem quiet (h : LineAfter meaning xs x.before)
    (hstage : x.after.stage = x.before.stage) (hstate : x.after.state = x.before.state)
    (hregistry : x.after.registry = x.before.registry)
    (houtbound : x.after.outbound = x.before.outbound) (hopens : x.opens = false)
    (hwritten : x.written = []) (hqueued : x.queued = []) :
    LineAfter meaning (xs ++ [x]) x.after := by
  obtain ⟨hw, hs, hq⟩ := unchanged xs hopens (fun hs => hstage ▸ hs) hwritten hqueued
  rw [LineAfter, hw, hs, hq]
  exact Line.congr h hstage hstate hregistry houtbound

/-- A moment of a call that exchanges frames. -/
theorem lively (h : LineAfter meaning xs x.before) {due due' : ℕ}
    (hstage : x.before.stage = .live due) (hstage' : x.after.stage = .live due')
    (hstate : x.after.state = x.before.state) (hregistry : x.after.registry = x.before.registry)
    (hopens : x.opens = false) (hqueued : x.queued = [])
    (houtbound : x.before.outbound = x.sent ++ x.after.outbound)
    (hread : ∀ s, subscribedAfter meaning s x.written = subscribedAfter meaning s x.sent) :
    LineAfter meaning (xs ++ [x]) x.after := by
  have hserving : x.before.stage.IsServing := by rw [hstage]; trivial
  have hrestores : x.restores = false := not_restores fun _ => hserving
  rw [LineAfter, written_snoc, sent_snoc, queued_snoc, hopens, hrestores, hqueued]
  refine Line.of_live hstage' ?_ ?_ ?_
  · have := Line.connected h hserving.isOpen
    rwa [isConnected, hstate]
  · have := Line.live h hstage
    rw [houtbound, subscribedAfter_append, ← hread, ← subscribedAfter_append] at this
    simpa [registered, hregistry, subscribedAfter_append] using this
  · have := Line.queue h hserving
    simpa [houtbound] using this

/-- A moment of a call that subscribes. -/
theorem restored (h : LineAfter meaning xs x.before)
    {fs fs' : List String} {ms ms' : List MarketId} (hstage : x.before.stage = .restoring fs ms)
    (hstage' : x.after.stage = .restoring fs' ms') (hstate : x.after.state = x.before.state)
    (hregistry : x.after.registry = x.before.registry)
    (houtbound : x.after.outbound = x.before.outbound) (hopens : x.opens = false)
    (hqueued : x.queued = [])
    (hread : ∀ s, subscribedAfter meaning s fs ∪ {m | m ∈ ms} =
      subscribedAfter meaning (subscribedAfter meaning s x.written) fs' ∪ {m | m ∈ ms'}) :
    LineAfter meaning (xs ++ [x]) x.after := by
  have hserving : x.before.stage.IsServing := by rw [hstage]; trivial
  have hrestores : x.restores = false := not_restores fun _ => hserving
  have hsent : x.sent = [] := by simp [Moment.sent, houtbound]
  rw [LineAfter, written_snoc, sent_snoc, queued_snoc, hopens, hrestores, hqueued, hsent]
  refine Line.of_restoring hstage' ?_ ?_ ?_
  · have := Line.connected h hserving.isOpen
    rwa [isConnected, hstate]
  · have := Line.restoring h hstage
    rw [subscribedAfter_append, hread] at this
    simpa [registered, hregistry, houtbound, subscribedAfter_append] using this
  · have := Line.queue h hserving
    simpa [houtbound] using this

/-- A request. -/
theorem requested (h : LineAfter meaning xs x.before) {ids : RequestIds}
    {r : SubscriptionRegistry} {fs : List String}
    (hafter : x.after = { x.before with ids := ids, registry := r,
                                        outbound := x.before.outbound ++ fs })
    (hopens : x.opens = false) (hwritten : x.written = []) (hqueued : x.queued = fs)
    (hr : {m | m ∈ r.markets} = subscribedAfter meaning x.before.registered fs) :
    LineAfter meaning (xs ++ [x]) x.after := by
  have hrestores : x.restores = false := not_restores fun hs => by rwa [hafter] at hs
  rw [LineAfter, written_snoc, sent_snoc, queued_snoc, hopens, hrestores, sent_eq_nil hwritten,
    hwritten, hqueued, hafter]
  simpa using Line.request h hr

end LineAfter

/-- A request to subscribe, when there is still room in the queue afterwards. -/
theorem subscribe_of_room {ids : RequestIds} {fs : List String} (hc : c.isConnected = true)
    (hrequest : d.subscribe m c.ids = (ids, .ok fs))
    (hroom : (c.subscribe d m).1.outbound.length < outboundCapacity) :
    c.subscribe d m =
      ({ c with ids := ids, registry := c.registry.add m, outbound := c.outbound ++ fs },
        true) := by
  have hall : { c with ids := ids, registry := c.registry.add m }.queueAll fs =
      ({ c with ids := ids, registry := c.registry.add m, outbound := c.outbound ++ fs },
        true) := by
    refine queueAll_of_room ?_
    simp only [subscribe, hc, hrequest, if_true] at hroom
    generalize { c with ids := ids, registry := c.registry.add m }.queueAll fs = r at hroom ⊢
    obtain ⟨c', isQueued⟩ := r
    cases isQueued with
    | true => exact hroom
    | false => cases hnew : !c.registry.contains m <;> simpa [hnew] using hroom
  simp [subscribe, hc, hrequest, hall]

/-- A request to end a subscription, when there is still room in the queue afterwards. -/
theorem unsubscribe_of_room {ids : RequestIds} {fs : List String} (hc : c.isConnected = true)
    (hrequest : d.unsubscribe m c.ids = (ids, .ok fs))
    (hroom : (c.unsubscribe d m).1.outbound.length < outboundCapacity) :
    c.unsubscribe d m =
      ({ c with ids := ids, registry := c.registry.remove m, outbound := c.outbound ++ fs },
        true) := by
  have heq : c.unsubscribe d m =
      { c with ids := ids, registry := c.registry.remove m }.queueAll fs := by
    have hc' : { c with registry := c.registry.remove m }.isConnected = true := hc
    simp only [unsubscribe, hc', hrequest, if_true]
  rw [heq] at hroom ⊢
  exact queueAll_of_room hroom

namespace LineAfter

variable {xs : List (Moment d)} {x : Moment d}

/-- **Every moment keeps the frames in order,** if an exchange understands them, the queue is not
full, and nothing is registered apart from requests while the running call is connected. -/
theorem snoc (hd : d.Understood meaning) (h : LineAfter meaning xs x.before)
    (hregister : ∀ m, x.label = .register m → ¬x.before.stage.IsOpen)
    (hroom : x.after.outbound.length < outboundCapacity) :
    LineAfter meaning (xs ++ [x]) x.after := by
  obtain ⟨c, l, fx, c', hstep⟩ := x
  cases step_happens hstep with
  | called => exact h.down (not_isOpen_attempt c 0) rfl rfl
  | abandoned => exact h.down id rfl rfl
  | asked => exact h.quiet rfl rfl rfl rfl rfl rfl rfl
  | closed => exact h.down (not_isOpen_retreat _ 0) rfl rfl
  | woken => exact h.down id rfl rfl
  | registered m => exact h.down (hregister m rfl) rfl rfl
  | subscribed m =>
    by_cases hc : c.isConnected = true
    · obtain ⟨fs, hfs, hmeaning⟩ := hd.subscribe m c.ids
      have hrequest : d.subscribe m c.ids = ((d.subscribe m c.ids).1, .ok fs) := by rw [← hfs]
      have hafter := congrArg Prod.fst (subscribe_of_room hc hrequest hroom)
      refine h.requested hafter rfl rfl ?_ ?_
      · simp [Moment.queued, hafter]
      · rw [hmeaning]
        ext m'
        simp [SubscriptionRegistry.mem_add, registered]
    · have hafter : (c.subscribe d m).1 = c := by simp [subscribe, hc]
      refine h.quiet ?_ ?_ ?_ ?_ rfl rfl ?_ <;> simp [Moment.queued, hafter]
  | unsubscribed m =>
    by_cases hc : c.isConnected = true
    · obtain ⟨fs, hfs, hmeaning⟩ := hd.unsubscribe m c.ids
      have hrequest : d.unsubscribe m c.ids = ((d.unsubscribe m c.ids).1, .ok fs) := by rw [← hfs]
      have hafter := congrArg Prod.fst (unsubscribe_of_room hc hrequest hroom)
      refine h.requested hafter rfl rfl ?_ ?_
      · simp [Moment.queued, hafter]
      · rw [hmeaning]
        ext m'
        simp [SubscriptionRegistry.mem_remove, registered]
    · -- the market is taken out of the registry, but nobody is connected
      have hdown : ¬c.stage.IsOpen := fun ho => hc (Line.connected h ho)
      obtain ⟨ids, r, fs, hafter⟩ := unsubscribe_fst d c m
      refine h.down ?_ rfl rfl
      dsimp only
      rw [hafter]
      exact hdown
  | refused => exact h.down (not_isOpen_retreat _ _) rfl rfl
  | @opened failed stage =>
    have hbefore : ¬c.stage.IsServing := by rw [stage]; exact id
    obtain ⟨hstate, -, hregistry, -⟩ := c.opened_rest
    have hconnected : c.opened.isConnected = true := by simp [isConnected, hstate]
    rw [LineAfter, written_snoc, sent_snoc, queued_snoc]
    rcases opened_cases c with ⟨due, hs, -⟩ | ⟨hs, ho⟩
    · exact Line.of_pausing hs hconnected
    · have hserving : c.opened.stage.IsServing := by rw [hs]; trivial
      have hrestores := restores_of (x := ⟨c, .accepted, [], c.opened, hstep⟩) hserving hbefore
      rw [if_pos hrestores]
      exact Line.restore (by rw [hs, hregistry]) hconnected ho
  | @restored due stage time =>
    obtain ⟨hwritten, hsent⟩ := Line.fresh h due stage
    have hconnected : c.isConnected = true := Line.connected h (by rw [stage]; trivial)
    have hbefore : ¬c.stage.IsServing := by rw [stage]; exact id
    have hrestores := restores_of (x := ⟨c, .proceed, [], c.restore, hstep⟩) trivial hbefore
    rw [LineAfter, written_snoc, sent_snoc, queued_snoc, if_pos hrestores, hwritten, hsent]
    exact Line.restore rfl hconnected rfl
  | @restoredFrame f fs ms stage =>
    exact h.restored stage rfl rfl rfl rfl rfl rfl fun s => rfl
  | @built m ms ids fs stage request =>
    refine h.restored stage rfl rfl rfl rfl rfl rfl fun s => ?_
    obtain ⟨fs', hfs, hmeaning⟩ := hd.subscribe m c.ids
    obtain rfl : fs = fs' := by simpa [request] using hfs
    have hms : {m' | m' ∈ m :: ms} = insert m {m' | m' ∈ ms} := by ext; simp
    rw [hms, Set.union_insert, ← Set.insert_union, ← hmeaning]
    rfl
  | notBuilt => exact h.down (not_isOpen_retreat _ 0) rfl rfl
  | settled stage =>
    have hserving : c.stage.IsServing := by rw [stage]; trivial
    have hconnected : c.isConnected = true := Line.connected h hserving.isOpen
    have hsubscribed : c.registered =
        subscribedAfter meaning (subscribedAfter meaning ∅ (written xs)) c.outbound := by
      simpa using Line.restoring h stage
    have hqueue : queued xs = sent xs ++ c.outbound := Line.queue h hserving
    obtain ⟨hw, hs, hq⟩ := unchanged xs (x := ⟨c, .proceed, [], c.goOn, hstep⟩) rfl
      (fun _ => hserving) rfl rfl
    rw [LineAfter, hw, hs, hq]
    exact Line.of_live rfl hconnected hsubscribed hqueue
  | @sent due f rest stage queue =>
    have hsent : Moment.sent ⟨c, .proceed, [.wrote f], { c with outbound := rest }.goOn, hstep⟩ =
        [f] := by
      simp [Moment.sent, Moment.written, queue, goOn]
    refine h.lively stage rfl rfl rfl rfl rfl ?_ fun s => ?_
    · rw [hsent]
      exact queue
    · rw [hsent]
      rfl
  | @heard due frame fx stage silent =>
    have hwritten : Moment.written
        ⟨c, .receive frame, fx, { c with heartbeat := c.heartbeat.message c.now }.goOn, hstep⟩ =
        [] := by
      refine List.filterMap_eq_nil_iff.mpr fun e he => ?_
      cases e with
      | wrote f => exact absurd he (silent f)
      | _ => rfl
    refine h.lively stage rfl rfl rfl rfl rfl ?_ fun s => ?_
    · rw [sent_eq_nil hwritten]
      rfl
    · rw [sent_eq_nil hwritten, hwritten]
  | retried => exact h.down (not_isOpen_attempt _ _) rfl rfl
  | hungUp => exact h.down (not_isOpen_retreat _ 0) rfl rfl
  | timedOut => exact h.down (not_isOpen_retreat _ 0) rfl rfl
  | pinged stage => exact h.lively stage rfl rfl rfl rfl rfl rfl fun s => rfl
  | @pingedBy due ids f stage request =>
    have hsent : Moment.sent ⟨c, .check, [.wrote f],
        { c with ids := ids, heartbeat := c.heartbeat.ping c.now }.goOn, hstep⟩ = [] := by
      simp [Moment.sent, goOn]
    refine h.lively stage rfl rfl rfl rfl rfl ?_ fun s => ?_
    · rw [hsent]
      rfl
    · have hmeaning : meaning f = .other := hd.ping c.ids f (by rw [request])
      rw [hsent]
      simp [Moment.written, subscribedAfter, hmeaning, Wish.grant]
  | checked stage => exact h.lively stage rfl rfl rfl rfl rfl rfl fun s => rfl
  | broke => exact h.down (not_isOpen_retreat _ 0) rfl rfl
  | passed => exact h.quiet rfl rfl rfl rfl rfl rfl rfl

end LineAfter

/-! ### Runs -/

/-- A connection that nobody has called to run is idle. -/
theorem idle_of_uncalled {config : ConnectionConfig} {markets : List MarketId}
    {xs : List (Moment d)} (h : Course (ofConfig config markets) xs c)
    (huncalled : ∀ x ∈ xs, x.label ≠ .call) : c.stage = .idle := by
  induction h with
  | nil => rfl
  | @snoc xs x before ih =>
    have hidle := ih fun y hy => huncalled y (List.mem_append_left _ hy)
    have hlabel := huncalled x (by simp)
    obtain ⟨c, l, fx, c', hstep⟩ := x
    dsimp only at hidle hlabel ⊢
    cases step_happens hstep with
    | called => exact absurd rfl hlabel
    | abandoned running => simp [hidle, Stage.IsRunning] at running
    | broke serving => simp [hidle, Stage.IsServing] at serving
    | asked | registered | passed => exact hidle
    | subscribed m =>
      obtain ⟨ids, r, fs, hafter⟩ := subscribe_fst d c m
      rw [hafter]
      exact hidle
    | unsubscribed m =>
      obtain ⟨ids, r, fs, hafter⟩ := unsubscribe_fst d c m
      rw [hafter]
      exact hidle
    | closed stage | woken stage | refused stage | opened stage | restored stage
    | restoredFrame stage | built stage | notBuilt stage | settled stage | sent stage
    | retried stage | heard stage | hungUp stage | timedOut stage | pinged stage
    | pingedBy stage | checked stage => simp only [hidle, reduceCtorEq] at stage

/-- **The frames of a connection are in order after every run,** if the exchange understands them,
nothing is registered apart from requests after the first call, and the queue is never full. -/
theorem lineAfter_of_course {config : ConnectionConfig} {markets : List MarketId}
    {xs : List (Moment d)} (hd : d.Understood meaning)
    (h : Course (ofConfig config markets) xs c)
    (hregister : xs.Pairwise fun x y => x.label = .call → ∀ m, y.label ≠ .register m)
    (hroom : ∀ x ∈ xs, x.after.outbound.length < outboundCapacity) : LineAfter meaning xs c := by
  induction h with
  | nil => exact Line.of_not_isOpen id List.nil_prefix
  | @snoc xs x before ih =>
    obtain ⟨hbefore, -, hlast⟩ := List.pairwise_append.mp hregister
    have hline := ih hbefore fun y hy => hroom y (List.mem_append_left _ hy)
    refine LineAfter.snoc hd hline (fun m hm => ?_) (hroom x (by simp))
    have hidle := idle_of_uncalled before fun y hy hcall =>
      hlast y hy x (List.mem_singleton_self x) hcall m hm
    rw [hidle]
    exact id

/-- **The subscriptions of the exchange follow the registry.** However requests, losses of the
connection and new connections alternate: once the running call has subscribed, an exchange that
reads what was written on this connection and then what is still queued takes exactly those markets
to be subscribed to that are registered. On no connection a frame is written that was queued before
the running call began to subscribe: what was taken from the queue and written comes first among
what has been queued since, and what is left is still in the queue. -/
theorem subscribed_of_live {config : ConnectionConfig} {markets : List MarketId}
    {xs : List (Moment d)} (hd : d.Understood meaning)
    (h : Course (ofConfig config markets) xs c)
    (hregister : xs.Pairwise fun x y => x.label = .call → ∀ m, y.label ≠ .register m)
    (hroom : ∀ x ∈ xs, x.after.outbound.length < outboundCapacity) :
    (∀ due, c.stage = .live due →
      subscribedAfter meaning ∅ (written xs ++ c.outbound) = {m | m ∈ c.registry.markets}) ∧
    sent xs <+: queued xs ∧
    (c.stage.IsServing → queued xs = sent xs ++ c.outbound) ∧
    (∀ due, c.stage = .pausing due → written xs = []) := by
  have hline := lineAfter_of_course hd h hregister hroom
  refine ⟨fun due hs => ?_, Line.inOrder hline, Line.queue hline,
    fun due hs => (Line.fresh hline due hs).1⟩
  rw [subscribedAfter_append]
  exact (Line.live hline hs).symm

/-! ### A sample -/

/-- How an exchange reads a dialect of signs. -/
def readSign (f : String) : Wish :=
  match f.toList with
  | '+' :: name => .subscribe ⟨String.ofList name⟩
  | '-' :: name => .unsubscribe ⟨String.ofList name⟩
  | _ => .other

theorem signs_understood : signs.Understood readSign where
  subscribe m ids := ⟨_, rfl, fun s => by simp [subscribedAfter, readSign, Wish.grant]⟩
  unsubscribe m ids := ⟨_, rfl, fun s => by simp [subscribedAfter, readSign, Wish.grant]⟩
  ping ids f h := by simp [signs] at h

/-- A market is subscribed to while another is restored, which is given up afterwards; the
connection is lost before this is written. On the next one a market is subscribed to. -/
def sampleRequests : List Label :=
  [.register ⟨"A"⟩, .call, .accepted, .subscribe ⟨"B"⟩, .proceed, .proceed, .proceed, .proceed,
    .unsubscribe ⟨"A"⟩, .broken, .pass (ofMillis 1000), .proceed, .accepted, .proceed, .proceed,
    .proceed, .subscribe ⟨"C"⟩]

/-- The moments with these requests, and where they lead. -/
def sampleMoments : List (Moment signs) × Connection :=
  moments signs (ofConfig {} []) sampleRequests

theorem subscribed_of_live_sample :
    sampleMoments.2.stage = .live (ofMillis 6000) ∧ subscribedAfter readSign ∅
      (written sampleMoments.1 ++ sampleMoments.2.outbound) =
        {m | m ∈ sampleMoments.2.registry.markets} := by
  have hs : sampleMoments.2.stage = .live (ofMillis 6000) := by decide +kernel
  refine ⟨hs, (subscribed_of_live signs_understood (course_moments sampleRequests _) ?_ ?_).1 _ hs⟩
  · have hlabels : sampleRequests.Pairwise fun l l' => l = .call → ∀ m, l' ≠ .register m := by
      simp [sampleRequests]
    exact List.pairwise_map.mp (hlabels.sublist (labels_moments sampleRequests _).sublist)
  · decide +kernel

end Connection

end LiveBook
