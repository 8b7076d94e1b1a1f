import LiveBook.Connection.Config
import LiveBook.Connection.Dialect
import LiveBook.Connection.Heartbeat

/-!
# One connection for all markets

All markets of an exchange share one connection. A call to *run* it connects, subscribes
to every registered market, and then exchanges frames until the connection is lost;
then it waits and connects again. It ends when a shutdown is asked for, or when too many
attempts in a row have come to nothing.

Markets can be subscribed to while it is connected. The frames of such a request go into
a bounded queue, from which the running call writes them. What is queued when a
connection opens dates from before it, and is thrown away: the registry tells all that
is to be subscribed to.

The running call can be dropped wherever it waits. It then does nothing more, and what it
has left behind stays as it is.

* `LiveBook.Connection` – the connection, with the `LiveBook.Connection.Stage` of the
  running call;
* `LiveBook.Connection.subscribe`, `LiveBook.Connection.unsubscribe` – requests while the
  connection is up;
* `LiveBook.Connection.step` – everything that can happen to a connection.
-/

namespace LiveBook

/-- What a connection shows of itself. -/
inductive ConnectionState where
  | disconnected
  | connecting
  | connected
  | reconnecting
deriving DecidableEq, Repr, Inhabited

namespace Connection

/-- How far the call that runs a connection has come. Times are in nanoseconds. -/
inductive Stage where
  /-- There is no such call, or it was dropped. -/
  | idle
  /-- It tries to connect, after so many attempts in a row that came to nothing. -/
  | opening (failed : Nat)
  /-- It is connected and lets some time pass before it subscribes. -/
  | pausing (due : Nat)
  /-- It subscribes: frames to write, and then markets to build requests for. -/
  | restoring (frames : List String) (markets : List MarketId)
  /-- It exchanges frames, and looks at the heartbeat when nothing happens until then. -/
  | live (due : Nat)
  /-- It lets some time pass before it connects again. -/
  | waiting (failed : Nat) (due : Nat)
  /-- It has returned at some time, because of a shutdown or with an error. -/
  | ended (error? : Option SourceError) (time : Nat)
deriving DecidableEq, Repr

end Connection

/-- **A connection.** -/
structure Connection where
  config : ConnectionConfig
  state : ConnectionState
  registry : SubscriptionRegistry
  ids : RequestIds
  heartbeat : Heartbeat
  /-- How many attempts in a row have come to nothing. -/
  attempts : Nat
  /-- How many times it was connected. -/
  connections : Nat
  /-- The frames that wait to be written. -/
  outbound : List String
  /-- Whether a shutdown was asked for. -/
  stopping : Bool
  stage : Connection.Stage
  /-- The time, in nanoseconds. -/
  now : Nat

namespace Connection

/-- The nanoseconds in so many milliseconds. -/
def ofMillis (ms : Nat) : Nat := ms * 1000000

/-- How many frames can wait to be written. -/
def outboundCapacity : Nat := 256

/-- A connection that was never up, with some markets registered. -/
def ofConfig (config : ConnectionConfig) (markets : List MarketId) : Connection where
  config := config
  state := .disconnected
  registry := markets.foldl SubscriptionRegistry.add .empty
  ids := {}
  heartbeat := .start (ofMillis config.pingInterval) (ofMillis config.pongTimeout) 0
  attempts := 0
  connections := 0
  outbound := []
  stopping := false
  stage := .idle
  now := 0

/-- Whether it claims to be connected. -/
def isConnected (c : Connection) : Bool := c.state = .connected

/-! ### Requests -/

/-- Queues frames one by one; when the queue is full, those before stay in it. -/
def queueAll (c : Connection) : List String → Connection × Bool
  | [] => (c, true)
  | f :: rest =>
    if c.outbound.length < outboundCapacity then
      { c with outbound := c.outbound ++ [f] }.queueAll rest
    else (c, false)

/-- Registers a market without a request. -/
def register (c : Connection) (m : MarketId) : Connection :=
  { c with registry := c.registry.add m }

/-- Subscribes to a market, if connected. A market that was registered only now is taken
out again if the frames cannot be queued. -/
def subscribe (d : Dialect) (c : Connection) (m : MarketId) : Connection × Bool :=
  if c.isConnected then
    match d.subscribe m c.ids with
    | (ids, .error _) => ({ c with ids := ids }, false)
    | (ids, .ok frames) =>
      let isNew := !c.registry.contains m
      let (c, isQueued) := { c with ids := ids, registry := c.registry.add m }.queueAll frames
      if isQueued then (c, true)
      else if isNew then ({ c with registry := c.registry.remove m }, false)
      else (c, false)
  else (c, false)

/-- Ends the subscription to a market. The market is taken out of the registry in any
case. -/
def unsubscribe (d : Dialect) (c : Connection) (m : MarketId) : Connection × Bool :=
  let c := { c with registry := c.registry.remove m }
  if c.isConnected then
    match d.unsubscribe m c.ids with
    | (ids, .error _) => ({ c with ids := ids }, false)
    | (ids, .ok frames) => { c with ids := ids }.queueAll frames
  else (c, false)

/-! ### The running call -/

/-- The running call returns. -/
def finish (c : Connection) (error? : Option SourceError) : Connection :=
  { c with state := .disconnected, stage := .ended error? c.now }

/-- Tries to connect, unless a shutdown was asked for. -/
def attempt (c : Connection) (failed : Nat) : Connection :=
  if c.stopping then c.finish none
  else { c with state := .connecting, stage := .opening failed }

/-- An attempt is over, before which so many in a row had come to nothing: the call
waits for the next one, or gives up. -/
def retreat (c : Connection) (failed : Nat) : Connection :=
  if c.stopping then c.finish none
  else
    let failed := failed + 1
    let c := { c with attempts := failed }
    if 0 < c.config.maxAttempts ∧ c.config.maxAttempts ≤ failed then
      c.finish (some (.reconnectExhausted failed))
    else
      { c with state := .reconnecting,
               stage := .waiting failed (c.now + ofMillis (c.config.retryDelay failed)) }

/-- The connection is lost. -/
def lose (c : Connection) : Connection := { c with state := .disconnected }.retreat 0

/-- Begins to subscribe. What was queued before is thrown away. -/
def restore (c : Connection) : Connection :=
  { c with outbound := [], stage := .restoring [] c.registry.markets }

/-- The connection opens. -/
def opened (c : Connection) : Connection :=
  let c := { c with state := .connected, attempts := 0, connections := c.connections + 1,
                    heartbeat := c.heartbeat.reset c.now }
  if 0 < c.config.resubscribeDelay then
    { c with stage := .pausing (c.now + ofMillis c.config.resubscribeDelay) }
  else c.restore

/-- Goes on exchanging frames. -/
def goOn (c : Connection) : Connection :=
  { c with stage := .live (c.now + c.heartbeat.checkInterval) }

/-! ### What can happen -/

/-- A frame from the exchange. -/
inductive Inbound where
  | text (t : String)
  | ping
  /-- A frame of any other kind that means nothing but being alive. -/
  | other
  | close (code : Nat) (reason : String)
deriving DecidableEq, Repr

/-- What can happen to a connection. -/
inductive Label where
  /-- Somebody calls to run it. -/
  | call
  /-- The running call is dropped. -/
  | abandon
  | shutdown
  /-- The running call sees that a shutdown was asked for. -/
  | notice
  | register (m : MarketId)
  | subscribe (m : MarketId)
  | unsubscribe (m : MarketId)
  /-- The attempt to connect fails. -/
  | refused
  /-- The attempt to connect succeeds. -/
  | accepted
  /-- The running call does what it does next: it writes a frame, or goes on after a
  pause. -/
  | proceed
  | receive (frame : Inbound)
  /-- The running call looks at the heartbeat, for nothing has happened for a while. -/
  | check
  /-- The connection breaks, at a write or otherwise. -/
  | broken
  /-- So much time passes. -/
  | pass (time : Nat)

/-- What others see of it. -/
inductive Effect where
  | wrote (frame : String)
  | pinged
  | ponged
  | closed
  | dispatched (e : Event)
  /-- The answer to a request. -/
  | answered (accepted : Bool)

/-- Takes in a frame. -/
def receive (d : Dialect) (c : Connection) (frame : Inbound) : Connection × List Effect :=
  let c' := { c with heartbeat := c.heartbeat.message c.now }.goOn
  match frame with
  | .text t =>
    match d.parse t with
    | .ok es => (c', es.map .dispatched)
    | .error _ => (c', [])
  | .ping => (c', [.ponged])
  | .other => (c', [])
  | .close _ _ => (c.lose, [])

/-- Looks at the heartbeat. -/
def check (d : Dialect) (c : Connection) : Connection × List Effect :=
  if c.heartbeat.isTimedOut c.now then (c.lose, [])
  else if c.heartbeat.shouldPing c.now then
    let (ids, ping?) := d.ping c.ids
    ({ c with ids := ids, heartbeat := c.heartbeat.ping c.now }.goOn,
      [match ping? with
        | some f => .wrote f
        | none => .pinged])
  else (c.goOn, [])

/-- Does what the running call does next, if it can. -/
def proceed (d : Dialect) (c : Connection) : Option (Connection × List Effect) :=
  match c.stage with
  | .pausing due => if due ≤ c.now then some (c.restore, []) else none
  | .restoring (f :: frames) markets =>
    some ({ c with stage := .restoring frames markets }, [.wrote f])
  | .restoring [] (m :: markets) =>
    match d.subscribe m c.ids with
    | (ids, .ok frames) => some ({ c with ids := ids, stage := .restoring frames markets }, [])
    | (ids, .error _) => some ({ c with ids := ids }.lose, [])
  | .restoring [] [] => some (c.goOn, [])
  | .live _ =>
    match c.outbound with
    | f :: rest => some ({ c with outbound := rest }.goOn, [.wrote f])
    | [] => none
  | .waiting failed due => if due ≤ c.now then some (c.attempt failed, []) else none
  | _ => none

/-- **What happens to a connection,** where it can. -/
def step (d : Dialect) (c : Connection) : Label → Option (Connection × List Effect)
  | .call =>
    match c.stage with
    | .idle | .ended _ _ => some (c.attempt 0, [])
    | _ => none
  | .abandon =>
    match c.stage with
    | .idle | .ended _ _ => none
    | _ => some ({ c with stage := .idle }, [])
  | .shutdown => some ({ c with stopping := true }, [])
  | .notice =>
    if c.stopping then
      match c.stage with
      | .live _ => some (c.lose, [.closed])
      | .waiting _ _ => some (c.finish none, [])
      | _ => none
    else none
  | .register m => some (c.register m, [])
  | .subscribe m =>
    let (c, accepted) := c.subscribe d m
    some (c, [.answered accepted])
  | .unsubscribe m =>
    let (c, accepted) := c.unsubscribe d m
    some (c, [.answered accepted])
  | .refused =>
    match c.stage with
    | .opening failed => some (c.retreat failed, [])
    | _ => none
  | .accepted =>
    match c.stage with
    | .opening _ => some (c.opened, [])
    | _ => none
  | .proceed => c.proceed d
  | .receive frame =>
    match c.stage with
    | .live _ => some (c.receive d frame)
    | _ => none
  | .check =>
    match c.stage with
    | .live due => if due ≤ c.now then some (c.check d) else none
    | _ => none
  | .broken =>
    match c.stage with
    | .restoring _ _ | .live _ => some (c.lose, [])
    | _ => none
  | .pass time => some ({ c with now := c.now + time }, [])

end Connection

end LiveBook
