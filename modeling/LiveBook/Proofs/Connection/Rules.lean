import Mathlib.Data.List.DropRight
import LiveBook.Connection.Basic

/-!
# The rules by which a connection goes on

Everything that can happen to a connection, as a list of rules, and runs of a connection as lists
of what has happened to it.

* `LiveBook.Connection.step_happens` – every step follows one of the rules of
  `LiveBook.Connection.Happens`;
* `LiveBook.Connection.Moment`, `LiveBook.Connection.Course` – one step, and any number of them;
* `LiveBook.Connection.attempt_cases`, `LiveBook.Connection.retreat_cases`,
  `LiveBook.Connection.opened_cases` – the ways in which an attempt begins, comes to nothing and
  succeeds.

What is said of all steps in other modules is said of each rule.
-/

namespace LiveBook.Connection

variable {d : Dialect} {c c' : Connection} {m : MarketId} {failed : ℕ}

/-! ### Stages -/

namespace Stage

/-- There is a running call. -/
def IsRunning : Stage → Prop
  | .idle | .ended _ _ => False
  | _ => True

/-- The running call has begun to subscribe, and has not lost the connection since. -/
def IsServing : Stage → Prop
  | .restoring _ _ | .live _ => True
  | _ => False

/-- The running call is connected. -/
def IsOpen : Stage → Prop
  | .pausing _ | .restoring _ _ | .live _ => True
  | _ => False

instance (s : Stage) : Decidable s.IsServing := by
  cases s <;> first | exact .isTrue trivial | exact .isFalse id

instance (s : Stage) : Decidable s.IsOpen := by
  cases s <;> first | exact .isTrue trivial | exact .isFalse id

theorem IsServing.isOpen {s : Stage} (h : s.IsServing) : s.IsOpen := by
  cases s <;> first | exact trivial | exact h

end Stage

/-! ### Attempts -/

theorem attempt_cases (c : Connection) (failed : ℕ) :
    (c.stopping = true ∧ c.attempt failed = c.finish none) ∨
    (c.stopping = false ∧
      c.attempt failed = { c with state := .connecting, stage := .opening failed }) := by
  unfold attempt
  split
  next h => exact .inl ⟨h, rfl⟩
  next h => exact .inr ⟨by simpa using h, rfl⟩

/-- **After an attempt that came to nothing** the call returns because of a shutdown, gives up, or
waits for the next attempt. -/
theorem retreat_cases (c : Connection) (failed : ℕ) :
    (c.stopping = true ∧ c.retreat failed = c.finish none) ∨
    (c.stopping = false ∧ 0 < c.config.maxAttempts ∧ c.config.maxAttempts ≤ failed + 1 ∧
      c.retreat failed =
        { c with attempts := failed + 1 }.finish (some (.reconnectExhausted (failed + 1)))) ∨
    (c.stopping = false ∧ (0 < c.config.maxAttempts → failed + 1 < c.config.maxAttempts) ∧
      c.retreat failed =
        { c with attempts := failed + 1, state := .reconnecting,
                 stage := .waiting (failed + 1)
                   (c.now + ofMillis (c.config.retryDelay (failed + 1))) }) := by
  unfold retreat
  split
  next h => exact .inl ⟨h, rfl⟩
  next h =>
    have hs : c.stopping = false := by simpa using h
    by_cases hmax : 0 < c.config.maxAttempts ∧ c.config.maxAttempts ≤ failed + 1
    · exact .inr (.inl ⟨hs, hmax.1, hmax.2, by simp only [hmax, and_self, if_true]⟩)
    · refine .inr (.inr ⟨hs, fun hpos => ?_, by simp only [hmax, if_false]⟩)
      exact Nat.lt_of_not_le fun hle => hmax ⟨hpos, hle⟩

theorem not_isOpen_attempt (c : Connection) (failed : ℕ) : ¬(c.attempt failed).stage.IsOpen := by
  rcases attempt_cases c failed with ⟨-, h⟩ | ⟨-, h⟩ <;> rw [h] <;> exact id

theorem not_isOpen_retreat (c : Connection) (failed : ℕ) : ¬(c.retreat failed).stage.IsOpen := by
  rcases retreat_cases c failed with ⟨-, h⟩ | ⟨-, -, -, h⟩ | ⟨-, -, h⟩ <;> rw [h] <;> exact id

/-- **A connection that opens** is followed by a pause, or the call begins to subscribe. -/
theorem opened_cases (c : Connection) :
    (∃ due, c.opened.stage = .pausing due ∧ c.opened.outbound = c.outbound) ∨
    (c.opened.stage = .restoring [] c.registry.markets ∧ c.opened.outbound = []) := by
  unfold opened
  dsimp only
  split
  next => exact .inl ⟨_, rfl, rfl⟩
  next => exact .inr ⟨rfl, rfl⟩

theorem config_attempt (c : Connection) (failed : ℕ) : (c.attempt failed).config = c.config := by
  rcases attempt_cases c failed with ⟨-, h⟩ | ⟨-, h⟩
  all_goals exact (congrArg Connection.config h).trans rfl

theorem config_retreat (c : Connection) (failed : ℕ) : (c.retreat failed).config = c.config := by
  rcases retreat_cases c failed with ⟨-, h⟩ | ⟨-, -, -, h⟩ | ⟨-, -, h⟩
  all_goals exact (congrArg Connection.config h).trans rfl

/-- An attempt that begins leaves the heartbeat and the clock alone. -/
theorem attempt_heartbeat (c : Connection) (failed : ℕ) :
    (c.attempt failed).heartbeat = c.heartbeat ∧ (c.attempt failed).now = c.now := by
  rcases attempt_cases c failed with ⟨-, h⟩ | ⟨-, h⟩
  all_goals exact ⟨(congrArg heartbeat h).trans rfl, (congrArg now h).trans rfl⟩

/-- So does one that came to nothing. -/
theorem retreat_heartbeat (c : Connection) (failed : ℕ) :
    (c.retreat failed).heartbeat = c.heartbeat ∧ (c.retreat failed).now = c.now := by
  rcases retreat_cases c failed with ⟨-, h⟩ | ⟨-, -, -, h⟩ | ⟨-, -, h⟩
  all_goals exact ⟨(congrArg heartbeat h).trans rfl, (congrArg now h).trans rfl⟩

/-- An open connection says that it is connected, and counts attempts anew. -/
theorem opened_rest (c : Connection) :
    c.opened.state = .connected ∧ c.opened.attempts = 0 ∧ c.opened.registry = c.registry ∧
      c.opened.config = c.config := by
  unfold opened
  dsimp only
  split <;> exact ⟨rfl, rfl, rfl, rfl⟩

/-! ### Requests -/

/-- **As many frames are queued as there is room for.** -/
theorem queueAll_fst (c : Connection) (fs : List String) :
    (c.queueAll fs).1 =
      { c with outbound := c.outbound ++ fs.take (outboundCapacity - c.outbound.length) } := by
  induction fs generalizing c with
  | nil => simp [queueAll]
  | cons f fs ih =>
    unfold queueAll
    split
    next hroom =>
      obtain ⟨k, hk⟩ := Nat.exists_eq_add_of_lt hroom
      have hleft : outboundCapacity - c.outbound.length = k + 1 := by omega
      have hrest : outboundCapacity - (c.outbound.length + 1) = k := by omega
      rw [ih]
      simp [hleft, hrest]
    next hfull =>
      have hleft : outboundCapacity - c.outbound.length = 0 := by omega
      simp [hleft]

/-- If there is still room afterwards, all frames were queued. -/
theorem queueAll_of_room {fs : List String}
    (h : (c.queueAll fs).1.outbound.length < outboundCapacity) :
    c.queueAll fs = ({ c with outbound := c.outbound ++ fs }, true) := by
  induction fs generalizing c with
  | nil => simp [queueAll]
  | cons f fs ih =>
    unfold queueAll at h ⊢
    split
    next hroom =>
      rw [if_pos hroom] at h
      rw [ih h]
      simp
    next hfull =>
      rw [if_neg hfull] at h
      exact absurd h hfull

/-- **A request to subscribe** changes nothing but the registry, the queue and the number of the
next request. -/
theorem subscribe_fst (d : Dialect) (c : Connection) (m : MarketId) :
    ∃ ids registry queued, (c.subscribe d m).1 =
      { c with ids := ids, registry := registry, outbound := c.outbound ++ queued } := by
  unfold subscribe
  split
  next =>
    split
    next ids e _ => exact ⟨ids, c.registry, [], by simp⟩
    next ids fs _ =>
      have hfst := queueAll_fst { c with ids := ids, registry := c.registry.add m } fs
      generalize { c with ids := ids, registry := c.registry.add m }.queueAll fs = r at hfst ⊢
      obtain ⟨c', isQueued⟩ := r
      obtain rfl := hfst
      dsimp only
      split
      next => exact ⟨ids, _, _, rfl⟩
      next =>
        split
        next => exact ⟨ids, _, _, rfl⟩
        next => exact ⟨ids, _, _, rfl⟩
  next => exact ⟨c.ids, c.registry, [], by simp⟩

/-- A request to end a subscription changes nothing but the registry, the queue and the number of
the next request. -/
theorem unsubscribe_fst (d : Dialect) (c : Connection) (m : MarketId) :
    ∃ ids registry queued, (c.unsubscribe d m).1 =
      { c with ids := ids, registry := registry, outbound := c.outbound ++ queued } := by
  unfold unsubscribe
  dsimp only
  split
  next =>
    split
    next ids e _ => exact ⟨ids, c.registry.remove m, [], by simp⟩
    next ids fs _ =>
      rw [queueAll_fst]
      exact ⟨ids, _, _, rfl⟩
  next => exact ⟨c.ids, c.registry.remove m, [], by simp⟩

/-! ### Rules -/

/-- **What can happen to a connection.** -/
inductive Happens (d : Dialect) (c : Connection) : Label → List Effect → Connection → Prop where
  | called (idle : ¬c.stage.IsRunning) : Happens d c .call [] (c.attempt 0)
  | abandoned (running : c.stage.IsRunning) : Happens d c .abandon [] { c with stage := .idle }
  | asked : Happens d c .shutdown [] { c with stopping := true }
  | closed {due : ℕ} (stage : c.stage = .live due) (stopping : c.stopping = true) :
      Happens d c .notice [.closed] c.lose
  | woken {failed due : ℕ} (stage : c.stage = .waiting failed due)
      (stopping : c.stopping = true) : Happens d c .notice [] (c.finish none)
  | registered (m : MarketId) : Happens d c (.register m) [] (c.register m)
  | subscribed (m : MarketId) :
      Happens d c (.subscribe m) [.answered (c.subscribe d m).2] (c.subscribe d m).1
  | unsubscribed (m : MarketId) :
      Happens d c (.unsubscribe m) [.answered (c.unsubscribe d m).2] (c.unsubscribe d m).1
  | refused {failed : ℕ} (stage : c.stage = .opening failed) :
      Happens d c .refused [] (c.retreat failed)
  | opened {failed : ℕ} (stage : c.stage = .opening failed) : Happens d c .accepted [] c.opened
  | restored {due : ℕ} (stage : c.stage = .pausing due) (time : due ≤ c.now) :
      Happens d c .proceed [] c.restore
  | restoredFrame {f : String} {fs : List String} {ms : List MarketId}
      (stage : c.stage = .restoring (f :: fs) ms) :
      Happens d c .proceed [.wrote f] { c with stage := .restoring fs ms }
  | built {m : MarketId} {ms : List MarketId} {ids : RequestIds} {fs : List String}
      (stage : c.stage = .restoring [] (m :: ms)) (request : d.subscribe m c.ids = (ids, .ok fs)) :
      Happens d c .proceed [] { c with ids := ids, stage := .restoring fs ms }
  | notBuilt {m : MarketId} {ms : List MarketId} {ids : RequestIds} {e : SourceError}
      (stage : c.stage = .restoring [] (m :: ms))
      (request : d.subscribe m c.ids = (ids, .error e)) :
      Happens d c .proceed [] { c with ids := ids }.lose
  | settled (stage : c.stage = .restoring [] []) : Happens d c .proceed [] c.goOn
  | sent {due : ℕ} {f : String} {rest : List String} (stage : c.stage = .live due)
      (queue : c.outbound = f :: rest) :
      Happens d c .proceed [.wrote f] { c with outbound := rest }.goOn
  | retried {failed due : ℕ} (stage : c.stage = .waiting failed due) (time : due ≤ c.now) :
      Happens d c .proceed [] (c.attempt failed)
  | heard {due : ℕ} {frame : Inbound} {fx : List Effect} (stage : c.stage = .live due)
      (silent : ∀ f, .wrote f ∉ fx) :
      Happens d c (.receive frame) fx { c with heartbeat := c.heartbeat.message c.now }.goOn
  | hungUp {due code : ℕ} {reason : String} (stage : c.stage = .live due) :
      Happens d c (.receive (.close code reason)) [] c.lose
  | timedOut {due : ℕ} (stage : c.stage = .live due)
      (late : c.heartbeat.isTimedOut c.now = true) : Happens d c .check [] c.lose
  | pinged {due : ℕ} {ids : RequestIds} (stage : c.stage = .live due)
      (request : d.ping c.ids = (ids, none)) :
      Happens d c .check [.pinged]
        { c with ids := ids, heartbeat := c.heartbeat.ping c.now }.goOn
  | pingedBy {due : ℕ} {ids : RequestIds} {f : String} (stage : c.stage = .live due)
      (request : d.ping c.ids = (ids, some f)) :
      Happens d c .check [.wrote f]
        { c with ids := ids, heartbeat := c.heartbeat.ping c.now }.goOn
  | checked {due : ℕ} (stage : c.stage = .live due) : Happens d c .check [] c.goOn
  | broke (serving : c.stage.IsServing) : Happens d c .broken [] c.lose
  | passed (time : ℕ) : Happens d c (.pass time) [] { c with now := c.now + time }

theorem proceed_happens {fx : List Effect} (h : c.proceed d = some (c', fx)) :
    c.Happens d .proceed fx c' := by
  unfold proceed at h
  split at h
  next due hs =>
    split at h
    next hdue => cases h; exact .restored hs hdue
    next => cases h
  next f fs ms hs => cases h; exact .restoredFrame hs
  next m ms hs =>
    split at h
    next ids fs hb => cases h; exact .built hs hb
    next ids e hb => cases h; exact .notBuilt hs hb
  next hs => cases h; exact .settled hs
  next due hs =>
    split at h
    next f rest hq => cases h; exact .sent hs hq
    next => cases h
  next failed due hs =>
    split at h
    next hdue => cases h; exact .retried hs hdue
    next => cases h
  next => cases h

theorem receive_happens {due : ℕ} (hs : c.stage = .live due) (frame : Inbound) :
    c.Happens d (.receive frame) (c.receive d frame).2 (c.receive d frame).1 := by
  cases frame with
  | text t =>
    unfold receive
    simp only
    split
    next es _ => exact .heard hs fun f => by simp
    next => exact .heard hs fun f => by simp
  | ping => exact .heard hs fun f => by simp [receive]
  | other => exact .heard hs fun f => by simp [receive]
  | close code reason => exact .hungUp hs

theorem check_happens {due : ℕ} (hs : c.stage = .live due) :
    c.Happens d .check (c.check d).2 (c.check d).1 := by
  unfold check
  split
  next hlate => exact .timedOut hs hlate
  next =>
    split
    next =>
      rcases hp : d.ping c.ids with ⟨ids, _ | f⟩
      · exact .pinged hs hp
      · exact .pingedBy hs hp
    next => exact .checked hs

/-- **Every step follows one of the rules.** -/
theorem step_happens {l : Label} {fx : List Effect} (h : c.step d l = some (c', fx)) :
    c.Happens d l fx c' := by
  cases l with
  | call =>
    simp only [step] at h
    split at h
    next hs => cases h; exact .called (by rw [hs]; exact id)
    next hs => cases h; exact .called (by rw [hs]; exact id)
    next => cases h
  | abandon =>
    simp only [step] at h
    split at h
    next => cases h
    next => cases h
    next hidle hended =>
      cases h
      refine .abandoned ?_
      cases hs : c.stage with
      | idle => exact absurd hs hidle
      | ended e time => exact absurd hs (hended e time)
      | _ => trivial
  | shutdown => cases h; exact .asked
  | notice =>
    simp only [step] at h
    split at h
    next hstop =>
      split at h
      next hs => cases h; exact .closed hs hstop
      next hs => cases h; exact .woken hs hstop
      next => cases h
    next => cases h
  | register m => cases h; exact .registered m
  | subscribe m =>
    obtain ⟨rfl, rfl⟩ := Prod.mk.inj (Option.some.inj h)
    exact .subscribed m
  | unsubscribe m =>
    obtain ⟨rfl, rfl⟩ := Prod.mk.inj (Option.some.inj h)
    exact .unsubscribed m
  | refused =>
    simp only [step] at h
    split at h
    next hs => cases h; exact .refused hs
    next => cases h
  | accepted =>
    simp only [step] at h
    split at h
    next hs => cases h; exact .opened hs
    next => cases h
  | proceed => exact proceed_happens h
  | receive frame =>
    simp only [step] at h
    split at h
    next hs =>
      obtain ⟨rfl, rfl⟩ := Prod.ext_iff.mp (Option.some.inj h)
      exact receive_happens hs frame
    next => cases h
  | check =>
    simp only [step] at h
    split at h
    next hs =>
      split at h
      next =>
        obtain ⟨rfl, rfl⟩ := Prod.ext_iff.mp (Option.some.inj h)
        exact check_happens hs
      next => cases h
    next => cases h
  | broken =>
    simp only [step] at h
    split at h
    next hs => cases h; exact .broke (by rw [hs]; trivial)
    next hs => cases h; exact .broke (by rw [hs]; trivial)
    next => cases h
  | pass time => cases h; exact .passed time

/-! ### Runs -/

/-- **A moment of a connection**: one step. -/
structure Moment (d : Dialect) where
  before : Connection
  label : Label
  effects : List Effect
  after : Connection
  step : before.step d label = some (after, effects)

theorem Moment.happens (x : Moment d) : x.before.Happens d x.label x.effects x.after :=
  step_happens x.step

/-- **Any moments,** one after the other. -/
inductive Course (c : Connection) : List (Moment d) → Connection → Prop where
  | nil : Course c [] c
  | snoc {xs : List (Moment d)} {x : Moment d} (before : Course c xs x.before) :
      Course c (xs ++ [x]) x.after

/-- The moments with these labels, as far as they are possible, and where they lead. -/
def moments (d : Dialect) (c : Connection) : List Label → List (Moment d) × Connection
  | [] => ([], c)
  | l :: ls =>
    match h : c.step d l with
    | some (c', fx) => (⟨c, l, fx, c', h⟩ :: (moments d c' ls).1, (moments d c' ls).2)
    | none => ([], c)

theorem Course.append {c₀ : Connection} {xs ys : List (Moment d)} (h : Course c₀ xs c)
    (h' : Course c ys c') : Course c₀ (xs ++ ys) c' := by
  induction h' with
  | nil => rwa [List.append_nil]
  | snoc _ ih =>
    rw [← List.append_assoc]
    exact .snoc ih

theorem course_moments (ls : List Label) :
    ∀ c : Connection, Course c (moments d c ls).1 (moments d c ls).2 := by
  induction ls with
  | nil => exact fun c => .nil
  | cons l ls ih =>
    intro c
    unfold moments
    split
    next c' fx h =>
      have first : Course c [⟨c, l, fx, c', h⟩] c' := .snoc (x := ⟨c, l, fx, c', h⟩) .nil
      exact first.append (ih c')
    next => exact .nil

/-- The configuration never changes. -/
theorem Happens.config {l : Label} {fx : List Effect} (h : c.Happens d l fx c') :
    c'.config = c.config := by
  cases h with
  | called | retried => exact config_attempt c _
  | refused => exact config_retreat c _
  | closed | notBuilt | hungUp | timedOut | broke => exact config_retreat _ 0
  | opened => exact c.opened_rest.2.2.2
  | subscribed m =>
    obtain ⟨ids, r, fs, h⟩ := subscribe_fst d c m
    rw [h]
  | unsubscribed m =>
    obtain ⟨ids, r, fs, h⟩ := unsubscribe_fst d c m
    rw [h]
  | _ => rfl

theorem config_of_course {c₀ : Connection} {xs : List (Moment d)} (h : Course c₀ xs c) :
    c.config = c₀.config := by
  induction h with
  | nil => rfl
  | @snoc xs x _ ih => exact x.happens.config.trans ih

/-- The moments have the labels that they were asked for. -/
theorem labels_moments (ls : List Label) :
    ∀ c : Connection, (moments d c ls).1.map Moment.label <+: ls := by
  induction ls with
  | nil => exact fun c => List.nil_prefix
  | cons l ls ih =>
    intro c
    unfold moments
    split
    next c' fx h =>
      rw [List.map_cons, List.cons_prefix_cons]
      exact ⟨rfl, ih c'⟩
    next => exact List.nil_prefix

/-- A dialect whose requests are a sign and the name of a market. -/
def signs : Dialect where
  subscribe m ids := (ids, .ok ["+" ++ m.name])
  unsubscribe m ids := (ids, .ok ["-" ++ m.name])
  ping ids := (ids, none)
  parse _ := .ok []

end LiveBook.Connection
