import LiveBook.Proofs.Replay.Steps

/-!
# The way of an event from the feed to the desk

The events of a feed wait for their turn; then they wait in the buffer of their stream until they
are handed on, and then in the inbox of this stream until they are routed. The three streams
overtake each other, but in each of them nothing is lost or changes its place: what was routed, what
is in the inbox, what is in the buffer, and what is still to come are the feed
(`LiveBook.Flows.order`), as far as a market is concerned that is subscribed to all the time.

* `LiveBook.Flows` – how far the events of a market have come;
* `LiveBook.Flows.moves` – whatever happens keeps it so;
* `LiveBook.Flows.diffs_prefix`, `LiveBook.Flows.messages_of_rest` – the messages that were brought
  to the desk, at any time and once nothing is on its way.
-/

namespace LiveBook

variable {m : MarketId} {st st' : EventStream} {e : Event} {es es' : List Event}

/-! ### The events of a market in a stream -/

namespace Event

/-- The events of a market in a stream. -/
def within (m : MarketId) (st : EventStream) (es : List Event) : List Event :=
  es.filter fun e => e.market = m ∧ e.stream = st

@[simp] theorem within_nil : within m st [] = [] := rfl

@[simp] theorem within_append : within m st (es ++ es') = within m st es ++ within m st es' :=
  List.filter_append es es'

theorem within_cons (e : Event) (es : List Event) :
    within m st (e :: es) = within m st [e] ++ within m st es :=
  @within_append m st [e] es

theorem within_of_stream (h : e.stream ≠ st) : within m st [e] = [] := by
  simp [within, h]

theorem within_of_market (h : e.market ≠ m) : within m st [e] = [] := by
  simp [within, h]

/-- The messages that events bring for a market. -/
def messagesFor (m : MarketId) (es : List Event) : List BookMessage := es.flatMap (messageFor m)

theorem messagesFor_eq (m : MarketId) (es : List Event) : messagesFor m es =
    (es.filter fun e => e.market = m).flatMap fun e => e.message?.toList := by
  induction es with
  | nil => rfl
  | cons e es ih =>
    rw [messagesFor, List.flatMap_cons, ← messagesFor, ih]
    by_cases hm : e.market = m
    · rw [List.filter_cons_of_pos (by simpa using hm), List.flatMap_cons, messageFor_of_eq hm]
    · rw [List.filter_cons_of_neg (by simpa using hm), messageFor_of_ne hm, List.nil_append]

/-- Messages of a kind that comes in one stream only. -/
theorem filterMap_messagesFor {β : Type} {g : BookMessage → Option β}
    (hg : ∀ e : Event, e.stream ≠ st → e.message?.bind g = none) (m : MarketId) (es : List Event) :
    (messagesFor m es).filterMap g = (within m st es).filterMap fun e => e.message?.bind g := by
  induction es with
  | nil => rfl
  | cons e es ih =>
    rw [messagesFor, List.flatMap_cons, List.filterMap_append, ← messagesFor, ih, within_cons,
      List.filterMap_append]
    congr 1
    by_cases hm : e.market = m
    · rw [messageFor_of_eq hm]
      have hsome : e.message?.toList.filterMap g = (e.message?.bind g).toList := by
        cases hx : e.message? with
        | none => rfl
        | some x => cases hgx : g x <;> simp [hgx]
      by_cases hst : e.stream = st
      · have hin : within m st [e] = [e] := by simp [within, hm, hst]
        rw [hin, hsome]
        cases hx : e.message?.bind g <;> simp [hx]
      · rw [within_of_stream hst, hsome, hg e hst]
        rfl
    · rw [messageFor_of_ne hm, within_of_market hm]
      rfl

/-- The diffs come in the stream of diffs. -/
theorem diffsOf_messagesFor (m : MarketId) (es : List Event) : diffsOf (messagesFor m es) =
    (within m .diff es).filterMap fun e => e.message?.bind BookMessage.diff? := by
  refine filterMap_messagesFor (fun e he => ?_) m es
  cases e with
  | diff d => exact absurd rfl he
  | _ => rfl

/-- The snapshots come in the stream of snapshots. -/
theorem snapshotsOf_messagesFor (m : MarketId) (es : List Event) : snapshotsOf (messagesFor m es) =
    (within m .snapshot es).filterMap fun e => e.message?.bind BookMessage.snapshot? := by
  refine filterMap_messagesFor (fun e he => ?_) m es
  cases e with
  | snapshot s => exact absurd rfl he
  | _ => rfl

end Event

/-- The event that was routed. -/
def TrackerEffect.event? : TrackerEffect → Option Event
  | .routed _ e _ => some e
  | _ => none

theorem TrackerEffect.event?_of_act? {x : TrackerEffect} (h : x.act? = none) : x.event? = none := by
  cases x with
  | routed => cases h
  | _ => rfl

/-- Nothing was routed. -/
theorem append_unrouted {fx : List TrackerEffect} (h : ∀ x ∈ fx, x.event? = none) :
    es ++ fx.filterMap TrackerEffect.event? = es := by
  rw [List.filterMap_eq_nil_iff.mpr h, List.append_nil]

theorem append_quiet {fx : List TrackerEffect} (h : ∀ x ∈ fx, x.IsQuiet) :
    es ++ fx.filterMap TrackerEffect.event? = es :=
  append_unrouted fun x hx => TrackerEffect.event?_of_act? (h x hx).1

/-! ### The turn of an event -/

/-- **The turn of an event** makes it wait in its stream, if its market is subscribed to. After the
last event the replay is finished. -/
theorem Replay.flow_cases {φ : Type} [DecidableEq φ] {p p' : Replay φ} {clock : ℕ}
    (h : p.turn clock = some p') :
    p'.feed = p.feed ∧ p'.subscriptions = p.subscriptions ∧
      ((p.upcoming = [] ∧ p'.upcoming = [] ∧ p'.fanout = p.fanout) ∨
        ∃ e rest, p.upcoming = e :: rest ∧ p'.upcoming = rest ∧ p'.player ≠ .finished ∧
          p'.fanout =
            if p.subscriptions.contains e.market then p.fanout.dispatch e else p.fanout) := by
  obtain ⟨-, ⟨hnone, rfl⟩ | ⟨e, rest, hnext, rfl⟩⟩ := turn_cases h
  · exact ⟨rfl, rfl, .inl ⟨hnone, hnone, rfl⟩⟩
  · exact ⟨by simp, by simp, .inr ⟨e, rest, hnext, rfl, nofun, by simp⟩⟩

/-! ### The flow -/

/-- **How far the events of a market have come**, where `es` were routed. -/
structure Flows (feed : Feed) (m : MarketId) (s : ReplaySource) (run : Run) (es : List Event) :
    Prop where
  plays : s.replay.feed = feed
  queried : s.Queried
  subscribed : s.replay.subscriptions.contains m = true
  waits : ∀ st, ∀ e ∈ (s.replay.fanout.relays.get st).buffered, e.stream = st
  arrived : ∀ st, ∀ e ∈ run.inbox.get st, e.stream = st
  order : ∀ st, Event.within m st es ++ (Event.within m st (run.inbox.get st) ++
    (Event.within m st (s.replay.fanout.relays.get st).buffered ++
      Event.within m st s.replay.upcoming)) = Event.within m st feed.events
  finished : s.replay.player = .finished → s.replay.upcoming = []

namespace Flows

variable {feed : Feed} {s s' : ReplaySource} {run run' : Run} {t t' : Tracker}
  {fx : List TrackerEffect} {l : Tracker.Label}

/-- The replay stands where it stood, and nothing is routed. -/
theorem alike (h : Flows feed m s run es) (ha : s.Alike s') (inbox : run'.inbox = run.inbox) :
    Flows feed m s' run' es where
  plays := ha.feed.trans h.plays
  queried := ha.queried h.queried
  subscribed := by rw [ha.subscriptions, h.subscribed]
  waits st := by
    rw [ha.buffered]
    exact h.waits st
  arrived st := by
    rw [inbox]
    exact h.arrived st
  order st := by
    rw [inbox, ha.buffered, ha.upcoming]
    exact h.order st
  finished hf := ha.upcoming.trans (h.finished (ha.finished.mp hf))

/-- The first event in an inbox is routed. -/
theorem routes (h : Flows feed m s run es) {rest : List Event}
    (next : run.inbox.get st = e :: rest) :
    Flows feed m s { run with inbox := run.inbox.update st fun _ => rest } (es ++ [e]) := by
  have harrived := h.arrived st
  rw [next, List.forall_mem_cons] at harrived
  refine ⟨h.plays, h.queried, h.subscribed, h.waits, fun st' => ?_, fun st' => ?_, h.finished⟩
  · rw [PerStream.get_update]
    split
    next hst => exact hst ▸ harrived.2
    next => exact h.arrived st'
  · rw [PerStream.get_update, Event.within_append]
    split
    next hst =>
      subst hst
      rw [← h.order, next, Event.within_cons e rest, List.append_assoc, List.append_assoc]
    next hst => rw [Event.within_of_stream (harrived.1 ▸ hst), List.append_nil, h.order]

/-- The first event that waits in a stream is handed on. -/
theorem delivers (h : Flows feed m s run es) {rest : List Event}
    (next : (s.replay.fanout.relays.get st).buffered = e :: rest) :
    Flows feed m (s.handedOn st rest)
      { run with inbox := run.inbox.update e.stream fun es => es ++ [e] } es := by
  have hwaits := h.waits st
  rw [next, List.forall_mem_cons] at hwaits
  obtain ⟨rfl, hrest⟩ := hwaits
  have hbuffered : ∀ st', ((s.handedOn e.stream rest).replay.fanout.relays.get st').buffered =
      if e.stream = st' then rest else (s.replay.fanout.relays.get st').buffered := by
    intro st'
    rw [ReplaySource.handedOn, ReplaySource.setReplay, PerStream.get_update]
    split <;> rfl
  refine ⟨h.plays, h.queried, h.subscribed, fun st' => ?_, fun st' => ?_, fun st' => ?_, h.finished⟩
  · rw [hbuffered]
    split
    next hst => exact hst ▸ hrest
    next => exact h.waits st'
  · rw [PerStream.get_update]
    split
    next hst =>
      rw [List.forall_mem_append]
      exact ⟨h.arrived st', by simpa using hst⟩
    next => exact h.arrived st'
  · rw [hbuffered, PerStream.get_update]
    split
    next hst =>
      subst hst
      rw [← h.order, next, Event.within_cons e rest, Event.within_append, List.append_assoc,
        List.append_assoc]
      rfl
    next => exact h.order st'

/-- It is the turn of an event, or the end of the feed. -/
theorem turns (h : Flows feed m s run es) {replay : Replay (ℕ × EventStream)} {clock : ℕ}
    (hturn : s.replay.turn clock = some replay) : Flows feed m (s.setReplay replay) run es := by
  obtain ⟨hfeed, hsubscriptions, hcases⟩ := Replay.flow_cases hturn
  refine ⟨hfeed.trans h.plays, h.queried, ?_, fun st => ?_, h.arrived, fun st => ?_, fun hf => ?_⟩
  · rw [ReplaySource.setReplay, hsubscriptions, h.subscribed]
  · rcases hcases with ⟨-, -, hfanout⟩ | ⟨e, rest, -, -, -, hfanout⟩
    · rw [ReplaySource.setReplay, hfanout]
      exact h.waits st
    · rw [ReplaySource.setReplay, hfanout]
      split
      · rw [Fanout.buffered_dispatch, List.forall_mem_append]
        refine ⟨h.waits st, ?_⟩
        split
        next hst => simpa using hst
        next => simp
      · exact h.waits st
  · rw [← h.order]
    rcases hcases with ⟨hnone, hnone', hfanout⟩ | ⟨e, rest, hupcoming, hrest, -, hfanout⟩
    · rw [ReplaySource.setReplay, hfanout, hnone, hnone']
    · rw [ReplaySource.setReplay, hfanout, hupcoming, hrest, Event.within_cons e rest,
        ← List.append_assoc _ (Event.within m st [e])]
      congr 3
      split
      · rw [Fanout.buffered_dispatch, Event.within_append]
        split
        · rfl
        next hst => rw [Event.within_of_stream hst, Event.within_nil]
      next hout =>
        -- events of markets without a subscription are skipped
        have hm : e.market ≠ m := fun hm => hout (hm ▸ h.subscribed)
        rw [Event.within_of_market hm, List.append_nil]
  · rcases hcases with ⟨-, hnone, -⟩ | ⟨e, rest, -, -, hplays, -⟩
    · exact hnone
    · exact absurd hf hplays

/-- **Whatever happens**, the events are as far as this, with those that were routed meanwhile. -/
theorem moves (h : Flows feed m s run es) (hm : t.Moves run s fx t' s') (before : t.Sole run)
    (after : t'.Sole run') :
    Flows feed m s' run' (es ++ fx.filterMap TrackerEffect.event?) := by
  have hruns := after.runs
  cases hm with
  | delivers next =>
    obtain rfl := List.singleton_inj.mp hruns
    rw [append_unrouted (by simp)]
    exact h.delivers next
  | turns hturn =>
    obtain rfl := List.singleton_inj.mp (before.runs.symm.trans hruns)
    rw [append_unrouted (by simp)]
    exact h.turns hturn
  | stirs hstirs alike known =>
    cases hstirs with
    | aside going inbox startup routers minds quiet =>
      obtain rfl := List.singleton_inj.mp hruns
      rw [append_quiet quiet]
      exact h.alike alike inbox
    | routes routing next =>
      obtain rfl := List.singleton_inj.mp hruns
      exact (h.routes next).alike alike rfl
    | works minds =>
      obtain rfl := List.singleton_inj.mp (before.runs.symm.trans hruns)
      rw [append_unrouted (by simp [TrackerEffect.event?])]
      exact h.alike alike rfl
    | pauses going remaining empty quiet =>
      obtain rfl := List.singleton_inj.mp hruns
      rw [append_quiet quiet]
      exact h.alike alike rfl
    | _ =>
      obtain rfl := List.singleton_inj.mp hruns
      rw [append_unrouted (by simp)]
      exact h.alike alike rfl

/-- The diffs that were brought to the desk are the first of those in the feed. -/
theorem diffs_prefix (h : Flows feed m s run es) :
    diffsOf (Event.messagesFor m es) <+: diffsOf (Event.messagesFor m feed.events) := by
  rw [Event.diffsOf_messagesFor, Event.diffsOf_messagesFor, ← h.order, List.filterMap_append]
  exact List.prefix_append _ _

/-- **Once nothing is on its way**, all diffs and snapshots of the feed were brought to the desk. -/
theorem messages_of_rest (h : Flows feed m s run es) (finished : s.replay.player = .finished)
    (handedOn : ∀ st, (s.replay.fanout.relays.get st).buffered = [])
    (routed : ∀ st, run.inbox.get st = []) :
    diffsOf (Event.messagesFor m es) = diffsOf (Event.messagesFor m feed.events) ∧
      snapshotsOf (Event.messagesFor m es) = snapshotsOf (Event.messagesFor m feed.events) := by
  have hall : ∀ st, Event.within m st es = Event.within m st feed.events := by
    intro st
    rw [← h.order, handedOn, routed, h.finished finished]
    simp
  simp only [Event.diffsOf_messagesFor, Event.snapshotsOf_messagesFor, hall, and_self]

end Flows

end LiveBook
