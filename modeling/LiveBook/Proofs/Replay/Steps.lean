import LiveBook.Feed.Source
import LiveBook.Proofs.Feed.InitialBooks
import LiveBook.Proofs.Replay.Rules

/-!
# What can happen during a replay

A tracker listens to a replay. What happens next is not fixed: tasks, workers and the replay take
their steps in any order, time passes in between, and only the turn of an event does not come before
it is due. A cue (`LiveBook.Cue`) says whose turn it is, and `LiveBook.Rehearsal.perform?` what
comes of it.

* `LiveBook.ReplaySource.Alike` – the replay stands where it stood, whatever it was told;
* `LiveBook.Tracker.Moves` – what can become of a tracker of which nothing is asked, and of its
  replay;
* `LiveBook.Rehearsal.moves_of_perform?` – nothing else comes of a cue.
-/

namespace LiveBook

/-- **Whose turn it is** during a replay. -/
inductive Cue where
  | proceed (a : Actor)
  | quit (a : Actor)
  /-- Somebody gets the answer of the replay. -/
  | hear (a : Actor)
  /-- The next event of a stream is handed on. -/
  | deliver (s : EventStream)
  /-- The replay ends a call to play it. -/
  | hangUp
  /-- It is the turn of the next event of the feed. -/
  | turn
  | pass (millis nanos : ℕ)
deriving DecidableEq

namespace Rehearsal

/-- **What comes of a cue**, where anything does. -/
def perform? (r : Rehearsal ReplaySource) : Cue → Option (Rehearsal ReplaySource)
  | .proceed a => r.take ReplaySource.model (.proceed a)
  | .quit a => r.take ReplaySource.model (.quit a)
  | .hear a =>
    match r.source.answer? a with
    | some (answer, s) => { r with source := s }.take ReplaySource.model (.hear a answer)
    | none => none
  | .deliver st =>
    match r.source.forward? st with
    | some (.deliver run e, s) => { r with source := s }.take ReplaySource.model (.receive run e)
    | _ => none
  | .hangUp =>
    match r.source.act? with
    | some (.hangUp run l error?, s) =>
      { r with source := s }.take ReplaySource.model (.hangUp run l error?)
    | _ => none
  | .turn =>
    (r.source.replay.turn r.tracker.clock).map fun replay =>
      { r with source := r.source.setReplay replay }
  | .pass millis nanos => r.take ReplaySource.model (.pass millis nanos)

/-- What comes of some cues, one after the other. -/
def performAll? (r : Rehearsal ReplaySource) : List Cue → Option (Rehearsal ReplaySource)
  | [] => some r
  | c :: cs => (r.perform? c).bind fun r => r.performAll? cs

end Rehearsal

/-! ### What the replay is told -/

namespace ReplaySource

variable {s s' s'' : ReplaySource} {call : SourceCall} {a : Actor}

/-- Nothing was asked but for books and prices. -/
def Queried (s : ReplaySource) : Prop := ∀ a call, s.asked.get? a = some call → call.IsQuery

/-- **A replay stands where it stood**, as far as events are concerned. -/
structure Alike (s s' : ReplaySource) : Prop where
  feed : s'.replay.feed = s.replay.feed
  upcoming : s'.replay.upcoming = s.replay.upcoming
  subscriptions : s'.replay.subscriptions = s.replay.subscriptions
  buffered : ∀ st, (s'.replay.fanout.relays.get st).buffered =
    (s.replay.fanout.relays.get st).buffered
  finished : s'.replay.player = .finished ↔ s.replay.player = .finished
  queried : s.Queried → s'.Queried

namespace Alike

theorem refl (s : ReplaySource) : s.Alike s := ⟨rfl, rfl, rfl, fun _ => rfl, .rfl, id⟩

theorem trans (h : s.Alike s') (h' : s'.Alike s'') : s.Alike s'' :=
  ⟨h'.feed.trans h.feed, h'.upcoming.trans h.upcoming, h'.subscriptions.trans h.subscriptions,
    fun st => (h'.buffered st).trans (h.buffered st), h'.finished.trans h.finished,
    fun hq => h'.queried (h.queried hq)⟩

/-- Only what is asked has changed. -/
theorem of_replay (replay : s'.replay = s.replay) (queried : s.Queried → s'.Queried) :
    s.Alike s' := by
  refine ⟨?_, ?_, ?_, fun st => ?_, ?_, queried⟩
  all_goals rw [replay]

end Alike

theorem alike_called (s : ReplaySource) (a : Actor) (hcall : call.IsQuery) :
    s.Alike (s.called a call) := by
  refine .of_replay rfl fun hq a' call' hget => ?_
  rw [called, Table.get?_set] at hget
  split at hget
  · exact Option.some.inj hget ▸ hcall
  · exact hq a' call' hget

/-- A forwarder that joins a stream leaves what waits there. -/
theorem buffered_apply_join (f : Fanout (ℕ × EventStream)) (st st' : EventStream)
    (x : ℕ × EventStream) :
    ((f.apply st (.join x)).relays.get st').buffered = (f.relays.get st').buffered := by
  rw [Fanout.apply, PerStream.get_update]
  split
  · rw [Relay.step]
    split <;> rfl
  · rfl

theorem alike_listened (s : ReplaySource) (clock run : ℕ) (l : Listener) :
    s.Alike (s.listened clock run l) := by
  cases l with
  | stream st =>
    exact ⟨rfl, rfl, rfl, fun st' => buffered_apply_join _ st st' _, .rfl, id⟩
  | subscriptions =>
    unfold listened
    dsimp only
    split
    next idle =>
      unfold Replay.play
      split
      · refine ⟨rfl, rfl, rfl, fun _ => rfl, ?_, id⟩
        simp [idle]
      · exact .of_replay rfl id
    · exact .of_replay rfl id

/-- What the tracker does that asks for no subscription. -/
theorem alike_tell {fx : List TrackerEffect} (hfx : ∀ e ∈ fx, ∀ a call, e = .called a call →
    call.IsQuery) (s : ReplaySource) (clock : ℕ) :
    s.Alike (fx.foldl (fun s e => Rehearsal.tell model s clock e) s) := by
  induction fx generalizing s with
  | nil => exact .refl s
  | cons e fx ih =>
    rw [List.forall_mem_cons] at hfx
    refine .trans ?_ (ih hfx.2 _)
    cases e with
    | called a call => exact s.alike_called a (hfx.1 a call rfl)
    | listened r l => exact s.alike_listened clock r l
    | _ => exact .refl s

/-- **The answer to a query**: a book that comes is the first snapshot of a market in the feed. -/
theorem alike_answer? {answer : SourceAnswer} (hq : s.Queried)
    (h : s.answer? a = some (answer, s')) :
    s.Alike s' ∧ ∀ book, answer = .book (.ok book) →
      Event.snapshot book ∈ s.replay.feed.events := by
  obtain ⟨call, hcall, h⟩ := Option.map_eq_some_iff.mp h
  have herase : s.Alike { s with asked := s.asked.erase a } := by
    refine .of_replay rfl fun hq a' call' hget => ?_
    rw [Table.get?_erase] at hget
    split at hget
    · cases hget
    · exact hq a' call' hget
  have hquery := hq a call hcall
  cases call with
  | book m =>
    obtain ⟨rfl, rfl⟩ := Prod.mk.inj h
    refine ⟨herase, fun book hbook => ?_⟩
    unfold Replay.initialBook at hbook
    split at hbook
    next book' hfound =>
      obtain rfl : book' = book := by simpa using hbook
      exact (Feed.initialBook?_eq_some_iff.mp hfound).mem
    next => simp at hbook
  | prices ms =>
    obtain ⟨rfl, rfl⟩ := Prod.mk.inj h
    exact ⟨herase, fun _ hbook => by cases hbook⟩
  | subscribe m => exact absurd hquery id
  | unsubscribe m => exact absurd hquery id

/-- The end of a call to play the feed. -/
theorem alike_act? {run : ℕ} {l : Listener} {error? : Option SourceError}
    (h : s.act? = some (.hangUp run l error?, s')) : s.Alike s' := by
  unfold act? at h
  split at h
  · obtain ⟨-, rfl⟩ := Prod.mk.inj (Option.some.inj h)
    exact .of_replay rfl id
  · cases hfinish : s.finish? with
    | some o =>
      rw [hfinish] at h
      obtain rfl := Option.some.inj h
      unfold finish? at hfinish
      split at hfinish
      · split at hfinish
        · obtain ⟨-, rfl⟩ := Prod.mk.inj (Option.some.inj hfinish)
          exact .of_replay rfl id
        · cases hfinish
      · cases hfinish
    | none =>
      -- what a stream hands on is no end of a call
      rw [hfinish] at h
      obtain ⟨st, -, hst⟩ := List.exists_of_findSome?_eq_some h
      unfold forward? at hst
      split at hst <;> cases hst

/-- A replay that has handed on an event of a stream, so that these wait there still. -/
def handedOn (s : ReplaySource) (st : EventStream) (rest : List Event) : ReplaySource :=
  s.setReplay { s.replay with
    fanout := ⟨s.replay.fanout.relays.update st fun relay => { relay with buffered := rest }⟩ }

/-- **An event that is handed on** was the first of those that waited. -/
theorem eq_of_forward? {st : EventStream} {run : ℕ} {e : Event}
    (h : s.forward? st = some (.deliver run e, s')) :
    ∃ rest, (s.replay.fanout.relays.get st).buffered = e :: rest ∧ s' = s.handedOn st rest := by
  unfold forward? Relay.step at h
  dsimp only at h
  cases hturns : (s.replay.fanout.relays.get st).turns with
  | nil => simp [hturns] at h
  | cons f fs =>
    cases hbuffered : (s.replay.fanout.relays.get st).buffered with
    | nil => simp [hturns, hbuffered] at h
    | cons e' rest =>
      simp only [hturns, hbuffered] at h
      by_cases hclosed : f ∈ (s.replay.fanout.relays.get st).closed
      · simp [hclosed] at h
      · simp only [hclosed, if_false, Option.some.injEq, Prod.mk.injEq,
          SourceAct.deliver.injEq] at h
        obtain ⟨⟨-, rfl⟩, rfl⟩ := h
        refine ⟨rest, rfl, ?_⟩
        rw [handedOn, ← hturns]
        cases st <;> rfl

end ReplaySource

/-! ### What becomes of both -/

/-- **What can become** of a tracker of which nothing is asked, and of its replay. -/
inductive Tracker.Moves (t : Tracker) (run : Run) (s : ReplaySource) :
    List TrackerEffect → Tracker → ReplaySource → Prop where
  /-- The tracker does something, and the replay stands where it stood. -/
  | stirs {l : Tracker.Label} {fx : List TrackerEffect} {t' : Tracker} {s' : ReplaySource}
      (h : t.Stirs run l fx t') (alike : s.Alike s')
      (known : ∀ a book, l = .hear a (.book (.ok book)) →
        Event.snapshot book ∈ s.replay.feed.events) : Moves t run s fx t' s'
  | delivers {st : EventStream} {e : Event} {rest : List Event}
      (next : (s.replay.fanout.relays.get st).buffered = e :: rest) :
      Moves t run s []
        { t with runs := [{ run with inbox := run.inbox.update e.stream fun es => es ++ [e] }] }
        (s.handedOn st rest)
  | turns {clock : ℕ} {replay : Replay (ℕ × EventStream)}
      (h : s.replay.turn clock = some replay) : Moves t run s [] t (s.setReplay replay)

namespace Rehearsal

variable {r r' : Rehearsal ReplaySource} {run : Run} {l : Tracker.Label} {c : Cue}

/-- What is seen of it, and what becomes of a tracker and its replay. -/
def Moves (r : Rehearsal ReplaySource) (run : Run) (r' : Rehearsal ReplaySource) : Prop :=
  ∃ fx, r'.seen = fx.reverse ++ r.seen ∧ r.tracker.Moves run r.source fx r'.tracker r'.source

/-- The tracker takes a step of which the replay is told nothing but what it does. -/
theorem eq_of_take (h : r.take ReplaySource.model l = some r')
    (hl : ∀ n li, l ≠ .quit (.listener n li)) : ∃ t' fx, r.tracker.step l = some (t', fx) ∧
      r' = ⟨t', fx.foldl (fun s e => tell ReplaySource.model s t'.clock e) r.source,
        fx.reverse ++ r.seen⟩ := by
  unfold take at h
  split at h
  · cases h
  next t' fx hstep =>
    refine ⟨t', fx, hstep, (Option.some.inj h).symm.trans ?_⟩
    have hsame : tellDropped ReplaySource.model r.source l = r.source := by
      unfold tellDropped
      split
      next n li => exact absurd rfl (hl n li)
      · rfl
    rw [hsame]

/-- A step of the tracker by one of its rules. -/
theorem moves_of_take (sole : r.tracker.Sole run) (hl : l.IsInner)
    (hreceive : ∀ n e, l ≠ .receive n e) (hquit : ∀ n li, l ≠ .quit (.listener n li))
    {s : ReplaySource} (alike : r.source.Alike s)
    (known : ∀ a book, l = .hear a (.book (.ok book)) →
      Event.snapshot book ∈ r.source.replay.feed.events)
    (h : { r with source := s }.take ReplaySource.model l = some r') : r.Moves run r' := by
  obtain ⟨t', fx, hstep, rfl⟩ := eq_of_take h hquit
  have hstirs := sole.stirs hl hreceive hstep
  have htold := alike.trans (ReplaySource.alike_tell hstirs.queries s t'.clock)
  exact ⟨fx, rfl, .stirs hstirs htold known⟩

/-- **Nothing else comes of a cue.** -/
theorem moves_of_perform? (sole : r.tracker.Sole run) (hq : r.source.Queried)
    (h : r.perform? c = some r') : r.Moves run r' := by
  have hrefl := ReplaySource.Alike.refl r.source
  cases c with
  | proceed a => exact moves_of_take (l := .proceed a) sole trivial nofun nofun hrefl nofun h
  | quit a =>
    refine moves_of_take (l := .quit a) sole trivial nofun ?_ hrefl nofun h
    rintro n li heq
    obtain rfl := Tracker.Label.quit.inj heq
    -- no listener quits
    rw [perform?, take] at h
    split at h
    · cases h
    next hstep =>
      obtain ⟨i, hi⟩ := sole.quit_eq (a := .listener n li) hstep
      cases hi
  | hear a =>
    rw [perform?] at h
    split at h
    next answer s hanswer =>
      obtain ⟨alike, hbook⟩ := ReplaySource.alike_answer? hq hanswer
      refine moves_of_take (l := .hear a answer) sole trivial nofun nofun alike
        (fun a' book heq => hbook book ?_) h
      exact (Tracker.Label.hear.inj heq).2
    · cases h
  | deliver st =>
    rw [perform?] at h
    split at h
    next n e s hforward =>
      obtain ⟨rest, hbuffered, rfl⟩ := ReplaySource.eq_of_forward? hforward
      obtain ⟨t', fx, hstep, rfl⟩ := eq_of_take h nofun
      obtain ⟨rfl, rfl⟩ := sole.receives hstep
      exact ⟨[], rfl, .delivers hbuffered⟩
    · cases h
  | hangUp =>
    rw [perform?] at h
    split at h
    next n li error? s hact =>
      exact moves_of_take (l := .hangUp n li error?) sole trivial nofun nofun
        (ReplaySource.alike_act? hact) nofun h
    · cases h
  | turn =>
    obtain ⟨replay, hturn, rfl⟩ := Option.map_eq_some_iff.mp h
    exact ⟨[], rfl, .turns hturn⟩
  | pass millis nanos =>
    exact moves_of_take (l := .pass millis nanos) sole trivial nofun nofun hrefl nofun h

/-- A step of the tracker starts and stops nothing. -/
theorem run_of_take (hl : l.IsInner) (h : r.take ReplaySource.model l = some r') :
    r'.tracker.config = r.tracker.config ∧ r'.tracker.run = r.tracker.run := by
  unfold take at h
  split at h
  · cases h
  next t' fx hstep =>
    obtain rfl := Option.some.inj h
    exact (Tracker.step_happens hstep).run_eq hl

/-- **Nothing is started or stopped** on a cue. -/
theorem run_of_perform? (h : r.perform? c = some r') :
    r'.tracker.config = r.tracker.config ∧ r'.tracker.run = r.tracker.run := by
  cases c with
  | proceed a => exact run_of_take (l := .proceed a) trivial h
  | quit a => exact run_of_take (l := .quit a) trivial h
  | hear a =>
    rw [perform?] at h
    split at h
    next answer s _ =>
      exact run_of_take (r := { r with source := s }) (l := .hear a answer) trivial h
    · cases h
  | deliver st =>
    rw [perform?] at h
    split at h
    next n e s _ =>
      exact run_of_take (r := { r with source := s }) (l := .receive n e) trivial h
    · cases h
  | hangUp =>
    rw [perform?] at h
    split at h
    next n li error? s _ =>
      exact run_of_take (r := { r with source := s }) (l := .hangUp n li error?) trivial h
    · cases h
  | turn =>
    obtain ⟨replay, -, rfl⟩ := Option.map_eq_some_iff.mp h
    exact ⟨rfl, rfl⟩
  | pass millis nanos => exact run_of_take (l := .pass millis nanos) trivial h

theorem run_of_performAll? {cs : List Cue} (h : r.performAll? cs = some r') :
    r'.tracker.run = r.tracker.run := by
  induction cs generalizing r with
  | nil => exact congrArg (fun r => r.tracker.run) (Option.some.inj h).symm
  | cons c cs ih =>
    obtain ⟨r₁, hfirst, hrest⟩ := Option.bind_eq_some_iff.mp h
    exact (ih hrest).trans (run_of_perform? hfirst).2

end Rehearsal

end LiveBook
