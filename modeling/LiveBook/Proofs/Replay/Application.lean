import Mathlib.Logic.Relation
import LiveBook.App.Performance
import LiveBook.Proofs.Replay.Books
import LiveBook.Proofs.Tracker.Reachable

/-!
# A replay reconstructs the books

An application plays a recorded feed to its tracker. Whatever steps the tracker, the replay and the
application take, and in whatever order (`LiveBook.Performance.Plays`), once the tracker is ready,
the feed was played to its end, and nothing is on its way any more (`LiveBook.Performance.AtRest`),
the book of a market is that of its snapshot and its diffs (`LiveBook.Performance.book_of_replay`).

The snapshot comes twice, as the first book and as an event of the feed, and the second time it
waits until the tracker is ready. The diffs that are brought to the book before it are applied
again on top of it only as far as the window holds them. So a diff may be lost
(`LiveBook.Performance.exists_lost_diff`) if more of them come before the tracker is ready than fit
into the window.
-/

namespace LiveBook

variable {m : MarketId} {S : Snapshot} {feed : Feed}

/-! ### The beginning -/

/-- **A tracker that was just started**: the market waits, and nothing was routed. -/
theorem Tracker.readies_started (feed : Feed) (S : Snapshot) {config : TrackerConfig} {t : Tracker}
    (h : Tracker.ofConfig config = .ok t) (hm : m ∈ config.markets) :
    t.started.config = config ∧ t.started.Readies feed m S
      (.begin config.markets config.tradeRefresh.enabled) [] := by
  have sound := Tracker.sound_ofConfig h
  obtain ⟨-, heq⟩ := Tracker.eq_of_ofConfig h
  have hstep : t.step .start = some (t.started, []) := by
    rw [step, start_of_idle (congrArg Tracker.run heq)]
  have staffed := (sound.step hstep).staffed
  subst heq
  refine ⟨rfl, ⟨rfl, rfl, rfl⟩, staffed, (fun h => by cases h), (fun h => by cases h),
    (fun _ _ _ h => by cases h), fun _ _ => hm, .waits ?_ rfl⟩
  exact (Desk.slot?_registerAll _ _ _ m).trans (if_pos hm)

/-- A replay that nobody has listened to yet: all events are still to come. -/
theorem flows_ofFeed (feed : Feed) (pace : ℕ) {ms : List MarketId} (hm : m ∈ ms)
    (refreshes : Bool) :
    Flows feed m (.ofReplay (.ofFeed feed pace ms)) (.begin ms refreshes) [] where
  plays := rfl
  queried a call h := by cases h
  subscribed := SubscriptionRegistry.contains_iff.mpr
    (SubscriptionRegistry.mem_addAll.mpr (.inl hm))
  waits st e he := by cases st <;> cases he
  arrived st e he := by cases st <;> cases he
  order st := by cases st <;> rfl
  finished h := by cases h

/-! ### What the application does -/

namespace Application

variable {a a' : Application} {l : Label} {es : List Effect}

/-- The event that was routed. -/
def Effect.event? : Effect → Option Event
  | .tracker e => e.event?
  | _ => none

/-- What the application does by itself, and the wish for a shutdown. -/
def Label.IsOwn : Label → Prop
  | .tracker _ | .replayed => False
  | _ => True

/-- **Nothing is scheduled.** -/
structure IsUnscheduled (a : Application) : Prop where
  config : a.config.schedule = []
  schedule : a.schedule = .idle ∨ a.schedule = .waiting [] ∨ a.schedule = .ended

theorem run_ask_stop (t : Tracker) : (t.ask .stop).1.run = none := by
  have h := t.asks_ask .stop
  generalize t.ask .stop = o at h
  obtain ⟨t', fx⟩ := o
  cases h with
  | stopsNothing idle => exact idle
  | stops hrun => rfl

/-- What others see of an own step that leaves the tracker alone, or stops it. -/
def Spares (a : Application) (o : Outcome) : Prop :=
  ∀ a' es, o = some (a', es) → a'.IsUnscheduled ∧
    (a'.tracker.run = none ∨ a'.tracker = a.tracker ∧ es.filterMap Effect.event? = [])

theorem spares_none : a.Spares none := fun _ _ h => by cases h

/-- The tracker is left alone. -/
theorem spares_some (hu : a'.IsUnscheduled) (tracker : a'.tracker = a.tracker)
    (silent : es.filterMap Effect.event? = []) : a.Spares (some (a', es)) := by
  intro a'' es' h
  obtain ⟨rfl, rfl⟩ := Prod.mk.inj (Option.some.inj h)
  exact ⟨hu, .inr ⟨tracker, silent⟩⟩

/-- The tracker is left alone, if anything happens at all. -/
theorem spares_ite {c : Prop} [Decidable c] (hu : a'.IsUnscheduled)
    (tracker : a'.tracker = a.tracker) (silent : es.filterMap Effect.event? = []) :
    a.Spares (if c then some (a', es) else none) := by
  split
  · exact spares_some hu tracker silent
  · exact spares_none

/-- The tracker is stopped. -/
theorem spares_close (hu : a.IsUnscheduled) (completed : ℕ) :
    a.Spares (some (a.close completed)) := by
  intro a' es h
  obtain ⟨rfl, -⟩ := Prod.mk.inj (Option.some.inj h)
  exact ⟨⟨hu.config, hu.schedule⟩, .inl (run_ask_stop a.tracker)⟩

theorem events_reports (a : Application) : a.reports.filterMap Effect.event? = [] := by
  simp [reports, Effect.event?]

/-- **What the application does by itself**, where nothing is scheduled: it leaves the tracker
alone, or stops it. -/
theorem spares_own (own : l.IsOwn) (hu : a.IsUnscheduled) : a.Spares (a.step l) := by
  cases l with
  | tracker l => exact absurd own id
  | replayed => exact absurd own id
  | shutdown => exact spares_some ⟨hu.config, hu.schedule⟩ rfl rfl
  | ready =>
    rw [step]
    split
    · refine spares_some ⟨hu.config, .inr (.inl ?_)⟩ rfl rfl
      simp [AppConfig.orderedSchedule, hu.config]
    · exact spares_none
  | interrupt =>
    rw [step, seeInterrupt]
    split
    · split
      · exact spares_close hu 0
      · exact spares_some ⟨hu.config, hu.schedule⟩ rfl rfl
      · exact spares_none
    · exact spares_none
  | report =>
    rw [step]
    split
    · exact spares_ite ⟨hu.config, hu.schedule⟩ rfl a.events_reports
    · exact spares_none
  | drain =>
    rw [step]
    split
    · exact spares_ite ⟨hu.config, hu.schedule⟩ rfl rfl
    · exact spares_none
  | drained =>
    rw [step]
    split
    · exact spares_ite ⟨hu.config, hu.schedule⟩ rfl rfl
    · exact spares_none
  | settled =>
    rw [step]
    split
    · exact spares_close hu _
    · exact spares_none
  | stopped =>
    rw [step]
    split
    · split
      · exact spares_some ⟨hu.config, hu.schedule⟩ rfl rfl
      · exact spares_none
    · exact spares_none
  | act =>
    rw [step, actNext]
    -- there is no entry that could be begun, and none was
    obtain h | h | h := hu.schedule
    · rw [h]
      exact spares_none
    · rw [h]
      exact spares_some ⟨hu.config, .inr (.inr rfl)⟩ rfl rfl
    · rw [h]
      exact spares_none
  | cut =>
    rw [step]
    split
    next e rest h => rcases hu.schedule with h' | h' | h' <;> cases h.symm.trans h'
    · exact spares_none

end Application

/-! ### What can happen to a performance -/

namespace Performance

variable {p p' : Performance} {config : TrackerConfig}

/-- **What can happen next** to an application over a feed. -/
inductive Plays (p : Performance) : Performance → Prop where
  /-- The tracker and the replay follow some cues. -/
  | follows {cs : List Cue} {r : Rehearsal ReplaySource} (h : p.rehearsal.performAll? cs = some r) :
      Plays p (p.follow r)
  /-- The application does something by itself, or a shutdown is asked for. -/
  | takes {l : Application.Label} {p' : Performance} (own : l.IsOwn) (h : p.take l = some p') :
      Plays p p'
  /-- Time passes. -/
  | passes {time : ℕ} (later : p.app.tracker.clock ≤ time) : Plays p (p.moveTo time)

/-- Any number of such steps. -/
def Reaches : Performance → Performance → Prop := Relation.ReflTransGen Plays

/-- The events that were routed, in their order. -/
def routed (p : Performance) : List Event := p.seen.reverse.filterMap fun x => x.2.event?

/-- The messages that were brought to the desk for a market, in their order. -/
def brought (p : Performance) (m : MarketId) : List BookMessage := Event.messagesFor m p.routed

/-- **Nothing is on its way any more**: the tracker runs and is ready, the feed was played to its
end, every event was handed on and routed, and no worker has anything left to take. -/
structure AtRest (p : Performance) : Prop where
  running : p.app.tracker.isRunning = true
  ready : p.app.tracker.isReady = true
  finished : p.source.replay.isFinished = true
  handedOn : ∀ st, (p.source.replay.fanout.relays.get st).buffered = []
  routed : ∀ run ∈ p.app.tracker.runs, ∀ st, run.inbox.get st = []
  drained : ∀ w ∈ p.app.tracker.desk.staff, w.backlog = []

/-- **As long as the application has not stopped its tracker**, that listens to the replay. -/
structure Holds (config : TrackerConfig) (feed : Feed) (m : MarketId) (S : Snapshot)
    (p : Performance) : Prop where
  unscheduled : p.app.IsUnscheduled
  keeps : p.app.tracker.run ≠ none → Rehearsal.Keeps config feed m S p.rehearsal p.routed

theorem routed_note (p : Performance) (es : List Application.Effect) :
    (p.note es).routed = p.routed ++ es.filterMap Application.Effect.event? := by
  rw [routed, note, List.reverse_append, List.reverse_reverse, List.filterMap_append,
    List.filterMap_map, routed]
  rfl

/-- The end of the feed is noted, and nothing else. -/
theorem noteEnd_eq (p : Performance) : p.noteEnd.source = p.source ∧
    p.noteEnd.routed = p.routed ∧ ∃ b, p.noteEnd.app = { p.app with isReplayed := b } := by
  unfold noteEnd
  split
  · refine ⟨rfl, ?_, _, rfl⟩
    rw [routed_note]
    exact List.append_nil _
  · exact ⟨rfl, rfl, _, rfl⟩

theorem follow_eq (p : Performance) (r : Rehearsal ReplaySource) :
    (p.follow r).source = r.source ∧
      (p.follow r).routed = p.routed ++ r.seen.reverse.filterMap TrackerEffect.event? ∧
      ∃ b, (p.follow r).app = { p.app with tracker := r.tracker, isReplayed := b } := by
  obtain ⟨hsource, hrouted, b, happ⟩ := noteEnd_eq
    ({ p with app := { p.app with tracker := r.tracker }, source := r.source }.note
      (r.seen.reverse.map .tracker))
  refine ⟨hsource, hrouted.trans ?_, b, happ⟩
  rw [routed_note, List.filterMap_map]
  rfl

namespace Holds

variable {r : Rehearsal ReplaySource}

/-- The tracker and the replay follow some cues. -/
theorem follows (h : Holds config feed m S p) (suits : Rehearsal.Suits config m S feed)
    {cs : List Cue} (hr : p.rehearsal.performAll? cs = some r) :
    Holds config feed m S (p.follow r) := by
  obtain ⟨hsource, hrouted, b, happ⟩ := p.follow_eq r
  refine ⟨?_, fun hrun => ?_⟩
  · rw [happ]
    exact ⟨h.unscheduled.config, h.unscheduled.schedule⟩
  · rw [happ] at hrun
    have hsame : r.tracker.run = p.app.tracker.run := Rehearsal.run_of_performAll? hr
    obtain ⟨fx, hseen, hkeeps⟩ := (h.keeps (hsame ▸ hrun)).performAll suits hr
    have hfx : r.seen.reverse = fx := by
      rw [hseen, List.reverse_append, List.reverse_reverse]
      rfl
    rw [hrouted, hfx, rehearsal, happ, hsource]
    exact hkeeps

/-- The application does something by itself. -/
theorem takes (h : Holds config feed m S p) {l : Application.Label} (own : l.IsOwn)
    (hp : p.take l = some p') : Holds config feed m S p' := by
  obtain ⟨⟨app, es⟩, hstep, rfl⟩ := Option.map_eq_some_iff.mp hp
  obtain ⟨hu, hcases⟩ := Application.spares_own own h.unscheduled app es hstep
  refine ⟨hu, fun hrun => ?_⟩
  rcases hcases with hnone | ⟨htracker, hsilent⟩
  · exact absurd hnone hrun
  · rw [routed_note, hsilent, List.append_nil]
    change Rehearsal.Keeps config feed m S ⟨app.tracker, p.source, []⟩ p.routed
    rw [htracker]
    exact h.keeps (htracker ▸ hrun)

/-- Time passes. -/
theorem passes (h : Holds config feed m S p) (suits : Rehearsal.Suits config m S feed) {time : ℕ}
    (later : p.app.tracker.clock ≤ time) : Holds config feed m S (p.moveTo time) := by
  refine ⟨⟨h.unscheduled.config, h.unscheduled.schedule⟩, fun hrun => ?_⟩
  have hpass : p.rehearsal.perform? (.pass (time - p.app.tracker.clock) 0) =
      some (p.moveTo time).rehearsal := by
    have hclock : p.app.tracker.clock + (time - p.app.tracker.clock) = time := by omega
    simp [Rehearsal.perform?, Rehearsal.take, rehearsal, Tracker.step, hclock, moveTo,
      Rehearsal.tellDropped]
  obtain ⟨fx, hseen, hkeeps⟩ := (h.keeps hrun).perform suits hpass
  have hfx : fx = [] := by
    simpa [rehearsal] using hseen
  subst hfx
  rwa [List.filterMap_nil, List.append_nil] at hkeeps

/-- **Whatever happens keeps it so.** -/
theorem plays (h : Holds config feed m S p) (suits : Rehearsal.Suits config m S feed)
    (hp : p.Plays p') : Holds config feed m S p' := by
  cases hp with
  | follows hr => exact h.follows suits hr
  | takes own hp => exact h.takes own hp
  | passes later => exact h.passes suits later

theorem reaches (h : Holds config feed m S p) (suits : Rehearsal.Suits config m S feed)
    (hp : p.Reaches p') : Holds config feed m S p' := by
  induction hp with
  | refl => exact h
  | tail _ last ih => exact ih.plays suits last

end Holds

/-! ### The books in the end -/

theorem recentDiffs_pos {config : TrackerConfig} (h : config.validate = .ok ()) :
    0 < config.recentDiffs := by
  refine Nat.pos_of_ne_zero fun hzero => ?_
  unfold TrackerConfig.validate TrackerConfig.fault? at h
  rw [if_neg (Tracker.pendingCapacity_pos h).ne', if_pos hzero] at h
  cases h

theorem validate_tracker {config : AppConfig} (h : config.validate = .ok ()) :
    config.tracker.validate = .ok () := by
  unfold AppConfig.validate at h
  split at h
  · cases h
  next hvalid => exact hvalid

/-- An application that has just started its tracker. -/
theorem holds_start (feed : Feed) {config : AppConfig} {t : Tracker}
    (unscheduled : config.schedule = []) (hm : m ∈ config.tracker.markets)
    (ht : Tracker.ofConfig config.tracker = .ok t) (shutdownAt : Option ℕ) :
    Holds config.tracker feed m S
      ⟨⟨config, t.started, .awaitingReady, .idle, 0, false, 0, false, false, none⟩,
        .ofReplay (.ofFeed feed config.replay.pace config.tracker.markets), shutdownAt, []⟩ := by
  obtain ⟨hconfig, hreadies⟩ := Tracker.readies_started feed S ht hm
  exact ⟨⟨unscheduled, .inl rfl⟩, fun _ => ⟨hconfig, _, hreadies,
    flows_ofFeed feed _ hm config.tracker.tradeRefresh.enabled⟩⟩

/-- **A valid configuration without a schedule** begins, and the tracker listens to the replay. -/
theorem exists_begin {config : AppConfig} (valid : config.validate = .ok ())
    (unscheduled : config.schedule = []) (hm : m ∈ config.tracker.markets)
    (shutdownAt : Option ℕ) : ∃ p₀, begin config feed shutdownAt = .ok p₀ ∧
      Holds config.tracker feed m S p₀ := by
  have hvalid := validate_tracker valid
  obtain ⟨t, ht⟩ : ∃ t, Tracker.ofConfig config.tracker = .ok t := by
    rw [Tracker.ofConfig, hvalid]
    exact ⟨_, rfl⟩
  have hidle : t.run = none := by
    obtain ⟨-, rfl⟩ := Tracker.eq_of_ofConfig ht
    rfl
  have hstarts := holds_start (S := S) feed unscheduled hm ht shutdownAt
  rw [begin, ht]
  simp only [bind, Except.bind, Application.start, Tracker.start_of_idle hidle, Except.map]
  split
  next hshutdown =>
    -- a shutdown that was asked for before is seen at once
    refine ⟨_, rfl, ?_⟩
    generalize Performance.mk _ _ shutdownAt [] = p at hstarts ⊢
    cases hfirst : p.take .shutdown with
    | none => exact hstarts
    | some p₁ =>
      have hfirst := hstarts.takes (l := .shutdown) trivial hfirst
      rw [Option.bind_some]
      cases hsecond : p₁.take .interrupt with
      | none => exact hstarts
      | some p₂ => exact hfirst.takes (l := .interrupt) trivial hsecond
  next => exact ⟨_, rfl, hstarts⟩

/-- The messages of the feed for a market. -/
theorem messagesFor_of_recorded {D : List Diff}
    (recorded : feed.events.filter (fun e => e.market = m) = .snapshot S :: D.map .diff) :
    Event.messagesFor m feed.events = .snapshot S :: D.map .diff := by
  rw [Event.messagesFor_eq, recorded, List.flatMap_cons, List.flatMap_map]
  exact congrArg (BookMessage.snapshot S :: ·) List.map_eq_flatMap.symm

/-- **A replay reconstructs the books.** Take a market of a valid configuration without a schedule,
and a feed that has one snapshot for it, followed only by valid diffs in ascending order, not more
than can be set aside. Once nothing is on its way any more, the levels of its book are those of the
snapshot with the diffs, in the order of the feed; only those of the diffs are missing that were
brought to the desk before the snapshot came again, and had left the window by then. The sequence
numbers are those of the snapshot and the last diff. -/
theorem book_of_replay {config : AppConfig} (valid : config.validate = .ok ())
    (unscheduled : config.schedule = []) (hm : m ∈ config.tracker.markets) {D : List Diff}
    (recorded : feed.events.filter (fun e => e.market = m) = .snapshot S :: D.map .diff)
    (streams : Streams S.sequence D) (fits : D.length ≤ config.tracker.pendingCapacity)
    (shutdownAt : Option ℕ) :
    ∃ p₀, begin config feed shutdownAt = .ok p₀ ∧ ∀ p, p₀.Reaches p → p.AtRest →
      ∃ b book before after, Book.ofSnapshot S = .ok b ∧
        p.app.tracker.desk.book? m = some book ∧
        p.brought m = BookKeeper.placed before S after ∧ before ++ after = D ∧
        book.bids = (b.mergeAll (D.drop (before.length - config.tracker.recentDiffs))).bids ∧
        book.asks = (b.mergeAll (D.drop (before.length - config.tracker.recentDiffs))).asks ∧
        book.snapshotSequence = S.sequence ∧
        book.lastDiff = D.getLast?.map Diff.sequence := by
  obtain ⟨p₀, hbegin, hholds⟩ := exists_begin (S := S) valid unscheduled hm shutdownAt
  refine ⟨p₀, hbegin, fun p hp rest => ?_⟩
  have hmessages := messagesFor_of_recorded recorded
  have hdiffs : diffsOf (Event.messagesFor m feed.events) = D := by
    rw [hmessages]
    exact diffsOf_map_diff D
  have hsnapshots : snapshotsOf (Event.messagesFor m feed.events) = [S] := by
    rw [hmessages]
    exact congrArg _ (snapshotsOf_map_diff D)
  have suits : Rehearsal.Suits config.tracker m S feed := by
    refine ⟨fun s hs hm => ?_, hdiffs ▸ fits⟩
    have hmem : Event.snapshot s ∈ feed.events.filter fun e => e.market = m :=
      List.mem_filter.mpr ⟨hs, decide_eq_true hm⟩
    rw [recorded] at hmem
    simpa using hmem
  have hrunning : p.app.tracker.run ≠ none := Option.isSome_iff_ne_none.mp rest.running
  obtain ⟨b, book, before, after, hb, hbook, hbrought, happend, hsame⟩ :=
    ((hholds.reaches suits hp).keeps hrunning).book_of_rest hsnapshots (hdiffs ▸ streams)
      rest.ready (of_decide_eq_true rest.finished) rest.handedOn rest.routed rest.drained
  have hwindow := recentDiffs_pos (validate_tracker valid)
  rw [hdiffs] at happend
  rw [Nat.max_eq_left hwindow, ← happend] at hsame
  obtain ⟨hbids, hasks, hsequence, hlast⟩ := Book.eq_of_untraded hsame
  refine ⟨b, book, before, after, hb, hbook, hbrought, happend.symm, hbids, hasks, ?_, ?_⟩
  · rw [hsequence, Book.snapshotSequence_mergeAll, Book.eq_of_ofSnapshot hb]
    rfl
  · rw [hlast]
    refine Book.lastDiff_mergeAll_drop (Book.lastDiff_ofSnapshot hb) streams.ascending fun hne => ?_
    have hpos := List.length_pos_iff.mpr hne
    have hlength := congrArg List.length happend
    rw [List.length_append] at hlength
    omega

/-! ### A diff that is lost -/

/-- A level with a whole price and size. -/
def sampleLevel (price size : ℕ) : Level :=
  ⟨(Decimal.ofParts? false price 0).getD .zero, (Decimal.ofParts? false size 0).getD .zero⟩

/-- Two markets, a window for one diff, and so much time between their first books that both diffs
of the feed come before the tracker is ready. -/
def sampleConfig : AppConfig where
  tracker := { markets := [⟨"A"⟩, ⟨"B"⟩], initDelay := 44, recentDiffs := 1,
               tradeRefresh := { enabled := false } }
  replay := { path := "feed.ndjson", drain := 25 }

def sampleSnapshot : Snapshot :=
  ⟨⟨"A"⟩, 10, default, [sampleLevel 100 1], [sampleLevel 101 1]⟩

def sampleOther : Snapshot := ⟨⟨"B"⟩, 20, default, [sampleLevel 50 1], []⟩

def sampleDiffs : List Diff :=
  [⟨⟨"A"⟩, 11, default, [sampleLevel 99 2], []⟩, ⟨⟨"A"⟩, 12, default, [sampleLevel 98 3], []⟩]

/-- The snapshots of both markets, and then the diffs of one. -/
def sampleFeed : Feed :=
  .ofEvents ([.snapshot sampleSnapshot, .snapshot sampleOther] ++ sampleDiffs.map .diff)

/-- The tracker has just been started. -/
def sampleStart : Performance where
  app := ⟨sampleConfig, Tracker.started
      ⟨sampleConfig.tracker, .empty .snapshotOnly (.ofConfig {} 0), {}, none, [], [], [], 0, 0⟩,
    .awaitingReady, .idle, 0, false, 0, false, false, none⟩
  source := .ofReplay (.ofFeed sampleFeed 10 [⟨"A"⟩, ⟨"B"⟩])
  shutdownAt := none
  seen := []

/-- A market gets its first book. -/
def fetchBook : List Cue := [.proceed (.startup 0), .hear (.startup 0), .proceed (.startup 0)]

/-- A diff comes to the worker of the first market. -/
def bringDiff : List Cue :=
  [.pass 10 0, .turn, .deliver .diff, .proceed (.router 0 .diff), .proceed (.worker 0)]

/-- The second market gets its first book when the feed has been played to its end, and only then
the snapshots are routed. -/
def sampleCues : List Cue :=
  Listener.all.map (fun l => .proceed (.listener 0 l)) ++ [.turn, .deliver .snapshot] ++
    fetchBook ++ [.pass 10 0, .turn, .deliver .snapshot] ++ bringDiff ++ bringDiff ++
    [.pass 10 0, .turn, .hangUp, .pass 4 0, .proceed (.startup 0)] ++ fetchBook ++
    List.replicate 3 (.proceed (.router 0 .snapshot)) ++
    [.proceed (.worker 0), .proceed (.worker 1)]

def samplePerformed : Rehearsal ReplaySource :=
  (sampleStart.rehearsal.performAll? sampleCues).getD sampleStart.rehearsal

def sampleRest : Performance := sampleStart.follow samplePerformed

theorem begin_sample : begin sampleConfig sampleFeed none = .ok sampleStart := rfl

theorem reaches_sampleRest : sampleStart.Reaches sampleRest :=
  have performed : sampleStart.rehearsal.performAll? sampleCues = some samplePerformed := rfl
  .single (.follows performed)

theorem atRest_sample : sampleRest.AtRest where
  running := rfl
  ready := rfl
  finished := rfl
  handedOn st := by cases st <;> rfl
  routed := by
    have hruns : sampleRest.app.tracker.runs.map (fun run => run.inbox) = [⟨[], [], []⟩] := rfl
    intro run hrun st
    have hinbox : run.inbox ∈ sampleRest.app.tracker.runs.map fun run => run.inbox :=
      List.mem_map_of_mem hrun
    rw [hruns, List.mem_singleton] at hinbox
    rw [hinbox]
    cases st <;> rfl
  drained := by
    have hstaff : sampleRest.app.tracker.desk.staff.map (fun w => w.backlog) = [[], []] := rfl
    intro w hw
    have hbacklog : w.backlog ∈ sampleRest.app.tracker.desk.staff.map fun w => w.backlog :=
      List.mem_map_of_mem hw
    rw [hstaff] at hbacklog
    simpa using hbacklog

theorem streams_sample : Streams sampleSnapshot.sequence sampleDiffs where
  ascending := by decide
  above := by decide
  valid := by decide

/-- In the sample, all that is left of two diffs is the second. -/
theorem book_of_replay_sample :
    sampleFeed.events.filter (fun e => e.market = ⟨"A"⟩) =
      .snapshot sampleSnapshot :: sampleDiffs.map .diff ∧
    ∃ b book before after, Book.ofSnapshot sampleSnapshot = .ok b ∧
      sampleRest.app.tracker.desk.book? ⟨"A"⟩ = some book ∧
      sampleRest.brought ⟨"A"⟩ = BookKeeper.placed before sampleSnapshot after ∧
      before ++ after = sampleDiffs ∧
      book.bids = (b.mergeAll (sampleDiffs.drop (before.length - 1))).bids ∧
      book.asks = (b.mergeAll (sampleDiffs.drop (before.length - 1))).asks ∧
      book.snapshotSequence = 10 ∧ book.lastDiff = some 12 := by
  have recorded : sampleFeed.events.filter (fun e => e.market = ⟨"A"⟩) =
      .snapshot sampleSnapshot :: sampleDiffs.map .diff := rfl
  have valid : sampleConfig.validate = .ok () := rfl
  obtain ⟨p₀, hbegin, hbooks⟩ :=
    book_of_replay valid rfl (by decide) recorded streams_sample (by decide) none
  obtain rfl := Except.ok.inj (begin_sample.symm.trans hbegin)
  exact ⟨recorded, hbooks sampleRest reaches_sampleRest atRest_sample⟩

/-- **A diff may be lost**, though each market has one snapshot, which comes first, and then fewer
diffs than can be set aside, in ascending order and all valid: the book has not the bids that the
snapshot has with the diffs. -/
theorem exists_lost_diff :
    sampleConfig.validate = .ok () ∧ sampleConfig.schedule = [] ∧
    (∀ m ∈ sampleConfig.tracker.markets, ∃ S D,
      sampleFeed.events.filter (fun e => e.market = m) = .snapshot S :: D.map .diff ∧
      S.IsValid ∧ Streams S.sequence D ∧ D.length < sampleConfig.tracker.pendingCapacity) ∧
    begin sampleConfig sampleFeed none = .ok sampleStart ∧ sampleStart.Reaches sampleRest ∧
    sampleRest.AtRest ∧
    ∃ b book, Book.ofSnapshot sampleSnapshot = .ok b ∧
      sampleRest.app.tracker.desk.book? ⟨"A"⟩ = some book ∧
      book.bids ≠ (b.mergeAll sampleDiffs).bids := by
  refine ⟨rfl, rfl, fun m hm => ?_, begin_sample, reaches_sampleRest, atRest_sample,
    _, _, rfl, rfl, fun hsame => ?_⟩
  · obtain rfl | rfl : m = ⟨"A"⟩ ∨ m = ⟨"B"⟩ := by simpa [sampleConfig] using hm
    · exact ⟨sampleSnapshot, sampleDiffs, rfl, by decide, streams_sample, by decide⟩
    · exact ⟨sampleOther, [], rfl, by decide, ⟨.nil, nofun, nofun⟩, by decide⟩
  · exact absurd (congrArg (fun levels => levels.length) hsame) (by decide)

end Performance

end LiveBook
