import LiveBook.Proofs.Book.Resending
import LiveBook.Proofs.Desk.Service
import LiveBook.Proofs.Replay.Flow

/-!
# The books of a replay

While a market waits for its first book, its diffs are set aside; the book is the snapshot of the
feed, and the snapshot is brought once more, together with the diffs, to the worker that was set to
the book. So whatever was brought to the desk stands in one of two ways
(`LiveBook.Desk.Stands`), and once the worker has nothing left to take, the book is that of
`LiveBook.BookKeeper.book_of_resent`.

* `LiveBook.Desk.Stands.minds`, `LiveBook.Desk.Stands.activate` – events and workers, and the first
  books, keep it so;
* `LiveBook.Desk.Stands.book` – the book in the end;
* `LiveBook.Tracker.Readies.moves` – and a tracker that listens to a replay keeps it so.
-/

namespace LiveBook

variable {m : MarketId} {c window : ℕ} {S : Snapshot} {ms : List BookMessage}

/-! ### At the desk -/

namespace Desk

variable {d d' : Desk} {x : DeskAct} {i : ℕ} {w : Worker}

/-- **A worker has the book of a snapshot**, and these messages were brought to it, of which those
that were set aside came first. -/
structure Serving (m : MarketId) (window : ℕ) (S : Snapshot) (ms : List BookMessage) (d : Desk)
    (i : ℕ) (w : Worker) : Prop where
  worker : d.worker? i = some w
  market : w.market = m
  work : d.AtWork i w
  drains : ∃ d₁ w₁ b xs, Drains d₁ w₁ m i xs w ∧ d₁.policy = d.policy ∧
    Book.ofSnapshot S = .ok b ∧ w₁.keeper = .ofBook b window ∧
    ms = w₁.backlog ++ xs.flatMap (DeskAct.brought m)

/-- **How a market stands**, for which these messages were brought to the desk. -/
inductive Stands (m : MarketId) (c window : ℕ) (S : Snapshot) (ms : List BookMessage) (d : Desk) :
    Prop where
  /-- It waits for its first book, and its diffs are set aside. -/
  | waits
      (slot : d.slot? m = some (.initializing ((PendingDiffs.ofCapacity c).pushAll (diffsOf ms))))
      (noBook : snapshotsOf ms = [])
  /-- Its worker has got them all. -/
  | serves {i : ℕ} {w : Worker} (serving : Serving m window S ms d i w)

namespace Serving

/-- Every act keeps a worker in this standing that leaves it at work. -/
theorem does (h : Serving m window S ms d i w) (hdoes : d.Does x d') (staffed : d.Staffed)
    (keeps : ∀ w', d'.worker? i = some w' → d'.AtWork i w') :
    ∃ w', Serving m window S (ms ++ x.brought m) d' i w' := by
  obtain ⟨d₁, w₁, b, xs, hdrains, hpolicy, hb, hkeeper, rfl⟩ := h.drains
  have hslot : d.slot? m = some (.active i) := h.market ▸ h.work.slot
  have hremembers : w₁.keeper.Remembers := by
    rw [hkeeper]
    exact BookKeeper.remembers_ofBook (Book.lastDiff_ofSnapshot hb) window
  obtain ⟨w', hw', hdrains'⟩ :=
    hdrains.does (fun _ => hremembers) hdoes staffed hpolicy.symm hslot h.worker
  obtain ⟨v, hv, hcontinues⟩ := hdoes.worker? h.worker
  obtain rfl := Option.some.inj (hw'.symm.trans hv)
  refine ⟨w', hw', hcontinues.market.trans h.market, keeps w' hw', d₁, w₁, b, _, hdrains', ?_, hb,
    hkeeper, ?_⟩
  · rw [hpolicy, hdoes.policy_length.1]
  · rw [List.flatMap_append, List.flatMap_singleton, List.append_assoc]

end Serving

/-- The worker that is set to the first book of a market. -/
theorem exists_worker_activate {s : Snapshot} {run : ℕ} {isCancelled : Bool}
    (h : d.activate m s run isCancelled window = .ok d') : ∃ b p w, s.market = m ∧
      Book.ofSnapshot s = .ok b ∧ d.slot? m = some (.initializing p) ∧
      d'.worker? d.staff.length = some w ∧ w.market = m ∧ w.keeper = .ofBook b window ∧
      w.backlog = p.toList.map .diff := by
  obtain ⟨b, p, hm, hb, hp, rfl⟩ := activate_eq_ok h
  exact ⟨b, p, _, hm, hb, hp, List.getElem?_concat_length, rfl, rfl, List.append_nil _⟩

namespace Stands

/-- Events come, prices are written, and workers go on. While the market waits, no snapshot may
come. -/
theorem minds (h : Stands m c window S ms d) (hm : d.Minds x d') (staffed : d.Staffed)
    (early : (∃ p, d.slot? m = some (.initializing p)) → snapshotsOf (x.brought m) = []) :
    Stands m c window S (ms ++ x.brought m) d' := by
  cases h with
  | waits slot noBook =>
    refine .waits ?_ (by rw [snapshotsOf_append, noBook, early ⟨_, slot⟩]; rfl)
    rw [diffsOf_append, PendingDiffs.pushAll_append, (hm.does.brought_waiting slot).2, hm.slot?,
      slot]
    rfl
  | serves serving =>
    have hkeeps : d.Retains (fun _ => False) d' := hm.retains
    obtain ⟨w', hserving⟩ := serving.does hm.does staffed fun w' hw' => by
      obtain ⟨w, hw, -, hwork⟩ := hkeeps _ w' hw'
      obtain rfl := Option.some.inj (serving.worker.symm.trans hw)
      exact (hwork serving.work).resolve_right id
    exact .serves hserving

/-- **A market gets its first book.** If it is this one, no diff may have left those that were set
aside. -/
theorem activate (h : Stands m c window S ms d) {m' : MarketId} {book : Snapshot} {run : ℕ}
    (hd : d.activate m' book run false window = .ok d') (staffed : d.Staffed)
    (hbook : book.market = m → book = S) (fits : (diffsOf ms).length ≤ c) :
    Stands m c window S ms d' := by
  have hdoes := Does.activate hd
  cases h with
  | waits slot noBook =>
    by_cases hm : m' = m
    · subst hm
      obtain ⟨b, p, w, hmarket, hb, hp, hw, hwm, hkeeper, hbacklog⟩ := exists_worker_activate hd
      obtain rfl := hbook hmarket
      obtain rfl := Slot.initializing.inj (Option.some.inj (slot.symm.trans hp))
      -- all diffs that came are still set aside
      have hall : w.backlog = ms := by
        rw [hbacklog, PendingDiffs.toList_pushAll_ofCapacity, List.rtake,
          Nat.sub_eq_zero_of_le (fits.trans (le_max_left c 1)), List.drop_zero,
          ← eq_map_diffsOf noBook]
      have hwork : d'.AtWork d.staff.length w := by
        rcases worker?_activate hd hw with ⟨v, hv, -⟩ | ⟨-, hwork⟩
        · exact absurd (lt_length hv) (lt_irrefl _)
        · exact hwork rfl
      refine .serves ⟨hw, hwm, hwork, d', w, b, [], .init _ _ _ _, rfl, hb, hkeeper, ?_⟩
      rw [hall]
      exact (List.append_nil ms).symm
    · refine .waits ?_ noBook
      rw [slot?_activate hd, if_neg hm, slot]
  | serves serving =>
    obtain ⟨w', hserving⟩ := serving.does hdoes staffed fun w' hw' => by
      rcases worker?_activate hd hw' with ⟨w, hw, -, hwork⟩ | ⟨-, hwork⟩
      · obtain rfl := Option.some.inj (serving.worker.symm.trans hw)
        exact hwork serving.work
      · exact hwork rfl
    have hnone : ms ++ (DeskAct.activated m').brought m = ms := List.append_nil ms
    exact .serves (hnone ▸ hserving)

/-- **The book in the end**, when the worker has nothing left to take and the snapshot was brought
again. -/
theorem book (h : Stands m c window S ms d) (active : ∀ p, d.slot? m ≠ some (.initializing p))
    (drained : ∀ w ∈ d.staff, w.backlog = []) (again : snapshotsOf ms = [S])
    (streams : Streams S.sequence (diffsOf ms)) :
    ∃ b book before after, Book.ofSnapshot S = .ok b ∧ d.book? m = some book ∧
      ms = BookKeeper.placed before S after ∧ diffsOf ms = before ++ after ∧
      book.untraded =
        (b.mergeAll ((before ++ after).drop (before.length - max window 1))).untraded := by
  cases h with
  | waits slot => exact absurd slot (active _)
  | @serves i w serving =>
    obtain ⟨d₁, w₁, b, xs, hdrains, hpolicy, hb, hkeeper, rfl⟩ := serving.drains
    obtain ⟨before, after, hplaced, hdiffs⟩ := exists_placed again
    refine ⟨b, w.keeper.book, before, after, hb, ?_, hplaced, hdiffs, ?_⟩
    · rw [book?, ← serving.market, serving.work.slot]
      simp [serving.worker]
    -- nothing is left in the backlog, so all that was delivered was taken
    have htaken := hdrains.backlog
    rw [drained w (List.mem_of_getElem? serving.worker), List.append_nil] at htaken
    have hsequence : w₁.keeper.book.snapshotSequence = S.sequence := by
      rw [hkeeper, BookKeeper.ofBook, Book.eq_of_ofSnapshot hb]
      rfl
    have hascends : Ascends w₁.keeper.book.snapshotSequence
        (w₁.backlog ++ xs.flatMap (DeskAct.brought m)) := by
      rw [Ascends, again, hsequence]
      simp
    have hsame := hdrains.keeper
    rw [htaken, ← hdrains.brought serving.work.going hascends, hkeeper, hplaced] at hsame
    rw [← BookKeeper.book_of_resent d₁.policy window hb (hdiffs ▸ streams)]
    exact congrArg BookKeeper.book hsame

end Stands

end Desk

/-! ### During the replay -/

namespace Tracker

variable {t t' : Tracker} {run run' : Run} {s s' : ReplaySource} {feed : Feed} {es : List Event}
  {fx : List TrackerEffect} {l : Label}

/-- **How a tracker stands** that listens to a replay, as far as a market is concerned whose
snapshot is `S`. Snapshots are routed only once all first books are there. -/
structure Readies (feed : Feed) (m : MarketId) (S : Snapshot) (t : Tracker) (run : Run)
    (es : List Event) : Prop where
  sole : t.Sole run
  staffed : t.desk.Staffed
  ended : t.ready.raised = true → run.startup = .ended
  held : run.routers.get .snapshot = .routing → t.ready.raised = true
  /-- A book that has come is one of the feed. -/
  known : ∀ m' rest book, run.startup = .locking m' rest book → Event.snapshot book ∈ feed.events
  waits : ∀ p, t.desk.slot? m = some (.initializing p) → m ∈ run.startup.remaining
  stands : t.desk.Stands m t.config.pendingCapacity t.config.recentDiffs S (Event.messagesFor m es)

namespace Readies

/-- Once the tracker is ready, the market does not wait. -/
theorem active (h : Readies feed m S t run es) (ready : t.ready.raised = true) (p : PendingDiffs) :
    t.desk.slot? m ≠ some (.initializing p) := by
  intro hp
  have hmem := h.waits p hp
  rw [h.ended ready] at hmem
  exact absurd hmem List.not_mem_nil

/-- Events and workers go on. -/
theorem minds {x : DeskAct} {es' : List Event} (h : Readies feed m S t run es)
    (hm : t.desk.Minds x t'.desk)
    (sole : t'.Sole run') (config : t'.config = t.config) (ready : t'.ready = t.ready)
    (startup : run'.startup = run.startup)
    (routers : run'.routers.get .snapshot = .routing →
      run.routers.get .snapshot = .routing ∨ t.ready.raised = true)
    (early : (∃ p, t.desk.slot? m = some (.initializing p)) → snapshotsOf (x.brought m) = [])
    (brought : Event.messagesFor m es' = x.brought m) :
    Readies feed m S t' run' (es ++ es') where
  sole := sole
  staffed := hm.does.staffed h.staffed
  ended hr := startup.trans (h.ended (ready ▸ hr))
  held hr := by
    rw [ready]
    exact (routers hr).elim h.held id
  known m' rest book hl := h.known m' rest book (startup ▸ hl)
  waits p hp := by
    rw [hm.slot?, Option.map_eq_some_iff] at hp
    obtain ⟨v, hv, hp⟩ := hp
    obtain ⟨q, rfl, -⟩ := Slot.setAside_eq_initializing.mp hp
    exact startup ▸ h.waits q hv
  stands := by
    rw [Event.messagesFor, List.flatMap_append, ← Event.messagesFor, ← Event.messagesFor, brought,
      config]
    exact h.stands.minds hm h.staffed early

/-- Nothing was routed, and the desk is as it was. -/
theorem startup (h : Readies feed m S t run es) (sole : t'.Sole run')
    (config : t'.config = t.config) (desk : t'.desk = t.desk) (routers : run'.routers = run.routers)
    (ended : t'.ready.raised = true → run'.startup = .ended)
    (held : t.ready.raised = true → t'.ready.raised = true)
    (known : ∀ m' rest book, run'.startup = .locking m' rest book →
      Event.snapshot book ∈ feed.events)
    (waits : m ∈ run.startup.remaining → m ∈ run'.startup.remaining) :
    Readies feed m S t' run' es where
  sole := sole
  staffed := desk ▸ h.staffed
  ended := ended
  held hr := held (h.held (routers ▸ hr))
  known := known
  waits p hp := waits (h.waits p (desk ▸ hp))
  stands := by
    rw [desk, config]
    exact h.stands

/-- A market gets its first book, and the startup goes on with the others. -/
theorem activates (h : Readies feed m S t run es) {m' : MarketId} {rest : List MarketId}
    {book : Snapshot} {stage : StartupStage} {ready : ReadySignal} {lock : List Actor} {d' : Desk}
    (locking : run.startup = .locking m' rest book)
    (hd : t.desk.activate m' book 0 run.isCancelled t.config.recentDiffs = .ok d')
    (remaining : stage.remaining = rest) (empty : ∀ m rest book, stage ≠ .locking m rest book)
    (hready : stage = .ended ∨ ready = t.ready)
    (only : ∀ book, Event.snapshot book ∈ feed.events → book.market = m → book = S)
    (fits : (diffsOf (Event.messagesFor m es)).length ≤ t.config.pendingCapacity) :
    Readies feed m S
      { t with runs := [{ run with startup := stage }], desk := d', ready := ready, lock := lock }
      { run with startup := stage } es where
  sole := ⟨rfl, h.sole.going, h.sole.unasked⟩
  staffed := (Desk.Does.activate hd).staffed h.staffed
  ended hr := by
    rcases hready with hended | rfl
    · exact hended
    · exact absurd (locking.symm.trans (h.ended hr)) (by simp)
  held hr := absurd (locking.symm.trans (h.ended (h.held hr))) (by simp)
  known m' rest book hl := absurd hl (empty m' rest book)
  waits p hp := by
    dsimp only at hp ⊢
    rw [Desk.slot?_activate hd] at hp
    split at hp
    · cases hp
    next hne =>
      have hmem := h.waits p hp
      rw [locking] at hmem
      rw [remaining]
      exact (List.mem_cons.mp hmem).resolve_left (Ne.symm hne)
  stands := by
    rw [h.sole.going] at hd
    exact h.stands.activate hd h.staffed (only book (h.known _ _ _ locking)) fits

/-- While the market waits, no snapshot of it is routed. -/
theorem snapshotsOf_routed (h : Readies feed m S t run es) (flows : Flows feed m s run es)
    {st : EventStream} {e : Event} {rest : List Event} (routing : run.routers.get st = .routing)
    (next : run.inbox.get st = e :: rest) {p : PendingDiffs}
    (hp : t.desk.slot? m = some (.initializing p)) : snapshotsOf (e.messageFor m) = [] := by
  have harrived : e.stream = st := flows.arrived st e (next ▸ List.mem_cons_self)
  by_cases hm : e.market = m
  · cases e with
    | snapshot e =>
      subst harrived
      exact absurd hp (h.active (h.held routing) p)
    | _ =>
      rw [Event.messageFor_of_eq hm]
      rfl
  · rw [Event.messageFor_of_ne hm]
    rfl

/-- **Whatever happens keeps it so**, if the feed has no other snapshot for the market, and not more
diffs than can be set aside. -/
theorem moves (h : Readies feed m S t run es) (flows : Flows feed m s run es)
    (hm : t.Moves run s fx t' s')
    (only : ∀ book, Event.snapshot book ∈ feed.events → book.market = m → book = S)
    (fits : (diffsOf (Event.messagesFor m feed.events)).length ≤ t.config.pendingCapacity) :
    ∃ run', Readies feed m S t' run' (es ++ fx.filterMap TrackerEffect.event?) := by
  have hnothing : es ++ [].filterMap TrackerEffect.event? = es := List.append_nil es
  cases hm with
  | delivers next =>
    rw [hnothing]
    exact ⟨_, h.startup ⟨rfl, h.sole.going, h.sole.unasked⟩ rfl rfl rfl h.ended id h.known id⟩
  | turns hturn =>
    rw [hnothing]
    exact ⟨run, h⟩
  | stirs hstirs alike known =>
    cases hstirs with
    | @aside _ _ run' _ _ _ going inbox startup routers minds quiet =>
      have hnone : fx.filterMap TrackerEffect.event? = [] :=
        List.filterMap_eq_nil_iff.mpr fun x hx => TrackerEffect.event?_of_act? (quiet x hx).1
      refine ⟨run', h.minds (x := .rested) minds ⟨rfl, ?_, h.sole.unasked⟩ rfl rfl startup
        (routers .snapshot) (fun _ => rfl) ?_⟩
      · exact going.trans h.sole.going
      · rw [hnone]
        rfl
    | @routes st e rest routing next =>
      refine ⟨_, h.minds (x := .routed e (t.desk.route e t.now).2) (.route e t.now)
        ⟨rfl, h.sole.going, h.sole.unasked⟩ rfl rfl rfl .inl (fun ⟨p, hp⟩ => ?_) ?_⟩
      · exact snapshotsOf_routed h flows routing next hp
      · exact List.flatMap_singleton _ _
    | works minds =>
      refine ⟨run, h.minds minds ⟨h.sole.runs, h.sole.going, h.sole.unasked⟩ rfl rfl rfl .inl
        (fun _ => rfl) rfl⟩
    | @pauses _ _ stage lock going remaining empty quiet =>
      rw [append_quiet quiet]
      refine ⟨_, h.startup ⟨rfl, h.sole.going, h.sole.unasked⟩ rfl rfl rfl (fun hr => ?_) id
        (fun m' rest book hl => absurd hl (empty m' rest book)) (fun hm => remaining ▸ hm)⟩
      exact absurd (h.ended hr) going
    | @hears m' rest book lock fetching =>
      rw [hnothing]
      refine ⟨_, h.startup ⟨rfl, h.sole.going, h.sole.unasked⟩ rfl rfl rfl (fun hr => ?_) id
        (fun m' rest book hl => ?_) (fun hm => ?_)⟩
      · exact absurd (fetching.symm.trans (h.ended hr)) (by simp)
      · obtain ⟨-, -, rfl⟩ := StartupStage.locking.inj hl
        exact flows.plays ▸ known _ _ rfl
      · rwa [fetching] at hm
    | activates locking hd remaining empty hready =>
      rw [hnothing]
      exact ⟨_, h.activates locking hd remaining empty hready only
        (flows.diffs_prefix.length_le.trans fits)⟩
    | readies none =>
      rw [hnothing]
      refine ⟨_, h.startup ⟨rfl, h.sole.going, h.sole.unasked⟩ rfl rfl rfl (fun _ => rfl)
        (fun _ => ReadySignal.raised_put _ _) nofun (fun hm => ?_)⟩
      rwa [none] at hm

end Readies

end Tracker

/-! ### Any number of cues -/

namespace Rehearsal

variable {r r' : Rehearsal ReplaySource} {c : Cue} {cs : List Cue} {config : TrackerConfig}
  {feed : Feed} {es : List Event}

/-- **A tracker listens to a replay**, and these events were routed. -/
def Keeps (config : TrackerConfig) (feed : Feed) (m : MarketId) (S : Snapshot)
    (r : Rehearsal ReplaySource) (es : List Event) : Prop :=
  r.tracker.config = config ∧
    ∃ run, r.tracker.Readies feed m S run es ∧ Flows feed m r.source run es

/-- What is asked of a feed: there is no other snapshot of the market, and there are not more diffs
than can be set aside. -/
structure Suits (config : TrackerConfig) (m : MarketId) (S : Snapshot) (feed : Feed) : Prop where
  only : ∀ book, Event.snapshot book ∈ feed.events → book.market = m → book = S
  fits : (diffsOf (Event.messagesFor m feed.events)).length ≤ config.pendingCapacity

namespace Keeps

theorem perform (h : Keeps config feed m S r es) (suits : Suits config m S feed)
    (hr : r.perform? c = some r') :
    ∃ fx : List TrackerEffect, r'.seen = fx.reverse ++ r.seen ∧
      Keeps config feed m S r' (es ++ fx.filterMap TrackerEffect.event?) := by
  obtain ⟨rfl, run, hreadies, hflows⟩ := h
  obtain ⟨fx, hseen, hmoves⟩ := moves_of_perform? hreadies.sole hflows.queried hr
  obtain ⟨run', hreadies'⟩ := hreadies.moves hflows hmoves suits.only suits.fits
  have hflows' := hflows.moves hmoves hreadies.sole hreadies'.sole
  exact ⟨fx, hseen, (run_of_perform? hr).1, run', hreadies', hflows'⟩

/-- **However many cues there are.** -/
theorem performAll (h : Keeps config feed m S r es) (suits : Suits config m S feed)
    (hr : r.performAll? cs = some r') :
    ∃ fx : List TrackerEffect, r'.seen = fx.reverse ++ r.seen ∧
      Keeps config feed m S r' (es ++ fx.filterMap TrackerEffect.event?) := by
  induction cs generalizing r es with
  | nil =>
    obtain rfl := Option.some.inj hr
    exact ⟨[], rfl, (List.append_nil es).symm ▸ h⟩
  | cons c cs ih =>
    obtain ⟨r₁, hfirst, hrest⟩ := Option.bind_eq_some_iff.mp hr
    obtain ⟨fx, hseen, hkeeps⟩ := h.perform suits hfirst
    obtain ⟨fx', hseen', hkeeps'⟩ := ih hkeeps hrest
    refine ⟨fx ++ fx', ?_, ?_⟩
    · rw [hseen', hseen, List.reverse_append, List.append_assoc]
    · rw [List.filterMap_append, ← List.append_assoc]
      exact hkeeps'

/-- **The book in the end**, once the tracker is ready, the feed was played and nothing is on its
way: that of the snapshot and the diffs, but for those that had left the window when the snapshot
was brought again. -/
theorem book_of_rest (h : Keeps config feed m S r es)
    (snapshot : snapshotsOf (Event.messagesFor m feed.events) = [S])
    (streams : Streams S.sequence (diffsOf (Event.messagesFor m feed.events)))
    (ready : r.tracker.ready.raised = true) (finished : r.source.replay.player = .finished)
    (handedOn : ∀ st, (r.source.replay.fanout.relays.get st).buffered = [])
    (routed : ∀ run ∈ r.tracker.runs, ∀ st, run.inbox.get st = [])
    (drained : ∀ w ∈ r.tracker.desk.staff, w.backlog = []) :
    ∃ b book before after, Book.ofSnapshot S = .ok b ∧ r.tracker.desk.book? m = some book ∧
      Event.messagesFor m es = BookKeeper.placed before S after ∧
      diffsOf (Event.messagesFor m feed.events) = before ++ after ∧
      book.untraded = (b.mergeAll
        ((before ++ after).drop (before.length - max config.recentDiffs 1))).untraded := by
  obtain ⟨rfl, run, hreadies, hflows⟩ := h
  have hrun : run ∈ r.tracker.runs := by simp [hreadies.sole.runs]
  obtain ⟨hdiffs, hsnapshots⟩ := hflows.messages_of_rest finished handedOn (routed run hrun)
  rw [← hdiffs] at streams ⊢
  exact hreadies.stands.book (hreadies.active ready) drained (hsnapshots.trans snapshot) streams

end Keeps

end Rehearsal

end LiveBook
