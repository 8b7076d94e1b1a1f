import LiveBook.Proofs.Desk.Outlook
import LiveBook.Proofs.Tracker.Prices
import LiveBook.Proofs.Tracker.Startup

/-!
# Markets do not disturb each other

All markets of a tracker share its routers, its lock and its desk. Still, what concerns one market
leaves every other as it was: its slot, its workers and its counts
(`LiveBook.Tracker.Move.untouched`). So of a whole run, with whatever was done for other markets in
between, a market takes notice only of what happened to it (`LiveBook.Tracker.Trail.standing`,
`LiveBook.Tracker.Trail.outlook`), and that is the same with the moves of another market left out:
`LiveBook.Tracker.markets_apart`.
-/

namespace LiveBook

/-- The market that a request is about, if it is about one only. -/
def RequestStage.market? : RequestStage → Option MarketId
  | .add m _ _ | .remove m _ => some m
  | .stop _ | .awaitReady | .answered _ => none

/-- The event that a router of a run takes to the desk next. -/
def Run.nextEvent? (run : Run) (s : EventStream) : Option Event :=
  match run.routers.get s with
  | .routing => (run.inbox.get s).head?
  | _ => none

/-- The market that a startup is about to activate. -/
def StartupStage.market? : StartupStage → Option MarketId
  | .locking m _ _ => some m
  | _ => none

namespace Desk

/-- An act that is done for a market: an event of the market is brought, or one of its workers goes
on. -/
def IsFor (d : Desk) (m : MarketId) : DeskAct → Prop
  | .routed e _ => e.market = m
  | .worked i _ => ∃ w, d.worker? i = some w ∧ w.market = m
  | _ => False

/-- Other markets take no notice of it. -/
theorem IsFor.silent {d : Desk} {m n : MarketId} {a : DeskAct} (h : d.IsFor m a)
    (staffed : d.Staffed) (hmn : m ≠ n) : d.inputs n a = [] ∧ a.entries n = [] := by
  cases a with
  | routed e outcome =>
    have hne : e.market ≠ n := h ▸ hmn
    obtain ⟨-, hdelivered, hbuffered⟩ := DeskAct.brought_of_ne hne outcome
    exact ⟨if_neg hne, by simp [DeskAct.entries, hdelivered, hbuffered]⟩
  | worked i act =>
    obtain ⟨w, hw, rfl⟩ := h
    exact ⟨if_neg fun hs => staffed.market_ne d hs hmn.symm hw rfl, rfl⟩
  | _ => cases h

end Desk

namespace Tracker

variable {t t' u u' : Tracker} {i r : ℕ} {m n : MarketId} {s : RequestStage} {l : Label}
  {fx : List TrackerEffect} {xs ys : List Move} {x : Move} {run : Run}

/-! ### Whom a step concerns -/

/-- **The market that a step concerns**, if it is one only: an event of the market comes in or is
routed, a worker of the market goes on, the market is to be added or removed, or the startup is
about to activate it. -/
def market? (t : Tracker) : Label → Option MarketId
  | .ask (.add m) | .ask (.remove m) => some m
  | .proceed (.request i) | .quit (.request i) | .hear (.request i) _ =>
    (t.request? i).bind RequestStage.market?
  | .proceed (.worker i) | .quit (.worker i) => (t.desk.worker? i).map Worker.market
  | .proceed (.router r s) =>
    (t.run? r).bind fun run => (run.nextEvent? s).map Event.market
  | .proceed (.startup r) => (t.run? r).bind fun run => run.startup.market?
  | .receive _ e => some e.market
  | _ => none

/-- The market that a move concerns. -/
def Move.market? (x : Move) : Option MarketId := x.before.market? x.label

/-- A router takes the first of the events in its inbox. -/
theorem market?_router {k : EventStream} (hr : t.run? r = some run)
    (hl : t.market? (.proceed (.router r k)) = some m) :
    ∃ e, (run.inbox.get k).head? = some e ∧ e.market = m := by
  simp only [market?, hr, Option.bind_some, Option.map_eq_some_iff] at hl
  obtain ⟨e, he, hm⟩ := hl
  refine ⟨e, ?_, hm⟩
  unfold Run.nextEvent? at he
  split at he
  · exact he
  · cases he

theorem market?_startup {rest : List MarketId} {book : Snapshot} (hr : t.run? r = some run)
    (locking : run.startup = .locking m rest book) :
    t.market? (.proceed (.startup r)) = some m := by
  rw [market?, hr, Option.bind_some, locking]
  rfl

theorem market?_request (hl : l.request? = some i) (hs : t.request? i = some s) :
    t.market? l = s.market? := by
  have hmarket : t.market? l = (t.request? i).bind RequestStage.market? := by
    unfold Label.request? at hl
    split at hl
    · obtain rfl := Option.some.inj hl
      rfl
    · obtain rfl := Option.some.inj hl
      rfl
    · obtain rfl := Option.some.inj hl
      rfl
    · cases hl
  rw [hmarket, hs, Option.bind_some]

/-! ### What it leaves untouched -/

theorem Reachable.charged (h : t.Reachable) : t.desk.Charged := by
  obtain ⟨config, t₀, tr, hstart, hsteps⟩ := h
  induction hsteps with
  | refl =>
    obtain ⟨-, rfl⟩ := eq_of_ofConfig hstart
    intro m i hi
    cases hi
  | tail _ last ih =>
    obtain ⟨x, hdoes, -⟩ := step_does last
    exact hdoes.desk.charged ih

/-- **Requests for other markets**, whether they succeed, are refused or are rolled back. -/
theorem Goes.untouched (h : t.Goes i s l fx t') (charged : t.desk.Charged)
    (hs : s.market? = some m) (hmn : m ≠ n) : t.desk.Untouched n t'.desk := by
  cases h with
  | addRegisters =>
    obtain rfl := Option.some.inj hs
    exact t.desk.untouched_register hmn _
  | addRefused | addQuits | addFails | removeEnds =>
    obtain rfl := Option.some.inj hs
    exact t.desk.untouched_discard hmn
  | addActivates hd =>
    obtain rfl := Option.some.inj hs
    exact Desk.untouched_activate hd hmn
  | @removeRetires m' j w holds active charge =>
    obtain rfl := Option.some.inj hs
    refine (t.desk.untouched_retire hmn).trans (Desk.untouched_cancel _ fun v hv => ?_)
    -- whoever was in charge of the other market is one of its workers
    obtain ⟨v', hv', hm⟩ := charged _ _ charge
    obtain rfl := Option.some.inj (hv'.symm.trans hv)
    exact hm ▸ hmn
  | removeRetiresNobody =>
    obtain rfl := Option.some.inj hs
    exact t.desk.untouched_retire hmn
  | stopQueues | stopDismisses | stopDisbands | stopDrains | stopEnds | alerted => cases hs
  | _ => exact .refl n t.desk

/-- What is done at the desk for the market of a label, by a task or a worker. -/
theorem Handles.untouched {d' : Desk} (h : t.Handles l fx d') (staffed : t.desk.Staffed)
    (hl : t.market? l = some m) (hmn : m ≠ n) : t.desk.Untouched n d' := by
  cases h with
  | rests => exact .refl n t.desk
  | routes hr inbox =>
    obtain ⟨e', he', rfl⟩ := market?_router hr hl
    obtain rfl := Option.some.inj ((congrArg List.head? inbox).symm.trans he')
    exact t.desk.untouched_route staffed _ hmn t.now
  | activates hr locking hd =>
    obtain rfl := Option.some.inj ((market?_startup hr locking).symm.trans hl)
    exact Desk.untouched_activate hd hmn
  | refreshes => cases hl
  | works h =>
    obtain ⟨w, hw, rfl⟩ := Option.map_eq_some_iff.mp hl
    exact Desk.untouched_work hw hmn h
  | quits h =>
    obtain ⟨w, hw, rfl⟩ := Option.map_eq_some_iff.mp hl
    exact Desk.untouched_workerQuits hw hmn h

/-- **Whatever concerns one market leaves every other untouched.** -/
theorem Move.untouched (x : Move) (reached : x.before.Reachable) (hx : x.market? = some m)
    (hmn : m ≠ n) : x.before.desk.Untouched n x.after.desk := by
  obtain ⟨t, l, fx, t', step⟩ := x
  cases step_happens step with
  | starts | abandons | abandonsNothing | goesOn => cases hx
  | asks asks =>
    cases asks with
    | stopsNothing | stops | awaits => cases hx
    | _ => exact .refl n t.desk
  | goes hl hs goes =>
    exact goes.untouched reached.charged ((market?_request hl hs).symm.trans hx) hmn
  | tends hl other => exact (step_handles step hl other).untouched reached.sound.staffed hx hmn

/-! ### What happens to a market -/

/-- What is done with a step shows as done for the market that it concerns. -/
theorem Handles.isFor {d' : Desk} (h : t.Handles l fx d') (hl : t.market? l = some m) :
    ∀ a ∈ fx.filterMap TrackerEffect.act?, t.desk.IsFor m a := by
  intro a ha
  cases h with
  | rests hidden =>
    rw [hidden] at ha
    cases ha
  | routes hr inbox =>
    obtain ⟨e', he', hm⟩ := market?_router hr hl
    obtain rfl := Option.some.inj ((congrArg List.head? inbox).symm.trans he')
    obtain rfl := List.mem_singleton.mp ha
    exact hm
  | activates => cases ha
  | refreshes => cases ha
  | works | quits =>
    obtain rfl := List.mem_singleton.mp ha
    exact Option.map_eq_some_iff.mp hl

theorem Move.isFor (x : Move) (hx : x.market? = some m) :
    ∀ a ∈ x.acts, x.before.desk.IsFor m a := by
  obtain ⟨t, l, fx, t', step⟩ := x
  intro a ha
  cases step_happens step with
  | starts | abandons | abandonsNothing | goesOn => cases hx
  | asks asks => cases asks <;> cases ha
  | goes hl hs goes =>
    rw [acts, goes.hidden] at ha
    cases ha
  | tends hl other => exact (step_handles step hl other).isFor hx a ha

instance : (l : Label) → Decidable (l = .start)
  | .start => isTrue rfl
  | .abandon | .ask _ | .proceed _ | .quit _ | .hear _ _ | .receive _ _ | .hangUp _ _ _
  | .pass _ _ => isFalse nofun

instance (t : Tracker) (l : Label) (t' : Tracker) (n : MarketId) :
    Decidable (t.Registers l t' n) :=
  inferInstanceAs (Decidable (_ ∧ _ ∨ _))

namespace Move

/-- What happens to a market with a move, where this is what the acts are for it that show. -/
def happeningsBy (f : DeskAct → List Happening) (n : MarketId) (x : Move) : List Happening :=
  if x.before.Registers x.label x.after n then [.registered x.before.config.pendingCapacity]
  else Desk.turns n x.before.desk x.after.desk ++ x.acts.flatMap f

/-- **What happens to a market with a move**: it comes or goes, an event is brought for it, or its
worker takes a step. -/
def happenings (n : MarketId) (x : Move) : List Happening :=
  x.happeningsBy (x.before.desk.inputs n) n

/-- **What comes to a market with a move**: it comes or goes, or messages are set aside for it or
put into the queue of its worker. -/
def entries (n : MarketId) (x : Move) : List Happening :=
  x.happeningsBy (DeskAct.entries n) n

/-- It is what one act does at the desk, which registers the market or does not. -/
theorem happeningsBy_cases {f : DeskAct → List Happening} (hf : ∀ a, a.isShown = false → f a = [])
    (n : MarketId) (x : Move) : ∃ a, x.before.desk.Does a x.after.desk ∧
      (a.Registers n x.before.config.pendingCapacity ∧
          x.happeningsBy f n = [.registered x.before.config.pendingCapacity] ∨
        (∀ c, ¬a.Registers n c) ∧
          x.happeningsBy f n = Desk.turns n x.before.desk x.after.desk ++ f a) := by
  obtain ⟨a, hdoes, hregisters⟩ := step_does x.step
  obtain ⟨hiff, hcapacity⟩ := hregisters n
  refine ⟨a, hdoes.desk, ?_⟩
  unfold happeningsBy
  split
  next h =>
    obtain ⟨c, hc⟩ := hiff.mp h
    exact .inl ⟨hcapacity c hc ▸ hc, rfl⟩
  next h =>
    refine .inr ⟨fun c hc => h (hiff.mpr ⟨c, hc⟩), ?_⟩
    rw [acts, hdoes.shown]
    cases ha : a.isShown with
    | true => simp [ha]
    | false => simp [ha, hf a ha]

/-- **How a market stands after a move.** -/
theorem standing (x : Move) (reached : x.before.Reachable) (n : MarketId) :
    x.after.desk.standing n = (x.happenings n).foldl (Standing.after x.before.desk.policy)
      (x.before.desk.standing n) := by
  have hf : ∀ a, a.isShown = false → x.before.desk.inputs n a = [] := by
    intro a ha
    cases a with
    | routed | worked => cases ha
    | _ => rfl
  obtain ⟨a, hdoes, ⟨ha, heq⟩ | ⟨ha, heq⟩⟩ := happeningsBy_cases hf n x
  · have hslot := (hdoes.slot? n).trans (DeskAct.slotAfter_of_registers ha)
    rw [happenings, heq, Desk.standing_of_waiting hslot]
    cases x.before.desk.standing n <;> rfl
  · rw [happenings, heq]
    exact hdoes.standing reached.sound.staffed ha

/-- **How a market will stand after a move.** -/
theorem outlook (x : Move) (reached : x.before.Reachable) (n : MarketId) :
    x.after.desk.outlook n = (x.entries n).foldl (Outlook.after x.before.desk.policy)
      (x.before.desk.outlook n) := by
  have hf : ∀ a, a.isShown = false → DeskAct.entries n a = [] := by
    intro a ha
    obtain ⟨-, hdelivered, hbuffered⟩ := DeskAct.brought_of_hidden (m := n) ha
    simp [DeskAct.entries, hdelivered, hbuffered]
  obtain ⟨a, hdoes, ⟨ha, heq⟩ | ⟨ha, heq⟩⟩ := happeningsBy_cases hf n x
  · have hslot := (hdoes.slot? n).trans (DeskAct.slotAfter_of_registers ha)
    rw [entries, heq, Desk.outlook_of_waiting hslot]
    cases x.before.desk.outlook n <;> rfl
  · rw [entries, heq]
    exact hdoes.outlook reached.sound.staffed ha

/-- **Nothing happens to a market** with a move that concerns another. -/
theorem silent (x : Move) (reached : x.before.Reachable) (hx : x.market? = some m)
    (hmn : m ≠ n) : x.happenings n = [] ∧ x.entries n = [] := by
  have hslot := (x.untouched reached hx hmn).slot
  have hacts := fun a ha => (x.isFor hx a ha).silent reached.sound.staffed hmn
  have hnew : ¬x.before.Registers x.label x.after n := by
    rintro (⟨hstart, -⟩ | ⟨hnone, hsome⟩)
    · rw [Move.market?, hstart] at hx
      cases hx
    · rw [hslot, hnone] at hsome
      cases hsome
  have hnothing : ∀ f : DeskAct → List Happening, (∀ a ∈ x.acts, f a = []) →
      x.happeningsBy f n = [] := by
    intro f hf
    rw [happeningsBy, if_neg hnew, Desk.turns_of_slot hslot, List.nil_append,
      List.flatMap_eq_nil_iff]
    exact hf
  exact ⟨hnothing _ fun a ha => (hacts a ha).1, hnothing _ fun a ha => (hacts a ha).2⟩

end Move

/-! ### Whole runs -/

namespace Trail

theorem policy (trail : Trail t xs t') : t'.desk.policy = t.desk.policy := by
  induction trail with
  | nil => rfl
  | @snoc xs x before ih =>
    obtain ⟨a, hdoes, -⟩ := step_does x.step
    exact hdoes.desk.policy_length.1.trans ih

/-- **How a market stands after some moves** follows from what has happened to it. -/
theorem standing (trail : Trail t xs t') (reached : t.Reachable) (n : MarketId) :
    t'.desk.standing n = (xs.flatMap (Move.happenings n)).foldl
      (Standing.after t.desk.policy) (t.desk.standing n) := by
  induction trail with
  | nil => rfl
  | @snoc xs x before ih =>
    rw [x.standing (before.reachable reached), before.policy, ih, List.flatMap_append,
      List.foldl_append, List.flatMap_singleton]

/-- **How a market will stand after some moves** follows from what has come to it. -/
theorem outlook (trail : Trail t xs t') (reached : t.Reachable) (n : MarketId) :
    t'.desk.outlook n = (xs.flatMap (Move.entries n)).foldl
      (Outlook.after t.desk.policy) (t.desk.outlook n) := by
  induction trail with
  | nil => rfl
  | @snoc xs x before ih =>
    rw [x.outlook (before.reachable reached), before.policy, ih, List.flatMap_append,
      List.foldl_append, List.flatMap_singleton]

/-- Every move of a trail begins in a state that is reached. -/
theorem before_reachable (trail : Trail t xs t') (reached : t.Reachable) :
    ∀ x ∈ xs, x.before.Reachable := by
  induction trail with
  | nil => exact fun x hx => absurd hx List.not_mem_nil
  | @snoc xs x before ih =>
    intro y hy
    rcases List.mem_append.mp hy with hy | hy
    · exact ih y hy
    · obtain rfl := List.mem_singleton.mp hy
      exact before.reachable reached

end Trail

/-- Some moves, without those that concern a market. -/
def without (m : MarketId) (xs : List Move) : List Move := xs.filter (·.market? ≠ some m)

/-- What says nothing of some moves is not missed when they are left out. -/
theorem flatMap_without {f : Move → List Happening}
    (h : ∀ x ∈ xs, x.market? = some m → f x = []) :
    (without m xs).flatMap f = xs.flatMap f := by
  induction xs with
  | nil => rfl
  | cons x xs ih =>
    have ih := ih fun y hy => h y (List.mem_cons_of_mem x hy)
    rw [List.flatMap_cons, ← ih]
    by_cases hx : x.market? = some m
    · rw [without, List.filter_cons_of_neg (by simpa using hx), h x List.mem_cons_self hx]
      rfl
    · rw [without, List.filter_cons_of_pos (by simpa using hx), List.flatMap_cons]
      rfl

/-- The moves that concern one market are nothing to another. -/
theorem Trail.without (trail : Trail t xs t') (reached : t.Reachable) (hmn : m ≠ n) :
    (Tracker.without m xs).flatMap (Move.happenings n) = xs.flatMap (Move.happenings n) ∧
      (Tracker.without m xs).flatMap (Move.entries n) = xs.flatMap (Move.entries n) := by
  have silent : ∀ x ∈ xs, x.market? = some m → x.happenings n = [] ∧ x.entries n = [] :=
    fun x hmem hx => x.silent (trail.before_reachable reached x hmem) hx hmn
  exact ⟨flatMap_without fun x hmem hx => (silent x hmem hx).1,
    flatMap_without fun x hmem hx => (silent x hmem hx).2⟩

/-- **Markets do not disturb each other.** Whatever concerns one market, events, steps of its
workers and steps of its being added or removed, leaves another untouched. So take any run, and any
other in which the second market stood at the beginning as it did in the first.

* If there happens to this market what happened to it in the first run without the moves that
  concern the first market, it stands in the end as it does after the first run.
* If its messages come to its worker in the order of the first run without these moves, whenever the
  worker takes them, it has in the end the same levels and sequence numbers, once nothing is left to
  take in both runs. -/
theorem markets_apart (hmn : m ≠ n) :
    (∀ x : Move, x.before.Reachable → x.market? = some m →
      x.before.desk.Untouched n x.after.desk) ∧
    ∀ {t t' u u' : Tracker} {xs ys : List Move}, t.Reachable → u.Reachable → Trail t xs t' →
      Trail u ys u' → u.desk.policy = t.desk.policy →
      (u.desk.standing n = t.desk.standing n →
        ys.flatMap (Move.happenings n) = (without m xs).flatMap (Move.happenings n) →
        u'.desk.standing n = t'.desk.standing n) ∧
      (u.desk.outlook n = t.desk.outlook n →
        ys.flatMap (Move.entries n) = (without m xs).flatMap (Move.entries n) →
        ∀ i w, t'.desk.slot? n = some (.active i) → t'.desk.worker? i = some w → w.backlog = [] →
        ∃ j v, u'.desk.slot? n = some (.active j) ∧ u'.desk.worker? j = some v ∧
          (v.backlog = [] →
            v.keeper.book.bids = w.keeper.book.bids ∧ v.keeper.book.asks = w.keeper.book.asks ∧
            v.keeper.book.snapshotSequence = w.keeper.book.snapshotSequence ∧
            v.keeper.book.lastDiff = w.keeper.book.lastDiff)) := by
  refine ⟨fun x reached hx => x.untouched reached hx hmn, ?_⟩
  intro t t' u u' xs ys ht hu trail trail' policy
  obtain ⟨hhappenings, hentries⟩ := trail.without ht hmn
  rw [hhappenings, hentries]
  constructor
  · intro start same
    rw [trail'.standing hu, trail.standing ht, start, same, policy]
  · intro start same i w slot worker drained
    have houtlook : u'.desk.outlook n = t'.desk.outlook n := by
      rw [trail'.outlook hu, trail.outlook ht, start, same, policy]
    rw [Desk.outlook_of_active slot worker, drained, BookKeeper.processAll_nil] at houtlook
    obtain ⟨j, v, slot', worker', hkeeper⟩ :=
      (trail'.reachable hu).sound.staffed.served houtlook
    refine ⟨j, v, slot', worker', fun drained' => ?_⟩
    rw [drained', BookKeeper.processAll_nil] at hkeeper
    exact Book.eq_of_untraded (congrArg BookKeeper.book hkeeper)

/-! ### Two markets, and one of them alone -/

/-- A tracker of the second market alone. -/
def sampleOther : Tracker :=
  { sample with config := { sample.config with markets := [⟨"ETH-USD"⟩] } }

/-- A diff of the second market, with one bid. -/
def otherDiff (n : ℕ) : Diff := ⟨⟨"ETH-USD"⟩, n, default, [⟨livePrice, olderPrice⟩], []⟩

/-- It comes in and is brought to the desk. -/
def bringOther (n : ℕ) : List Label :=
  [.receive 0 (.diff (otherDiff n)), .proceed (.router 0 .diff)]

/-- The first book of the second market is fetched, and the market is activated. -/
def activateOther : List Label :=
  [.proceed (.startup 0), .hear (.startup 0) (.book (.ok ⟨⟨"ETH-USD"⟩, 7, default, [], []⟩)),
    .proceed (.startup 0)]

/-- A run with both markets, whose events and steps alternate. -/
def together : List Label :=
  .start :: .proceed (.listener 0 (.stream .diff)) :: bringDiff 11 ++ bringOther 8 ++
    fetchBook 10 ++ [.proceed (.startup 0), .pass 1000 0, .proceed (.startup 0)] ++
    [.proceed (.worker 0)] ++ activateOther ++ bringDiff 12 ++ [.proceed (.worker 1)] ++
    bringOther 9 ++ [.proceed (.worker 0), .proceed (.worker 1)]

/-- The same for the second market, without the first. -/
def alone : List Label :=
  .start :: .proceed (.listener 0 (.stream .diff)) :: bringOther 8 ++ activateOther ++
    [.proceed (.worker 0)] ++ bringOther 9 ++ [.proceed (.worker 0)]

/-- The second market ends as it does alone, with the level of its two diffs, though seven moves
came in between that concern the first. One of these brings a diff of the first to the desk. -/
theorem markets_apart_sample : ∃ xs ys t u x j v, Trail samplePair xs t ∧ Trail sampleOther ys u ∧
    (without ⟨"BTC-USD"⟩ xs).length + 7 = xs.length ∧
    u.desk.standing ⟨"ETH-USD"⟩ = t.desk.standing ⟨"ETH-USD"⟩ ∧
    u.desk.slot? ⟨"ETH-USD"⟩ = some (.active j) ∧ u.desk.worker? j = some v ∧
    v.keeper.book.bids = [⟨livePrice, olderPrice⟩] ∧ v.keeper.book.lastDiff = some 9 ∧
    xs[3]? = some x ∧ x.market? = some ⟨"BTC-USD"⟩ ∧
    x.before.desk.Untouched ⟨"ETH-USD"⟩ x.after.desk := by
  have trail := trail_moves together samplePair
  have trail' := trail_moves alone sampleOther
  have reached : samplePair.Reachable := ⟨samplePair.config, samplePair, [], rfl, .refl _⟩
  have reached' : sampleOther.Reachable := ⟨sampleOther.config, sampleOther, [], rfl, .refl _⟩
  obtain ⟨untouched, same⟩ :=
    markets_apart (m := ⟨"BTC-USD"⟩) (n := ⟨"ETH-USD"⟩) (by decide)
  obtain ⟨standing, levels⟩ := same reached reached' trail trail' rfl
  obtain ⟨j, v, slot, worker, drained⟩ :=
    levels rfl (by decide +kernel) 1 _ (by decide +kernel) rfl (by decide +kernel)
  have first : (sampleOther.moves alone).2.desk.slot? ⟨"ETH-USD"⟩ = some (.active 0) := by
    decide +kernel
  have nothing : ((sampleOther.moves alone).2.desk.worker? 0).map Worker.backlog = some [] := by
    decide +kernel
  obtain rfl := Slot.active.inj (Option.some.inj (slot.symm.trans first))
  rw [worker] at nothing
  obtain ⟨hbids, -, -, hlast⟩ := drained (Option.some.inj nothing)
  exact ⟨_, _, _, _, _, 0, v, trail, trail', by decide +kernel, standing rfl (by decide +kernel),
    slot, worker, hbids.trans (by decide +kernel), hlast.trans (by decide +kernel), rfl,
    by decide +kernel,
    untouched _ (trail.before_reachable reached _ (List.mem_of_getElem? (i := 3) rfl))
      (by decide +kernel)⟩

end Tracker

end LiveBook
