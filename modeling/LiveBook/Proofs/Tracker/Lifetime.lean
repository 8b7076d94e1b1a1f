import LiveBook.Proofs.Desk.Service
import LiveBook.Proofs.Tracker.Reachable

/-!
# The lifetime of a market

From its registration until it is registered anew a market lives once. Along any steps of a
tracker within such a lifetime (`LiveBook.Tracker.StepsWithin`), the effects tell which
messages were brought for the market, set aside, delivered and taken. The main statement,
`LiveBook.Tracker.backlog_of_registers`, is that none of them is lost, doubled or moved: while
the market waits for its first book, the last diffs that were brought are set aside; ever
after, what its worker has taken, and then what the worker has still to take, are these diffs
and then what was delivered.
-/

namespace LiveBook

namespace Tracker

variable {t t' t'' t₁ t₂ : Tracker} {m : MarketId} {l : Label} {fx : List TrackerEffect}
  {tr : List (Label × List TrackerEffect)}

/-! ### Lifetimes -/

/-- Some steps within one lifetime of a market: none of them registers it. -/
inductive StepsWithin (m : MarketId) (t : Tracker) :
    List (Label × List TrackerEffect) → Tracker → Prop where
  | refl : StepsWithin m t [] t
  | tail {es : List (Label × List TrackerEffect)} {t' t'' : Tracker} {l : Label}
      {fx : List TrackerEffect} (steps : StepsWithin m t es t')
      (last : t'.step l = some (t'', fx)) (lives : ¬t'.Registers l t'' m) :
      StepsWithin m t (es ++ [(l, fx)]) t''

namespace StepsWithin

theorem reachable (steps : StepsWithin m t tr t') (h : t.Reachable) : t'.Reachable := by
  induction steps with
  | refl => exact h
  | tail _ last _ ih => exact ih.step last

theorem head (first : t.step l = some (t', fx)) (lives : ¬t.Registers l t' m)
    (steps : StepsWithin m t' tr t'') : StepsWithin m t ((l, fx) :: tr) t'' := by
  induction steps with
  | refl => exact .tail .refl first lives
  | tail _ last lives' ih => exact .tail ih last lives'

end StepsWithin

/-- The steps with these labels, if there are such, as long as the market has a slot and no
run begins. -/
def stepAll (m : MarketId) (t : Tracker) :
    List Label → Option (Tracker × List (Label × List TrackerEffect))
  | [] => some (t, [])
  | .start :: _ => none
  | l :: ls =>
    if (t.desk.slot? m).isSome then do
      let (t', fx) ← t.step l
      let (t'', es) ← t'.stepAll m ls
      return (t'', (l, fx) :: es)
    else none

/-- **Where the market has a slot, only starts can register it.** -/
theorem stepsWithin_of_stepAll (ls : List Label) (h : t.stepAll m ls = some (t', tr)) :
    StepsWithin m t tr t' := by
  induction ls generalizing t tr with
  | nil =>
    obtain ⟨rfl, rfl⟩ := Prod.mk.inj (Option.some.inj h)
    exact .refl
  | cons l ls ih =>
    have hl : l ≠ .start := by
      rintro rfl
      cases h
    rw [stepAll] at h
    · split at h
      next hslot =>
        obtain ⟨⟨t₁, fx⟩, hfirst, h⟩ := Option.bind_eq_some_iff.mp h
        obtain ⟨⟨t₂, es⟩, hrest, h⟩ := Option.bind_eq_some_iff.mp h
        obtain ⟨rfl, rfl⟩ := Prod.mk.inj (Option.some.inj h)
        refine .head hfirst ?_ (ih hrest)
        rintro (⟨hstart, -⟩ | ⟨hnone, -⟩)
        · exact hl hstart
        · rw [hnone] at hslot
          cases hslot
      next => cases h
    · exact hl

/-- What some steps show of the desk. -/
def acts (tr : List (Label × List TrackerEffect)) : List DeskAct :=
  (tr.flatMap (·.2)).filterMap TrackerEffect.act?

/-- **Some steps of a tracker are acts at its desk**, of which they show those with events and
workers. -/
theorem StepsWithin.doesAll (steps : StepsWithin m t tr t') :
    t'.config = t.config ∧ ∃ xs, t.desk.DoesAll xs t'.desk ∧
      xs.filter DeskAct.isShown = acts tr ∧ ∀ x ∈ xs, ∀ c, ¬x.Registers m c := by
  induction steps with
  | refl => exact ⟨rfl, [], .nil, rfl, fun _ h => by cases h⟩
  | @tail es t' t'' l fx _ last lives ih =>
    obtain ⟨hconfig, xs, hacts, hshown, hxs⟩ := ih
    obtain ⟨x, hdoes, hx⟩ := step_does last
    refine ⟨hdoes.config.trans hconfig, xs ++ [x], .snoc hacts hdoes.desk, ?_, ?_⟩
    · rw [List.filter_append, hshown, ← hdoes.shown, acts, acts, List.flatMap_append,
        List.filterMap_append, List.flatMap_singleton]
    · intro y hy c hc
      rcases List.mem_append.mp hy with hy | hy
      · exact hxs y hy c hc
      · obtain rfl := List.mem_singleton.mp hy
        exact lives ((hx m).1.mpr ⟨c, hc⟩)

/-! ### What the steps show -/

/-- The messages that were brought for a market, in their order. -/
def brought (m : MarketId) (tr : List (Label × List TrackerEffect)) : List BookMessage :=
  (acts tr).flatMap (DeskAct.brought m)

/-- Those of them that went into the queue of its worker. -/
def delivered (m : MarketId) (tr : List (Label × List TrackerEffect)) : List BookMessage :=
  (acts tr).flatMap (DeskAct.delivered m)

/-- The diffs that were set aside for a market, in their order. -/
def buffered (m : MarketId) (tr : List (Label × List TrackerEffect)) : List Diff :=
  (acts tr).flatMap (DeskAct.buffered m)

/-- The messages that a worker has taken, in their order. -/
def taken (i : ℕ) (tr : List (Label × List TrackerEffect)) : List BookMessage :=
  (acts tr).flatMap (DeskAct.taken i)

theorem flatMap_filter_isShown {α : Type} {f : DeskAct → List α}
    (hf : ∀ x, x.isShown = false → f x = []) (xs : List DeskAct) :
    (xs.filter DeskAct.isShown).flatMap f = xs.flatMap f := by
  induction xs with
  | nil => rfl
  | cons x xs ih =>
    rw [List.filter_cons, List.flatMap_cons]
    split
    · rw [List.flatMap_cons, ih]
    next hx => rw [hf x (by simpa using hx), List.nil_append, ih]

section

variable {xs : List DeskAct} (h : xs.filter DeskAct.isShown = acts tr)

include h

theorem brought_eq (m : MarketId) : brought m tr = xs.flatMap (DeskAct.brought m) := by
  rw [brought, ← h, flatMap_filter_isShown fun x hx => (DeskAct.brought_of_hidden hx).1]

theorem delivered_eq (m : MarketId) : delivered m tr = xs.flatMap (DeskAct.delivered m) := by
  rw [delivered, ← h, flatMap_filter_isShown fun x hx => (DeskAct.brought_of_hidden hx).2.1]

theorem buffered_eq (m : MarketId) : buffered m tr = xs.flatMap (DeskAct.buffered m) := by
  rw [buffered, ← h, flatMap_filter_isShown fun x hx => (DeskAct.brought_of_hidden hx).2.2]

theorem taken_eq (i : ℕ) : taken i tr = xs.flatMap (DeskAct.taken i) := by
  rw [taken, ← h, flatMap_filter_isShown fun x hx => DeskAct.taken_of_hidden hx i]

end

/-! ### From the registration on -/

/-- A market that was just registered waits, and nothing is set aside. -/
theorem slot?_of_registers (h : t.step l = some (t', fx)) (hm : t.Registers l t' m) :
    t'.desk.slot? m = some (.initializing (.ofCapacity t.config.pendingCapacity)) := by
  obtain ⟨x, hdoes, hx⟩ := step_does h
  obtain ⟨c, hc⟩ := (hx m).1.mp hm
  obtain rfl := (hx m).2 c hc
  rw [hdoes.desk.slot? m, DeskAct.slotAfter_of_registers hc]

/-- **Nothing is lost, doubled or moved where a market becomes active.** From its
registration on, whatever happens in whatever order: while the market waits for its first
book, the last diffs that were brought are set aside, as many as the capacity allows. And
once it is active, what its worker has taken, and then what the worker has still to take, are
the last of the diffs that were set aside and then what was delivered, each once and in
order. -/
theorem backlog_of_registers (reached : t.Reachable) (first : t.step l = some (t₁, fx))
    (registers : t.Registers l t₁ m) (steps : StepsWithin m t₁ tr t₂) :
    (∀ p, t₂.desk.slot? m = some (.initializing p) →
      p.toList = (diffsOf (brought m tr)).rtake t.config.pendingCapacity) ∧
    ∀ i, t₂.desk.slot? m = some (.active i) → ∃ w, t₂.desk.worker? i = some w ∧ w.market = m ∧
      taken i tr ++ (w.pending.map .diff ++ w.queue) =
        ((buffered m tr).rtake t.config.pendingCapacity).map .diff ++ delivered m tr := by
  have hroom : max t.config.pendingCapacity 1 = t.config.pendingCapacity :=
    Nat.max_eq_left reached.sound.room
  obtain ⟨-, xs, hacts, hshown, hxs⟩ := steps.doesAll
  have serves := hacts.serves (reached.step first).sound.staffed
    (slot?_of_registers first registers) hxs
  rw [brought_eq hshown, buffered_eq hshown, delivered_eq hshown]
  refine ⟨fun p hp => ?_, fun i hi => ?_⟩
  · obtain ⟨rfl, hbuffered, -⟩ := serves.waiting p hp
    rw [PendingDiffs.toList_pushAll_ofCapacity, hroom, hbuffered]
  · obtain ⟨w, hw, hbacklog⟩ := serves.active i hi
    obtain ⟨w', hw', hm⟩ := serves.staffed m i hi
    obtain rfl := Option.some.inj (hw.symm.trans hw')
    rw [PendingDiffs.toList_pushAll_ofCapacity, hroom] at hbacklog
    rw [taken_eq hshown]
    exact ⟨w, hw, hm, hbacklog⟩

/-! ### One diff too many

Two diffs are set aside, and a third one takes the place of the first. A fourth one comes when
the market is active. -/

/-- A tracker of one market, with room for two diffs that come early. -/
def sample : Tracker where
  config := { markets := [⟨"BTC-USD"⟩], pendingCapacity := 2, enforceMonotonic := true }
  desk := .empty .strictlyIncreasing (.ofConfig {} 0)
  ready := {}
  run := none
  runs := []
  requests := []
  lock := []
  clock := 0
  now := 0

/-- That tracker once a run has begun. -/
def sampleStarted : Tracker :=
  { sample with
    desk := { sample.desk with
      slots := ⟨[(⟨"BTC-USD"⟩, .initializing 2)]⟩
      metrics := sample.desk.metrics.markStarted 0 }
    run := some 0
    runs := [.begin [⟨"BTC-USD"⟩] true] }

theorem reachable_sample : sample.Reachable := ⟨sample.config, sample, [], rfl, .refl _⟩

/-- A diff of that market, without any level. -/
def sampleDiff (n : ℕ) : Diff := ⟨⟨"BTC-USD"⟩, n, default, [], []⟩

/-- A snapshot of that market, without any level. -/
def sampleSnapshot (n : ℕ) : Snapshot := ⟨⟨"BTC-USD"⟩, n, default, [], []⟩

/-- A diff comes in and is brought to the desk. -/
def bringDiff (n : ℕ) : List Label :=
  [.receive 0 (.diff (sampleDiff n)), .proceed (.router 0 .diff)]

/-- The first book of the market is fetched. -/
def fetchBook (n : ℕ) : List Label :=
  [.proceed (.startup 0), .hear (.startup 0) (.book (.ok (sampleSnapshot n)))]

/-- The first of the four diffs is lost, and no other one. -/
theorem backlog_of_sample : ∃ t₂ tr w, sample.Reachable ∧
    sample.step .start = some (sampleStarted, []) ∧
    sample.Registers .start sampleStarted ⟨"BTC-USD"⟩ ∧
    StepsWithin ⟨"BTC-USD"⟩ sampleStarted tr t₂ ∧
    t₂.desk.slot? ⟨"BTC-USD"⟩ = some (.active 0) ∧ t₂.desk.worker? 0 = some w ∧
    taken 0 tr ++ (w.pending.map .diff ++ w.queue) =
      [.diff (sampleDiff 12), .diff (sampleDiff 13), .diff (sampleDiff 14)] := by
  have registers : sample.Registers .start sampleStarted ⟨"BTC-USD"⟩ :=
    .inl ⟨rfl, rfl, by decide⟩
  have steps := stepsWithin_of_stepAll (t := sampleStarted) (m := ⟨"BTC-USD"⟩)
    (.proceed (.listener 0 (.stream .diff)) :: bringDiff 11 ++ bringDiff 12 ++ bringDiff 13 ++
      fetchBook 11 ++ [.proceed (.startup 0)] ++ bringDiff 14 ++ [.proceed (.worker 0)]) rfl
  obtain ⟨w, hw, -, hbacklog⟩ :=
    (backlog_of_registers reachable_sample rfl registers steps).2 0 rfl
  exact ⟨_, _, w, reachable_sample, rfl, registers, steps, rfl, hw, hbacklog⟩

end Tracker

end LiveBook
