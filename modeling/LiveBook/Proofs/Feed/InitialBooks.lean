import Mathlib.Data.List.Basic
import LiveBook.Feed.Basic

/-!
# The initial books of a feed

While a feed is being loaded, note is taken of every snapshot whose market has had none before. So
the initial book of a market is its first snapshot (`LiveBook.Feed.initialBook?_eq_some_iff`),
whatever comes later, and the markets with an initial book are those with a snapshot
(`LiveBook.Feed.mem_markets`).
-/

namespace LiveBook

/-- The snapshot of a market, if the event is one. -/
def Event.snapshotOf? (m : MarketId) : Event → Option Snapshot
  | .snapshot s => if s.market = m then some s else none
  | _ => none

theorem Event.snapshotOf?_eq_some_iff {e : Event} {m : MarketId} {s : Snapshot} :
    e.snapshotOf? m = some s ↔ e = .snapshot s ∧ s.market = m := by
  cases e with
  | snapshot s' =>
    rw [snapshotOf?]
    split
    next hm =>
      rw [Option.some.injEq, Event.snapshot.injEq]
      exact ⟨fun h => ⟨h, h ▸ hm⟩, fun h => h.1⟩
    next hm =>
      refine iff_of_false nofun ?_
      rintro ⟨heq, hm'⟩
      obtain rfl := Event.snapshot.inj heq
      exact hm hm'
  | diff | trade => simp [snapshotOf?]

namespace Feed

variable {f : Feed} {m : MarketId} {s : Snapshot} {es : List Event}

/-- **The first snapshot of a market** among events. -/
def IsFirst (es : List Event) (m : MarketId) (s : Snapshot) : Prop :=
  ∃ before after, es = before ++ .snapshot s :: after ∧ s.market = m ∧
    ∀ s', .snapshot s' ∈ before → s'.market ≠ m

theorem isFirst_iff : IsFirst es m s ↔ es.findSome? (Event.snapshotOf? m) = some s := by
  rw [List.findSome?_eq_some_iff]
  constructor
  · rintro ⟨before, after, rfl, hm, hbefore⟩
    refine ⟨before, _, after, rfl, Event.snapshotOf?_eq_some_iff.mpr ⟨rfl, hm⟩, fun e he => ?_⟩
    refine Option.eq_none_iff_forall_ne_some.mpr fun s' hs' => ?_
    obtain ⟨rfl, hm'⟩ := Event.snapshotOf?_eq_some_iff.mp hs'
    exact hbefore s' he hm'
  · rintro ⟨before, e, after, rfl, he, hbefore⟩
    obtain ⟨rfl, hm⟩ := Event.snapshotOf?_eq_some_iff.mp he
    refine ⟨before, after, rfl, hm, fun s' hs' hm' => ?_⟩
    have hsome := Event.snapshotOf?_eq_some_iff.mpr ⟨rfl, hm'⟩
    cases (hbefore _ hs').symm.trans hsome

theorem IsFirst.mem (h : IsFirst es m s) : .snapshot s ∈ es := by
  obtain ⟨before, after, rfl, -⟩ := h
  simp

/-! ### One event and all of them -/

/-- A book that was noted stays, and that of another market is noted. -/
theorem get?_noteBook (books : Table MarketId Snapshot) (e : Event) (m : MarketId) :
    (noteBook books e).get? m = (books.get? m).or (e.snapshotOf? m) := by
  cases e with
  | snapshot s => exact books.get?_insertIfNew s.market m s
  | diff | trade => exact Option.or_none.symm

/-- Of all events, the first snapshot counts. -/
theorem get?_foldl_noteBook (es : List Event) (books : Table MarketId Snapshot) (m : MarketId) :
    (es.foldl noteBook books).get? m =
      (books.get? m).or (es.findSome? (Event.snapshotOf? m)) := by
  induction es generalizing books with
  | nil => exact Option.or_none.symm
  | cons e es ih =>
    rw [List.foldl_cons, ih, get?_noteBook, Option.or_assoc, List.findSome?_cons]
    cases e.snapshotOf? m <;> rfl

theorem isMap_foldl_noteBook (es : List Event) {books : Table MarketId Snapshot}
    (h : books.IsMap) : (es.foldl noteBook books).IsMap := by
  induction es generalizing books with
  | nil => exact h
  | cons e es ih =>
    refine ih ?_
    cases e with
    | snapshot s => exact h.insertIfNew s.market s
    | diff | trade => exact h

/-! ### What was noted -/

/-- **The initial book of a market** is its first snapshot. -/
theorem initialBook?_eq_some_iff : f.initialBook? m = some s ↔ IsFirst f.events m s := by
  rw [isFirst_iff, initialBook?, f.noted, get?_foldl_noteBook]
  rfl

/-- The markets with an initial book are listed in ascending order, each of them once. -/
theorem ascending_markets (f : Feed) : f.markets.Pairwise (· < ·) := by
  have hmap := isMap_foldl_noteBook f.events Table.isMap_empty
  rw [← f.noted] at hmap
  exact MarketId.ascending_mergeSort id hmap

theorem mem_markets_iff : m ∈ f.markets ↔ ∃ s, f.initialBook? m = some s := by
  rw [markets, (List.mergeSort_perm _ _).mem_iff]
  exact Table.mem_keys_iff

/-- **The markets with an initial book** are those with a snapshot. -/
theorem mem_markets : m ∈ f.markets ↔ ∃ s, .snapshot s ∈ f.events ∧ s.market = m := by
  simp only [mem_markets_iff, initialBook?_eq_some_iff]
  constructor
  · rintro ⟨s, hs⟩
    obtain ⟨before, after, -, hm, -⟩ := id hs
    exact ⟨s, hs.mem, hm⟩
  · rintro ⟨s, hs, hm⟩
    simp only [isFirst_iff]
    refine Option.isSome_iff_exists.mp (List.findSome?_isSome_iff.mpr ⟨_, hs, ?_⟩)
    rw [Event.snapshotOf?_eq_some_iff.mpr ⟨rfl, hm⟩]
    rfl

theorem initialBook?_eq_none_iff : f.initialBook? m = none ↔ m ∉ f.markets := by
  rw [mem_markets_iff, ← Option.isSome_iff_exists, Bool.not_eq_true, Option.isSome_eq_false_iff,
    Option.isNone_iff_eq_none]

/-! ### A feed of some events -/

theorem events_foldl_push (es : List Event) (f : Feed) :
    (es.foldl push f).events = f.events ++ es := by
  induction es generalizing f with
  | nil => exact (List.append_nil _).symm
  | cons e es ih =>
    rw [List.foldl_cons, ih, push, List.append_assoc]
    rfl

@[simp] theorem events_ofEvents (es : List Event) : (ofEvents es).events = es :=
  events_foldl_push es empty

end Feed

end LiveBook
