import LiveBook.Event.Basic

/-!
# One side of a book

A side is the list of its levels in ascending order of price. Prices are compared by
value, and the price that is *shown* for a level is one of the decimals that were
given for it. There are two ways to put a level onto a side, and they differ in just
that:

* `LiveBook.Side.upsert` – a change to a level that exists keeps the price shown so far;
* `LiveBook.Side.replace` – of several levels with one price, the last is the one that
  counts, with the price as it is given there.

`LiveBook.Side.merge` applies a list of changes, and `LiveBook.Side.ofLevels` builds a
side from a list of levels.
-/

namespace LiveBook

/-- The levels of one side, in ascending order of price. -/
abbrev Side := List Level

namespace Side

/-- Puts a level at its place; `onEqual old new` is what remains of two levels with one
price. -/
def place (onEqual : Level → Level → Level) (l : Level) : Side → Side
  | [] => [l]
  | x :: rest =>
    match l.price.compareValue x.price with
    | .lt => l :: x :: rest
    | .eq => onEqual x l :: rest
    | .gt => x :: place onEqual l rest

/-- Sets the size at a price; a level that exists keeps the price it shows. -/
def upsert (l : Level) (s : Side) : Side :=
  s.place (fun old new => { old with size := new.size }) l

/-- Puts a level in place of any other with the same price. -/
def replace (l : Level) (s : Side) : Side := s.place (fun _ new => new) l

/-- Takes the level at a price off the side. -/
def erase (price : Decimal) (s : Side) : Side :=
  s.filter fun x => !x.price.sameValue price

/-- The level at a price. -/
def find? (price : Decimal) (s : Side) : Option Level :=
  List.find? (fun x => x.price.sameValue price) s

/-- The size at a price. -/
def size? (price : Decimal) (s : Side) : Option Decimal := (s.find? price).map Level.size

/-- Applies one change: size zero takes the level away, any other sets it. -/
def change (s : Side) (l : Level) : Side :=
  if l.size.isZero then s.erase l.price else s.upsert l

/-- Applies changes in their order. -/
def merge (s : Side) (changes : List Level) : Side := changes.foldl change s

/-- The side with the given levels, without those of size zero. -/
def ofLevels (levels : List Level) : Side :=
  (levels.filter fun l => !l.size.isZero).foldl (fun s l => s.replace l) []

theorem merge_nil (s : Side) : s.merge [] = s := rfl

theorem merge_cons (s : Side) (l : Level) (changes : List Level) :
    s.merge (l :: changes) = (s.change l).merge changes := rfl

theorem merge_append (s : Side) (xs ys : List Level) :
    s.merge (xs ++ ys) = (s.merge xs).merge ys := by
  simp [merge]

end Side

end LiveBook
