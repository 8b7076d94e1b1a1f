import LiveBook.Book.Side

/-!
# The book of a market

A book has two sides, the sequence number of the snapshot that it was built from, and
the highest sequence number of a diff applied since. It also remembers the price of the
last trade, and when that price was last touched.

* `LiveBook.Book` – the book;
* `LiveBook.Book.applyDiff`, `LiveBook.Book.applySnapshot` – changes and replacement of the
  levels; levels with a negative price or size are refused, and then nothing changes;
* `LiveBook.Book.restore` – a snapshot, and on top of it the recent diffs that are newer;
* `LiveBook.Book.isStale` – whether a diff is too old to be applied, under a
  `LiveBook.StalenessPolicy`;
* `LiveBook.Book.needsRefresh` – whether the price of the last trade should be asked for.
-/

namespace LiveBook

/-- An instant on the clock that stamps books, in nanoseconds. -/
abbrev Instant := Int

/-- The nanoseconds from one instant to a later one; none if it is not later. -/
def Instant.since (now earlier : Instant) : Nat := (now - earlier).toNat

theorem Instant.lt_since_iff {now t : Instant} {n : Nat} :
    n < Instant.since now t ↔ t + n < now := by
  unfold Instant.since
  rw [Int.lt_toNat]
  exact ⟨Int.add_lt_of_lt_sub_left, Int.lt_sub_left_of_add_lt⟩

theorem Instant.le_since_iff {now t : Instant} {n : Nat} (past : t ≤ now) :
    n ≤ Instant.since now t ↔ t + n ≤ now := by
  unfold Instant.since
  rw [Int.le_toNat (Int.sub_nonneg_of_le past)]
  exact ⟨Int.add_le_of_le_sub_left, Int.le_sub_left_of_add_le⟩

/-- Which diffs count as stale. -/
inductive StalenessPolicy where
  /-- Those that are not newer than the snapshot. -/
  | snapshotOnly
  /-- Also those that are not newer than the last diff that was applied. -/
  | strictlyIncreasing
deriving DecidableEq, Repr, Inhabited

/-- What is wrong with a level. -/
inductive LevelFault where
  | negativePrice (price : Decimal)
  | negativeSize (size price : Decimal)
deriving DecidableEq

/-- The wording of a fault. -/
def LevelFault.message : LevelFault → String
  | .negativePrice p => "negative price " ++ p.text
  | .negativeSize s p => "negative size " ++ s.text ++ " at " ++ p.text

/-- Why a book refuses an update. -/
inductive BookError where
  /-- A level of the update is invalid. -/
  | invalidLevel (market : MarketId) (sequence : Nat) (fault : LevelFault)
  /-- The snapshot is one of another market. -/
  | marketMismatch (expected got : MarketId)
deriving DecidableEq

/-- The wording of an error. -/
def BookError.message : BookError → String
  | .invalidLevel m n f =>
    "Invalid level in " ++ m.name ++ " at sequence " ++ Digits.natText n ++ ": " ++ f.message
  | .marketMismatch expected got =>
    "Snapshot for " ++ got.name ++ " applied to book of " ++ expected.name

/-- **The book of a market.** -/
structure Book where
  market : MarketId
  bids : Side
  asks : Side
  /-- The sequence number of the last snapshot. -/
  snapshotSequence : Nat
  /-- The highest sequence number of a diff applied since that snapshot. -/
  lastDiff : Option Nat
  /-- The price of the last trade. -/
  lastTrade : Option Decimal
  /-- When a trade was last applied. -/
  tradedAt : Option Instant
  /-- When the price of the last trade was last asked for. -/
  refreshedAt : Option Instant
deriving DecidableEq, Inhabited

namespace Book

/-- The book of a market without any level. -/
def empty (market : MarketId) : Book where
  market := market
  bids := []
  asks := []
  snapshotSequence := 0
  lastDiff := none
  lastTrade := none
  tradedAt := none
  refreshedAt := none

/-- The highest sequence number that the book reflects. -/
def watermark (b : Book) : Nat := max b.snapshotSequence (b.lastDiff.getD 0)

/-! ### Updates of the levels -/

/-- The first fault among the levels, the price of a level before its size. -/
def levelFault? : List Level → Option LevelFault
  | [] => none
  | l :: rest =>
    if l.price.isNegative then some (.negativePrice l.price)
    else if l.size.isNegative then some (.negativeSize l.size l.price)
    else levelFault? rest

/-- Refuses an update with an invalid level, bids before asks. -/
def validate (b : Book) (bids asks : List Level) (sequence : Nat) : Except BookError Unit :=
  match (levelFault? bids).or (levelFault? asks) with
  | some f => .error (.invalidLevel b.market sequence f)
  | none => .ok ()

/-- The book with changes merged into its levels, whatever they are. -/
def mergeDiff (b : Book) (bids asks : List Level) (sequence : Nat) : Book :=
  { b with
    bids := b.bids.merge bids
    asks := b.asks.merge asks
    lastDiff := some (max sequence (b.lastDiff.getD 0)) }

/-- The book with its levels replaced, whatever they are. -/
def replaceLevels (b : Book) (bids asks : List Level) (sequence : Nat) : Book :=
  { b with
    bids := Side.ofLevels bids
    asks := Side.ofLevels asks
    snapshotSequence := sequence
    lastDiff := none }

/-- Merges changes into the levels. Whether the changes are stale is for the caller to
decide. -/
def applyDiff (b : Book) (bids asks : List Level) (sequence : Nat) : Except BookError Book := do
  b.validate bids asks sequence
  return b.mergeDiff bids asks sequence

/-- Replaces all levels. -/
def applySnapshot (b : Book) (bids asks : List Level) (sequence : Nat) :
    Except BookError Book := do
  b.validate bids asks sequence
  return b.replaceLevels bids asks sequence

/-- The book that a snapshot describes. -/
def ofSnapshot (s : Snapshot) : Except BookError Book :=
  (empty s.market).applySnapshot s.bids s.asks s.sequence

/-- Refuses a list of diffs one of which has an invalid level. -/
def validateAll (b : Book) : List Diff → Except BookError Unit
  | [] => .ok ()
  | d :: rest => do
    b.validate d.bids d.asks d.sequence
    b.validateAll rest

/-- Merges a list of diffs that were validated. -/
def mergeAll (b : Book) (diffs : List Diff) : Book :=
  diffs.foldl (fun b d => b.mergeDiff d.bids d.asks d.sequence) b

/-- Applies a snapshot, and on top of it those of the recent diffs that are newer, in
the order given. Everything is validated first, so that either all of it happens or
nothing. The second result is the number of diffs applied again. -/
def restore (b : Book) (s : Snapshot) (recent : List Diff) : Except BookError (Book × Nat) := do
  if s.market ≠ b.market then throw (.marketMismatch b.market s.market)
  let newer := recent.filter fun d => s.sequence < d.sequence
  b.validateAll newer
  let b ← b.applySnapshot s.bids s.asks s.sequence
  return (b.mergeAll newer, newer.length)

/-- Whether a diff with this sequence number is too old to be applied. -/
def isStale (b : Book) (policy : StalenessPolicy) (sequence : Nat) : Bool :=
  sequence ≤ b.snapshotSequence ||
    match policy with
    | .snapshotOnly => false
    | .strictlyIncreasing => b.lastDiff.any fun last => sequence ≤ last

/-! ### The price of the last trade -/

/-- Records a trade. -/
def applyTrade (b : Book) (price : Decimal) (now : Instant) : Book :=
  { b with lastTrade := some price, tradedAt := some now }

/-- Records a price that was asked for. -/
def applyRefresh (b : Book) (price : Decimal) (now : Instant) : Book :=
  { b with lastTrade := some price, refreshedAt := some now }

/-- Records that a price was asked for in vain. -/
def touchRefresh (b : Book) (now : Instant) : Book :=
  { b with refreshedAt := some now }

/-- Whether more than `limit` nanoseconds have passed since an instant, if there is one. -/
def longSince (now : Instant) (limit : Nat) (then? : Option Instant) : Bool :=
  then?.all fun t => limit < Instant.since now t

/-- Whether the price of the last trade should be asked for: no trade for longer than
`staleAfter`, and not asked for longer than `minInterval`, both in nanoseconds. -/
def needsRefresh (b : Book) (now : Instant) (staleAfter minInterval : Nat) : Bool :=
  longSince now staleAfter b.tradedAt && longSince now minInterval b.refreshedAt

/-! ### The best prices -/

/-- The highest bid. -/
def bestBid (b : Book) : Option Level := b.bids.getLast?

/-- The lowest ask. -/
def bestAsk (b : Book) : Option Level := b.asks.head?

/-! ### Small facts -/

theorem applyDiff_eq (b : Book) (bids asks : List Level) (n : Nat) :
    b.applyDiff bids asks n = (b.validate bids asks n).map fun _ => b.mergeDiff bids asks n := by
  unfold applyDiff
  cases b.validate bids asks n <;> rfl

theorem mergeDiff_market (b : Book) (bids asks : List Level) (n : Nat) :
    (b.mergeDiff bids asks n).market = b.market := rfl

theorem isStale_of_le_snapshot {b : Book} {n : Nat} (policy : StalenessPolicy)
    (h : n ≤ b.snapshotSequence) : b.isStale policy n = true := by
  simp [isStale, h]

end Book

end LiveBook
