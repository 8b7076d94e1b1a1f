import LiveBook.Book.Basic
import LiveBook.Recent

/-!
# Keeping a book up to date

A keeper takes messages one after the other and changes the book accordingly. Diffs that
are stale are dropped, and the last diffs that were applied are remembered: a snapshot
may be older than they are, and then they are applied again on top of it. A message that
the book refuses changes nothing.

`LiveBook.BookKeeper.process` takes in one message, `LiveBook.BookKeeper.processAll` many.
-/

namespace LiveBook

/-- A book and the diffs that were last applied to it. -/
structure BookKeeper where
  book : Book
  recent : Recent Diff
deriving DecidableEq, Inhabited

/-- What became of a message. -/
inductive Verdict where
  /-- The diff was applied. -/
  | applied
  /-- The diff was too old. -/
  | stale
  /-- The snapshot was applied, and so many diffs on top of it. -/
  | restored (replayed : Nat)
  /-- The book refused it. -/
  | refused (cause : BookError)
deriving DecidableEq

namespace BookKeeper

/-- A keeper that remembers no diff yet. -/
def ofBook (book : Book) (capacity : Nat) : BookKeeper := ⟨book, .ofCapacity capacity⟩

/-- Takes in a diff. -/
def processDiff (policy : StalenessPolicy) (k : BookKeeper) (d : Diff) : BookKeeper × Verdict :=
  if k.book.isStale policy d.sequence then (k, .stale)
  else
    match k.book.applyDiff d.bids d.asks d.sequence with
    | .ok book => (⟨book, k.recent.push d⟩, .applied)
    | .error e => (k, .refused e)

/-- Takes in a snapshot. -/
def processSnapshot (k : BookKeeper) (s : Snapshot) : BookKeeper × Verdict :=
  match k.book.restore s k.recent.toList with
  | .ok (book, n) => ({ k with book := book }, .restored n)
  | .error e => (k, .refused e)

/-- **Takes in a message.** -/
def process (policy : StalenessPolicy) (k : BookKeeper) : BookMessage → BookKeeper × Verdict
  | .diff d => k.processDiff policy d
  | .snapshot s => k.processSnapshot s

/-- Takes in messages one after the other. -/
def processAll (policy : StalenessPolicy) (k : BookKeeper) (ms : List BookMessage) : BookKeeper :=
  ms.foldl (fun k m => (k.process policy m).1) k

/-! ### Small facts -/

@[simp]
theorem processAll_nil (policy : StalenessPolicy) (k : BookKeeper) :
    k.processAll policy [] = k := rfl

@[simp]
theorem processAll_cons (policy : StalenessPolicy) (k : BookKeeper) (m : BookMessage)
    (ms : List BookMessage) :
    k.processAll policy (m :: ms) = (k.process policy m).1.processAll policy ms := rfl

theorem processAll_append (policy : StalenessPolicy) (k : BookKeeper)
    (ms ms' : List BookMessage) :
    k.processAll policy (ms ++ ms') = (k.processAll policy ms).processAll policy ms' :=
  List.foldl_append

/-- A message that the book refuses changes nothing. -/
theorem process_refused {policy : StalenessPolicy} {k k' : BookKeeper} {m : BookMessage}
    {e : BookError} (h : k.process policy m = (k', .refused e)) : k' = k := by
  unfold process processDiff processSnapshot at h
  grind

/-- A stale diff changes nothing. -/
theorem process_stale {policy : StalenessPolicy} {k k' : BookKeeper} {m : BookMessage}
    (h : k.process policy m = (k', .stale)) : k' = k := by
  unfold process processDiff processSnapshot at h
  grind

end BookKeeper

end LiveBook
