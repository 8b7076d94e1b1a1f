import LiveBook.App.Error
import LiveBook.Event.Codec
import LiveBook.Table

/-!
# Recorded feeds

A recorded feed is a text with one event a line, in the order in which the events
happened. Blank lines and lines that begin with `#` do not count, but are counted. The
first snapshot of a market in the feed is its initial book.

* `LiveBook.Feed`, `LiveBook.Feed.push` – a feed, and an event more;
* `LiveBook.Feed.ofText` – the feed that a text holds, or the first line that is no event;
* `LiveBook.Feed.markets`, `LiveBook.Feed.initialBook?` – the initial books.
-/

namespace LiveBook

/-- Takes note of a snapshot, unless its market has had one before. -/
def Feed.noteBook (books : Table MarketId Snapshot) : Event → Table MarketId Snapshot
  | .snapshot s => books.insertIfNew s.market s
  | _ => books

/-- **A recorded feed.** -/
structure Feed where
  events : List Event
  /-- The initial books, of which note was taken event by event. -/
  initialBooks : Table MarketId Snapshot
  noted : initialBooks = events.foldl Feed.noteBook .empty
deriving DecidableEq

/-- Why a text is no feed: a line, counted from one, is no event. -/
structure FeedError where
  line : Nat
  cause : Json.DecodeError
deriving DecidableEq, Repr

/-- The error as one of the application. -/
def FeedError.toAppError (e : FeedError) : AppError :=
  .replay e.line ("could not decode stream event: " ++ e.cause.message)

namespace Feed

/-- The lines of a text. -/
def splitLines : List Char → List (List Char)
  | [] => [[]]
  | c :: rest =>
    if c = '\n' then [] :: splitLines rest
    else
      match splitLines rest with
      | [] => [[c]]
      | line :: lines => (c :: line) :: lines

/-- Whether a line, white space at its ends apart, does not count. -/
def isIgnored (line : List Char) : Bool := line.isEmpty || line.head? == some '#'

/-- A feed without any event. -/
def empty : Feed := ⟨[], .empty, rfl⟩

instance : Inhabited Feed := ⟨empty⟩

/-- One event more. -/
def push (f : Feed) (e : Event) : Feed where
  events := f.events ++ [e]
  initialBooks := noteBook f.initialBooks e
  noted := by rw [List.foldl_append, ← f.noted]; rfl

/-- The feed with some events. -/
def ofEvents (es : List Event) : Feed := es.foldl push empty

/-- Reads lines on top of a feed. The first of them has the number `n`. -/
def readLines (received : Time.Timestamp) (f : Feed) (n : Nat) :
    List (List Char) → Except FeedError Feed
  | [] => .ok f
  | line :: rest =>
    let line := Text.trimChars line
    if isIgnored line then readLines received f (n + 1) rest
    else
      match Event.decode received (String.ofList line) with
      | .error e => .error ⟨n, e⟩
      | .ok e => readLines received (f.push e) (n + 1) rest

/-- **The feed that a text holds.** Events without a time get the time `received`. -/
def ofText (received : Time.Timestamp) (text : String) : Except FeedError Feed :=
  readLines received empty 1 (splitLines text.toList)

/-- The initial book of a market. -/
def initialBook? (f : Feed) (m : MarketId) : Option Snapshot := f.initialBooks.get? m

/-- The markets with an initial book, in their order. -/
def markets (f : Feed) : List MarketId :=
  f.initialBooks.keys.mergeSort fun a b => (compare a b).isLE

end Feed

end LiveBook
