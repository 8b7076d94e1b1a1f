import LiveBook.Book.Basic

/-!
# Looking at a book

A view is what a reader of a book gets: both sides with the best price first, and the
figures that follow from the best prices.

* `LiveBook.BookView`, `LiveBook.Book.view` – the view of a book;
* `LiveBook.BookView.mid?` – the middle between the best prices;
* `LiveBook.BookView.spreadBps?` – the distance between them, in ten-thousandths of the
  middle.
-/

namespace LiveBook

/-- What a reader sees of a book, best prices first. -/
structure BookView where
  market : MarketId
  snapshotSequence : Nat
  lastDiff : Option Nat
  bids : List Level
  asks : List Level
  lastTrade : Option Decimal
deriving DecidableEq, Inhabited

/-- The view of a book. -/
def Book.view (b : Book) : BookView where
  market := b.market
  snapshotSequence := b.snapshotSequence
  lastDiff := b.lastDiff
  bids := b.bids.reverse
  asks := b.asks
  lastTrade := b.lastTrade

namespace BookView

/-- The highest bid. -/
def bestBid (v : BookView) : Option Level := v.bids.head?

/-- The lowest ask. -/
def bestAsk (v : BookView) : Option Level := v.asks.head?

/-- The middle between the best prices, if both sides have one and it can be computed. -/
def mid? (v : BookView) : Option Decimal := do
  (← v.bestBid).price.mid? (← v.bestAsk).price

/-- The number of basis points in one. -/
def basisPoints : Decimal := Decimal.ofNat 10000

/-- The distance of the best prices in basis points of their middle; there is none if the
middle is zero. -/
def spreadBps? (v : BookView) : Option Decimal := do
  let bid ← v.bestBid
  let ask ← v.bestAsk
  let mid ← v.mid?
  if mid.isZero then none
  else (← (← ask.price.sub? bid.price).div? mid).mul? basisPoints

/-- The first levels of both sides. -/
def top (v : BookView) (depth : Nat) : List Level × List Level :=
  (v.bids.take depth, v.asks.take depth)

end BookView

theorem Book.bestBid_view (b : Book) : b.view.bestBid = b.bestBid := by
  simp [BookView.bestBid, Book.view, Book.bestBid]

theorem Book.bestAsk_view (b : Book) : b.view.bestAsk = b.bestAsk := rfl

end LiveBook
