import LiveBook.Market

/-!
# Subscriptions of a connection

A connection keeps a registry of the markets that it subscribes to whenever it connects,
and numbers its requests from one.

* `LiveBook.SubscriptionRegistry` – the markets, each once, in their order;
* `LiveBook.RequestIds` – the numbers of requests.
-/

namespace LiveBook

/-- The markets that are subscribed to on every connect, in ascending order. -/
structure SubscriptionRegistry where
  markets : List MarketId
deriving DecidableEq, Repr, Inhabited

namespace SubscriptionRegistry

/-- No market. -/
def empty : SubscriptionRegistry := ⟨[]⟩

/-- Whether a market is registered. -/
def contains (r : SubscriptionRegistry) (m : MarketId) : Bool := r.markets.contains m

/-- Puts a market in front of the first that comes after it. -/
def insertOrdered (m : MarketId) : List MarketId → List MarketId
  | [] => [m]
  | x :: rest => if m < x then m :: x :: rest else x :: insertOrdered m rest

/-- Registers a market; nothing changes if it is registered already. -/
def add (r : SubscriptionRegistry) (m : MarketId) : SubscriptionRegistry :=
  if r.contains m then r else ⟨insertOrdered m r.markets⟩

/-- Takes a market out. -/
def remove (r : SubscriptionRegistry) (m : MarketId) : SubscriptionRegistry :=
  ⟨r.markets.filter (· ≠ m)⟩

/-- The number of markets. -/
def size (r : SubscriptionRegistry) : Nat := r.markets.length

/-- Whether no market is registered. -/
def isEmpty (r : SubscriptionRegistry) : Bool := r.markets.isEmpty

theorem mem_insertOrdered {m m' : MarketId} {ms : List MarketId} :
    m' ∈ insertOrdered m ms ↔ m' = m ∨ m' ∈ ms := by
  induction ms with
  | nil => simp [insertOrdered]
  | cons x rest ih =>
    unfold insertOrdered
    split
    next => simp
    next =>
      simp only [List.mem_cons, ih]
      exact or_left_comm

/-- After a market was added, it and those from before are registered. -/
theorem mem_add {r : SubscriptionRegistry} {m m' : MarketId} :
    m' ∈ (r.add m).markets ↔ m' = m ∨ m' ∈ r.markets := by
  unfold add
  split
  next h =>
    have hm : m ∈ r.markets := by simpa [contains] using h
    exact ⟨Or.inr, fun h => h.elim (fun e => e ▸ hm) id⟩
  next => exact mem_insertOrdered

/-- After a market was taken out, the others are registered. -/
theorem mem_remove {r : SubscriptionRegistry} {m m' : MarketId} :
    m' ∈ (r.remove m).markets ↔ m' ∈ r.markets ∧ m' ≠ m := by
  simp [remove]

theorem contains_iff {r : SubscriptionRegistry} {m : MarketId} :
    r.contains m = true ↔ m ∈ r.markets := by
  simp [contains]

/-- After some markets were added, they and those from before are registered. -/
theorem mem_addAll {r : SubscriptionRegistry} {ms : List MarketId} {m : MarketId} :
    m ∈ (ms.foldl add r).markets ↔ m ∈ ms ∨ m ∈ r.markets := by
  induction ms generalizing r with
  | nil => simp
  | cons x rest ih =>
    rw [List.foldl_cons, ih, mem_add, List.mem_cons, or_assoc]
    exact or_left_comm

end SubscriptionRegistry

/-- The numbers of the requests of a connection. -/
structure RequestIds where
  /-- The number that the next request gets. -/
  next : Nat := 1
deriving DecidableEq, Repr, Inhabited

/-- The number for a request. -/
def RequestIds.take (ids : RequestIds) : RequestIds × Nat := (⟨ids.next + 1⟩, ids.next)

end LiveBook
