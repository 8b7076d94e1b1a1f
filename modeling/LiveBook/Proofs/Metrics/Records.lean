import LiveBook.Metrics.Basic

/-!
# What a record does to the metrics

A record is added to the totals and, if it names a market, to the tally of that market.
What is needed of this elsewhere is which markets have a tally
(`LiveBook.Metrics.hasMarket_record`, `LiveBook.Metrics.hasMarket_removeMarket`), and what
becomes of the counts when a diff is rejected (`LiveBook.Metrics.Rejects`).
-/

namespace LiveBook

namespace Metrics

variable (ms : Metrics)

/-- **The tallies after a record.** -/
theorem market?_record (r : MessageRecord) (m : MarketId) :
    (ms.record r).market? m =
      if r.market = some m then
        some (((ms.market? m).getD (.zero ms.config.freshStats r.time)).add r)
      else ms.market? m := by
  unfold record market? addToMarket
  dsimp only
  cases r.market with
  | none => rfl
  | some m' =>
    dsimp only
    rw [Table.get?_update]
    by_cases h : m' = m
    · rw [if_pos h, if_pos (congrArg some h)]
    · rw [if_neg h, if_neg fun hm => h (Option.some.inj hm)]

theorem hasMarket_eq_isSome (m : MarketId) : ms.hasMarket m = (ms.market? m).isSome := rfl

/-- A record gives a tally to the market that it names. -/
theorem hasMarket_record {r : MessageRecord} {m : MarketId} :
    (ms.record r).hasMarket m = true ↔ r.market = some m ∨ ms.hasMarket m = true := by
  rw [hasMarket_eq_isSome, hasMarket_eq_isSome, market?_record]
  by_cases h : r.market = some m
  · simp [h]
  · simp [h]

theorem hasMarket_removeMarket {m m' : MarketId} :
    (ms.removeMarket m').hasMarket m = true ↔ m' ≠ m ∧ ms.hasMarket m = true := by
  unfold removeMarket hasMarket Table.contains
  dsimp only
  rw [Table.get?_erase]
  by_cases h : m' = m
  · simp [h]
  · simp [h]

/-- Of the markets that are forgotten none has a tally any more. -/
theorem hasMarket_removeAll {m : MarketId} (markets : List MarketId) :
    (markets.foldl (fun ms m => ms.removeMarket m) ms).hasMarket m = true ↔
      m ∉ markets ∧ ms.hasMarket m = true := by
  induction markets generalizing ms with
  | nil => simp
  | cons m' markets ih =>
    rw [List.foldl_cons, ih, hasMarket_removeMarket, List.mem_cons, not_or]
    constructor
    · rintro ⟨hout, hne, hhas⟩
      exact ⟨⟨Ne.symm hne, hout⟩, hhas⟩
    · rintro ⟨⟨hne, hout⟩, hhas⟩
      exact ⟨hout, Ne.symm hne, hhas⟩

/-- **One more diff of a market was rejected**: it is counted once in the totals and once in the
tally of the market, which begins with it if there was none. No other count has changed. -/
structure Rejects (ms : Metrics) (m : MarketId) (now : Instant) (ms' : Metrics) : Prop where
  totals : ms'.totals = { ms.totals with diffsRejected := ms.totals.diffsRejected + 1 }
  tally : ∃ t, t = (ms.market? m).getD (.zero ms.config.freshStats now) ∧
    ms'.market? m = some { t with diffsRejected := t.diffsRejected + 1 }
  others : ∀ m', m' ≠ m → ms'.market? m' = ms.market? m'

theorem rejects_record (m : MarketId) (now : Instant) :
    ms.Rejects m now (ms.record ⟨some m, .diff, .rejected, none, now⟩) := by
  refine ⟨rfl, ⟨_, rfl, ?_⟩, fun m' hm => ?_⟩
  · rw [market?_record, if_pos rfl]
    rfl
  · rw [market?_record, if_neg fun heq => hm (Option.some.inj heq).symm]

end Metrics

end LiveBook
