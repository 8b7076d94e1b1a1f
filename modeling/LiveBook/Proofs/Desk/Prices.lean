import LiveBook.Proofs.Desk.Acts
import LiveBook.Proofs.Desk.Order

/-!
# Prices of last trades

Two hands write the price of the last trade into a book: a router that brings a trade, and a refresh
that has asked the source for it. Neither looks at what the other wrote, so that the price in a book
is the one that was written last, and the times in it are those of the last trade and of the last
answer (`LiveBook.Desk.Notes`).

* `LiveBook.Quote`, `LiveBook.PriceNote` – what a book knows of the last trade, and what is written
  there;
* `LiveBook.Desk.notes_route`, `LiveBook.Desk.notes_refresh` – what a trade and an answer write;
* `LiveBook.Desk.answered_refresh` – what else an answer changes, namely nothing;
* `LiveBook.Desk.Does.distinct`, `LiveBook.Desk.mem_dueMarkets` – the markets that a refresh asks
  for are active, each with its own worker.
-/

namespace LiveBook

/-! ### What a book knows of the last trade -/

/-- **What a book knows of the last trade**: its price, when a trade was last brought, and when an
answer last came. -/
structure Quote where
  price : Option Decimal
  tradedAt : Option Instant
  answeredAt : Option Instant

/-- **What is written into a book** about the last trade. -/
inductive PriceNote where
  | trade (price : Decimal) (now : Instant)
  /-- An answer, which may have no price for the market. -/
  | answer (price? : Option Decimal) (now : Instant)
deriving DecidableEq

namespace PriceNote

/-- The price that it has. -/
def price? : PriceNote → Option Decimal
  | .trade p _ => some p
  | .answer p? _ => p?

/-- The time of a trade. -/
def tradedAt? : PriceNote → Option Instant
  | .trade _ now => some now
  | .answer _ _ => none

/-- The time of an answer. -/
def answeredAt? : PriceNote → Option Instant
  | .trade _ _ => none
  | .answer _ now => some now

end PriceNote

namespace Quote

/-- Nothing is known. -/
def blank : Quote := ⟨none, none, none⟩

/-- What is known once something was written. -/
def note (q : Quote) : PriceNote → Quote
  | .trade p now => { q with price := some p, tradedAt := some now }
  | .answer p? now => { q with price := p?.or q.price, answeredAt := some now }

/-- Where each item is written over what was there, the last one that has something counts. -/
theorem foldl_eq_getLast? {α β γ : Type} {f : β → α → β} (g : β → Option γ) (h : α → Option γ)
    (step : ∀ b a, g (f b a) = (h a).or (g b)) (b : β) (as : List α) :
    g (as.foldl f b) = (as.filterMap h).getLast?.or (g b) := by
  induction as using List.reverseRecOn with
  | nil => rfl
  | append_singleton as a ih =>
    rw [List.foldl_concat, step, ih, List.filterMap_append, List.getLast?_append]
    cases ha : h a <;> simp [ha]

theorem price_foldl (q : Quote) (ns : List PriceNote) :
    (ns.foldl note q).price = (ns.filterMap PriceNote.price?).getLast?.or q.price :=
  foldl_eq_getLast? _ _ (fun _ n => by cases n <;> rfl) q ns

theorem tradedAt_foldl (q : Quote) (ns : List PriceNote) :
    (ns.foldl note q).tradedAt = (ns.filterMap PriceNote.tradedAt?).getLast?.or q.tradedAt :=
  foldl_eq_getLast? _ _ (fun _ n => by cases n <;> rfl) q ns

theorem answeredAt_foldl (q : Quote) (ns : List PriceNote) :
    (ns.foldl note q).answeredAt = (ns.filterMap PriceNote.answeredAt?).getLast?.or q.answeredAt :=
  foldl_eq_getLast? _ _ (fun _ n => by cases n <;> rfl) q ns

end Quote

/-- What a book knows of the last trade. -/
def Book.quote (b : Book) : Quote := ⟨b.lastTrade, b.tradedAt, b.refreshedAt⟩

theorem Book.quote_mergeAll (b : Book) (ds : List Diff) : (b.mergeAll ds).quote = b.quote := by
  induction ds generalizing b with
  | nil => rfl
  | cons d ds ih => exact ih (b.mergeDiff d.bids d.asks d.sequence)

/-- A book that a snapshot describes knows nothing. -/
theorem Book.quote_ofSnapshot {s : Snapshot} {b : Book} (h : ofSnapshot s = .ok b) :
    b.quote = .blank := by
  rw [eq_of_ofSnapshot h]
  rfl

/-- Messages leave it alone. -/
theorem BookKeeper.quote_process (policy : StalenessPolicy) (k : BookKeeper) (x : BookMessage) :
    (k.process policy x).1.book.quote = k.book.quote := by
  cases x with
  | diff d =>
    rw [process_diff]
    split <;> rfl
  | snapshot s =>
    rw [process_snapshot]
    split
    · exact Book.quote_mergeAll _ _
    · rfl

/-- A worker once an answer was written into its book: the price changes if the answer has one. -/
def Worker.answered (w : Worker) (price? : Option Decimal) (now : Instant) : Worker :=
  { w with keeper := { w.keeper with book := { w.keeper.book with
      lastTrade := price?.or w.keeper.book.lastTrade, refreshedAt := some now } } }

theorem Worker.answered_answered (w : Worker) (price? : Option Decimal) (now : Instant) :
    (w.answered price? now).answered price? now = w.answered price? now := by
  cases price? <;> rfl

namespace Desk

variable {d d' d'' : Desk} {x : DeskAct} {m : MarketId} {i : ℕ} {w : Worker}
  {p : ℕ → List Decimal} {q q' : ℕ → List PriceNote}

/-! ### What is written into books -/

/-- The price of the last trade in the book of a worker. -/
def lastTrade? (d : Desk) (i : ℕ) : Option Decimal :=
  (d.worker? i).bind fun w => w.keeper.book.lastTrade

/-- **Something is written into the books of workers**, for each worker in this order. -/
def Notes (q : ℕ → List PriceNote) (d d' : Desk) : Prop :=
  ∀ i w, d.worker? i = some w → ∃ w', d'.worker? i = some w' ∧ w'.market = w.market ∧
    w'.keeper.book.quote = (q i).foldl Quote.note w.keeper.book.quote

theorem Notes.trans (h : Notes q d d') (h' : Notes q' d' d'') :
    Notes (fun i => q i ++ q' i) d d'' := by
  intro i w hw
  obtain ⟨w', hw', hm, hq⟩ := h i w hw
  obtain ⟨w'', hw'', hm', hq'⟩ := h' i w' hw'
  refine ⟨w'', hw'', hm'.trans hm, ?_⟩
  rw [hq', hq, List.foldl_append]

/-- **Prices are written into the books of workers**, for each worker in this order. -/
def Writes (p : ℕ → List Decimal) (d d' : Desk) : Prop :=
  ∀ i w, d.worker? i = some w → ∃ w', d'.worker? i = some w' ∧ w'.market = w.market ∧
    w'.keeper.book.lastTrade = (p i).getLast?.or w.keeper.book.lastTrade

theorem Notes.writes (h : Notes q d d') (hp : ∀ i, (q i).filterMap PriceNote.price? = p i) :
    Writes p d d' := by
  intro i w hw
  obtain ⟨w', hw', hm, hq⟩ := h i w hw
  refine ⟨w', hw', hm, ?_⟩
  have hprice := congrArg Quote.price hq
  rw [Quote.price_foldl, hp] at hprice
  exact hprice

/-- **Books are left alone.** -/
def NotesNothing (d d' : Desk) : Prop := Notes (fun _ => []) d d'

theorem notesNothing_of_staff (h : d'.staff = d.staff) : d.NotesNothing d' := by
  intro i w hw
  refine ⟨w, ?_, rfl, rfl⟩
  rw [worker?, h]
  exact hw

/-- Only one worker is changed. -/
theorem notes_setWorker {v v' : Worker} {ns : List PriceNote} (hv : d.worker? i = some v)
    (market : v'.market = v.market)
    (quote : v'.keeper.book.quote = ns.foldl Quote.note v.keeper.book.quote) :
    Notes (fun j => if i = j then ns else []) d (d.setWorker i v') := by
  intro j w hw
  by_cases hij : i = j
  · subst hij
    obtain rfl := Option.some.inj (hv.symm.trans hw)
    refine ⟨v', worker?_setWorker_self hv, market, ?_⟩
    simpa using quote
  · refine ⟨w, (worker?_setWorker_ne hij v').trans hw, rfl, ?_⟩
    simp [hij]

theorem notesNothing_setWorker {v v' : Worker} (hv : d.worker? i = some v)
    (market : v'.market = v.market)
    (quote : v'.keeper.book.quote = v.keeper.book.quote) :
    d.NotesNothing (d.setWorker i v') := by
  have h : Notes (fun j => if i = j then [] else []) d (d.setWorker i v') :=
    notes_setWorker hv market quote
  simp only [ite_self] at h
  exact h

theorem NotesNothing.trans (h : d.NotesNothing d') (h' : d'.NotesNothing d'') :
    d.NotesNothing d'' :=
  Notes.trans h h'

theorem notesNothing_cancel (d : Desk) (i : ℕ) : d.NotesNothing (d.cancel i) := by
  unfold cancel
  split
  next w hw => exact notesNothing_setWorker hw rfl rfl
  next => exact notesNothing_of_staff rfl

theorem notesNothing_cancelRun (d : Desk) (r : ℕ) : d.NotesNothing (d.cancelRun r) := by
  intro i w hw
  have hmap : (d.cancelRun r).worker? i =
      (d.worker? i).map fun w => if w.run = r then { w with isCancelled := true } else w :=
    List.getElem?_map
  refine ⟨_, by rw [hmap, hw]; rfl, ?_⟩
  dsimp only
  split <;> exact ⟨rfl, rfl⟩

/-- Whoever is there before an activation has nothing to do with it. -/
theorem notesNothing_activate {s : Snapshot} {run : ℕ} {isCancelled : Bool} {window : ℕ}
    (h : d.activate m s run isCancelled window = .ok d') : d.NotesNothing d' := by
  obtain ⟨b, p, -, -, -, rfl⟩ := activate_eq_ok h
  intro i w hw
  exact ⟨w, (List.getElem?_append_left (lt_length hw)).trans hw, rfl, rfl⟩

/-- Whoever comes knows nothing of the last trade. -/
theorem Does.quote_of_new (h : d.Does x d') (hi : d.worker? i = none)
    (hw : d'.worker? i = some w) : w.keeper.book.quote = .blank := by
  rcases h.worker?_before hw with ⟨v, hv, -⟩ | ⟨m, rfl, rfl⟩
  · cases hi.symm.trans hv
  · cases h with
    | activate h =>
      obtain ⟨b, p, -, hb, -, rfl⟩ := activate_eq_ok h
      obtain rfl := Option.some.inj (List.getElem?_concat_length.symm.trans hw)
      exact Book.quote_ofSnapshot hb

theorem Works.notesNothing {act : WorkerAct} (h : d.Works i act d') : d.NotesNothing d' := by
  cases h with
  | @took w rest x ms stage worker running wanted next going =>
    obtain ⟨pending, queue, rfl⟩ := Worker.take?_eq next
    have hset : d.NotesNothing (d.setWorker i { w with
        pending := pending, queue := queue, keeper := (w.keeper.process d.policy x).1,
        stage := stage }) :=
      notesNothing_setWorker worker rfl (BookKeeper.quote_process _ _ _)
    exact hset
  | resumed worker paused => exact notesNothing_setWorker worker rfl rfl
  | ended worker => exact notesNothing_setWorker worker rfl rfl

/-! ### Trades -/

/-- What an act writes into the book of a worker if it brings a trade. -/
def tradePrice? (d : Desk) (i : ℕ) : DeskAct → Option Decimal
  | .routed (.trade e) .delivered =>
    if d.slot? e.market = some (.active i) then some e.price else none
  | _ => none

/-- What is written if a trade is brought. -/
def tradeNotes (d : Desk) (i : ℕ) (now : Instant) (a : DeskAct) : List PriceNote :=
  (d.tradePrice? i a).toList.map (.trade · now)

/-- Nothing but a trade is written. -/
theorem Routes.notesNothing {e : Event} {outcome : RouteOutcome} (h : d.Routes e outcome d')
    (he : ∀ x, e ≠ .trade x) : d.NotesNothing d' := by
  cases h with
  | @delivered e x i v ms message slot worker running =>
    have hset : d.NotesNothing (d.setWorker i { v with queue := v.queue ++ [x] }) :=
      notesNothing_setWorker worker rfl rfl
    exact hset
  | @traded e => exact absurd rfl (he e)
  | _ => exact notesNothing_of_staff rfl

/-- **A trade is written into the book of its market**, whatever stands there. -/
theorem notes_route (d : Desk) (e : Event) (now : Instant) :
    Notes (fun i => d.tradeNotes i now (.routed e (d.route e now).2)) d (d.route e now).1 := by
  cases e with
  | diff e => exact (routes_route (.diff e) now).notesNothing nofun
  | snapshot e => exact (routes_route (.snapshot e) now).notesNothing nofun
  | trade e =>
    unfold route routeTrade
    dsimp only
    split
    next i slot =>
      split
      next => exact notesNothing_of_staff rfl
      next v worker =>
        have hset : Notes (fun j => if i = j then [.trade e.price now] else []) d
            (d.setWorker i { v with
              keeper := { v.keeper with book := v.keeper.book.applyTrade e.price now } }) :=
          notes_setWorker worker rfl rfl
        intro j w hw
        obtain ⟨w', hw', hm, hq⟩ := hset j w hw
        refine ⟨w', hw', hm, hq.trans ?_⟩
        -- the slot of the market leads to one worker only
        by_cases hij : i = j
        · simp [tradeNotes, tradePrice?, slot, hij]
        · simp [tradeNotes, tradePrice?, slot, hij]
    next => exact notesNothing_of_staff rfl

/-! ### Answers -/

/-- The prices for the book of a worker among those that were asked for. -/
def askedPrices (asked : List (MarketId × ℕ)) (prices : Table MarketId Decimal) (i : ℕ) :
    List Decimal :=
  asked.filterMap fun a => if a.2 = i then prices.get? a.1 else none

/-- What an answer writes into the book of a worker that was asked for. -/
def answerNotes (asked : List (MarketId × ℕ)) (prices : Table MarketId Decimal) (now : Instant)
    (i : ℕ) : List PriceNote :=
  asked.filterMap fun a => if a.2 = i then some (.answer (prices.get? a.1) now) else none

theorem price?_answerNotes (asked : List (MarketId × ℕ)) (prices : Table MarketId Decimal)
    (now : Instant) (i : ℕ) :
    (answerNotes asked prices now i).filterMap PriceNote.price? = askedPrices asked prices i := by
  rw [answerNotes, List.filterMap_filterMap]
  refine List.filterMap_congr fun a _ => ?_
  split <;> rfl

/-- An answer leaves the price alone if it has none. -/
theorem refreshBook_eq (b : Book) (price? : Option Decimal) (now : Instant) :
    refreshBook b price? now =
      { b with lastTrade := price?.or b.lastTrade, refreshedAt := some now } := by
  cases price? <;> rfl

theorem quote_refreshBook (b : Book) (price? : Option Decimal) (now : Instant) :
    (refreshBook b price? now).quote = b.quote.note (.answer price? now) := by
  rw [refreshBook_eq]
  rfl

/-- **An answer is written into the books** for which was asked, whatever stands there. -/
theorem notes_refresh (d : Desk) (asked : List (MarketId × ℕ)) (prices : Table MarketId Decimal)
    (now : Instant) : Notes (answerNotes asked prices now) d (d.refresh asked prices now) := by
  unfold refresh
  induction asked generalizing d with
  | nil => exact notesNothing_of_staff rfl
  | cons a asked ih =>
    obtain ⟨m, i⟩ := a
    have hcons : answerNotes ((m, i) :: asked) prices now = fun j =>
        (if i = j then [.answer (prices.get? m) now] else []) ++
          answerNotes asked prices now j := by
      funext j
      by_cases hij : i = j
      · simp [answerNotes, hij]
      · simp [answerNotes, hij]
    rw [List.foldl_cons, hcons]
    refine .trans ?_ (ih _)
    dsimp only
    split
    next v hv => exact notes_setWorker hv rfl (quote_refreshBook _ _ _)
    next hv =>
      -- nobody is there to write for
      intro j w hw
      have hij : i ≠ j := by
        rintro rfl
        cases hv.symm.trans hw
      exact ⟨w, hw, rfl, by simp [hij]⟩

/-- **What an answer changes**: the price and the time of the answer in the books that were asked
for, and nothing else. -/
structure Answered (asked : List (MarketId × ℕ)) (prices : Table MarketId Decimal) (now : Instant)
    (d d' : Desk) : Prop where
  rest : d' = { d with staff := d'.staff }
  length : d'.staff.length = d.staff.length
  written : ∀ m i w, (m, i) ∈ asked → d.worker? i = some w →
    d'.worker? i = some (w.answered (prices.get? m) now)
  others : ∀ i w, (∀ m, (m, i) ∉ asked) → d.worker? i = some w → d'.worker? i = some w

namespace Answered

variable {asked : List (MarketId × ℕ)} {prices : Table MarketId Decimal} {now : Instant}

/-- One book. -/
theorem setWorker {v : Worker} (hv : d.worker? i = some v) :
    Answered [(m, i)] prices now d (d.setWorker i (v.answered (prices.get? m) now)) where
  rest := rfl
  length := List.length_set
  written m' j w hmem hw := by
    obtain ⟨rfl, rfl⟩ := Prod.mk.inj (List.mem_singleton.mp hmem)
    obtain rfl := Option.some.inj (hv.symm.trans hw)
    exact worker?_setWorker_self hv
  others j w hother hw := by
    have hij : i ≠ j := fun hij => hother m (hij ▸ List.mem_singleton_self _)
    exact (worker?_setWorker_ne hij _).trans hw

/-- Nobody is there to write for. -/
theorem nobody (hv : d.worker? i = none) : Answered [(m, i)] prices now d d where
  rest := rfl
  length := rfl
  written m' j w hmem hw := by
    obtain ⟨rfl, rfl⟩ := Prod.mk.inj (List.mem_singleton.mp hmem)
    cases hv.symm.trans hw
  others j w _ hw := hw

/-- One book, and then others. -/
theorem cons (first : Answered [(m, i)] prices now d d') (h : Answered asked prices now d' d'')
    (own : ∀ m', (m', i) ∈ asked → m' = m) : Answered ((m, i) :: asked) prices now d d'' where
  rest := by rw [h.rest, first.rest]
  length := h.length.trans first.length
  written m' j w hmem hw := by
    by_cases hij : j = i
    · subst hij
      obtain rfl : m' = m := (List.mem_cons.mp hmem).elim (congrArg Prod.fst) (own m')
      have hw' := first.written m' j w (List.mem_singleton_self _) hw
      by_cases hagain : (m', j) ∈ asked
      · rw [h.written m' j _ hagain hw', Worker.answered_answered]
      · exact h.others j _ (fun m hm => hagain (own m hm ▸ hm)) hw'
    · have hlater : (m', j) ∈ asked :=
        (List.mem_cons.mp hmem).resolve_left fun heq => hij (congrArg Prod.snd heq)
      refine h.written m' j w hlater (first.others j w (fun m₀ hm₀ => ?_) hw)
      exact hij (congrArg Prod.snd (List.mem_singleton.mp hm₀))
  others j w hother hw := by
    refine h.others j w (fun m₀ hm₀ => hother m₀ (List.mem_cons_of_mem _ hm₀)) ?_
    refine first.others j w (fun m₀ hm₀ => hother m₀ ?_) hw
    exact List.mem_singleton.mp hm₀ ▸ List.mem_cons_self

end Answered

/-- **A refresh changes nothing but what it was asked for**, where each worker was asked for under
one market. -/
theorem answered_refresh (d : Desk) {asked : List (MarketId × ℕ)} (prices : Table MarketId Decimal)
    (now : Instant) (own : ∀ m m' i, (m, i) ∈ asked → (m', i) ∈ asked → m' = m) :
    Answered asked prices now d (d.refresh asked prices now) := by
  unfold refresh
  induction asked generalizing d with
  | nil => exact ⟨rfl, rfl, by simp, fun _ _ _ hw => hw⟩
  | cons a asked ih =>
    obtain ⟨m, i⟩ := a
    rw [List.foldl_cons]
    refine .cons ?_ (ih _ fun m m' i hm hm' =>
      own m m' i (List.mem_cons_of_mem _ hm) (List.mem_cons_of_mem _ hm'))
      fun m' hm' => own m m' i List.mem_cons_self (List.mem_cons_of_mem _ hm')
    dsimp only
    split
    next v hv =>
      rw [refreshBook_eq]
      exact .setWorker hv
    next hv => exact .nobody hv

/-- Where a worker is asked for under one market only, what is written is the price of this
market. -/
theorem getLast?_askedPrices {asked : List (MarketId × ℕ)} (prices : Table MarketId Decimal)
    (covered : (m, i) ∈ asked) (own : ∀ m', (m', i) ∈ asked → m' = m) :
    (askedPrices asked prices i).getLast? = prices.get? m := by
  have hmem : ∀ q, q ∈ askedPrices asked prices i ↔ prices.get? m = some q := by
    intro q
    simp only [askedPrices, List.mem_filterMap]
    constructor
    · rintro ⟨⟨m', j⟩, ha, hq⟩
      obtain ⟨hj, hq⟩ := Option.ite_none_right_eq_some.mp hq
      obtain rfl := own m' (hj ▸ ha)
      exact hq
    · intro hq
      exact ⟨(m, i), covered, by rw [if_pos rfl]; exact hq⟩
  cases hlast : (askedPrices asked prices i).getLast? with
  | some q => exact ((hmem q).mp (List.mem_of_getLast? hlast)).symm
  | none =>
    rw [List.getLast?_eq_none_iff] at hlast
    cases hp : prices.get? m with
    | none => rfl
    | some q =>
      have hq := (hmem q).mpr hp
      rw [hlast] at hq
      cases hq

/-! ### The markets that are asked for -/

/-- **No market has two slots.** -/
theorem Does.distinct (h : d.Does x d') (hd : d.slots.IsMap) : d'.slots.IsMap := by
  cases h with
  | rest => exact hd
  | cancel i => exact (d.alike_cancel i).slots ▸ hd
  | cancelRun r => exact hd
  | dismiss i => exact (d.dismiss.1.alike_cancel i).slots ▸ hd
  | refresh asked prices now => exact (d.alike_refresh asked prices now).slots ▸ hd
  | start ms c now =>
    suffices hall : ∀ (ms : List MarketId) (d : Desk), d.slots.IsMap →
        (ms.foldl (fun d m => d.register m c) d).slots.IsMap from hall ms _ hd
    intro ms
    induction ms with
    | nil => exact fun _ hd => hd
    | cons m ms ih => exact fun d hd => ih _ (hd.set m _)
  | register c new => exact hd.set _ _
  | activate h =>
    obtain ⟨b, p, -, -, -, rfl⟩ := activate_eq_ok h
    exact hd.adjust _ _
  | retire active => exact hd.adjust _ _
  | @retireFrom m j active i => exact ((d.retire m).1.alike_cancel i).slots ▸ hd.adjust _ _
  | discard m => exact hd.erase m
  | clear => exact Table.isMap_empty
  | disband => exact Table.isMap_empty
  | route e now =>
    have hroutes := routes_route (d := d) e now
    generalize (d.route e now).2 = outcome at hroutes
    generalize (d.route e now).1 = d' at hroutes
    cases hroutes with
    | buffered => exact hd.adjust _ _
    | _ => exact hd
  | work h =>
    have hworks := works_work h
    cases hworks <;> exact hd
  | quit h =>
    have hworks := works_workerQuits h
    cases hworks with
    | ended => exact hd

/-- The active markets are those whose slots lead to workers. -/
theorem mem_activeMarkets (hd : d.slots.IsMap) :
    (m, i) ∈ d.activeMarkets ↔ d.slot? m = some (.active i) := by
  unfold activeMarkets
  rw [(List.mergeSort_perm _ _).mem_iff, List.mem_filterMap]
  constructor
  · rintro ⟨⟨m', s⟩, hmem, hs⟩
    dsimp only at hs
    split at hs
    next j hj =>
      obtain ⟨rfl, rfl⟩ := Prod.mk.inj (Option.some.inj hs)
      exact (slot?_of_get? (hd.get?_of_mem hmem)).trans (congrArg some hj)
    next => cases hs
  · intro slot
    obtain ⟨s, hs, hview⟩ := exists_of_slot? slot
    exact ⟨(m, s), Table.mem_entries_of_get? hs, by simp [hview]⟩

/-- **The active markets are listed in ascending order**, each of them once. -/
theorem ascending_activeMarkets (hd : d.slots.IsMap) :
    d.activeMarkets.Pairwise fun a b => a.1 < b.1 := by
  refine MarketId.ascending_mergeSort (fun e : MarketId × ℕ => e.1)
    ((List.pairwise_map.mp hd).filterMap _ fun a a' hne b hb b' hb' => ?_)
  obtain ⟨m, s⟩ := a
  obtain ⟨m', s'⟩ := a'
  dsimp only at hb hb'
  split at hb
  next =>
    split at hb'
    next =>
      obtain rfl := Option.some.inj hb
      obtain rfl := Option.some.inj hb'
      exact hne
    next => cases hb'
  next => cases hb

/-- **The markets that a refresh asks for** are active, and due with their workers. -/
theorem mem_dueMarkets {now : Instant} {staleAfter minInterval : ℕ} (hd : d.slots.IsMap) :
    (m, i) ∈ d.dueMarkets now staleAfter minInterval ↔
      d.slot? m = some (.active i) ∧ d.isDue i now staleAfter minInterval = true := by
  rw [dueMarkets, List.mem_filter, mem_activeMarkets hd]

theorem slot?_of_mem_dueMarkets {now : Instant} {staleAfter minInterval : ℕ} (hd : d.slots.IsMap)
    (h : (m, i) ∈ d.dueMarkets now staleAfter minInterval) : d.slot? m = some (.active i) :=
  ((mem_dueMarkets hd).mp h).1

theorem ascending_dueMarkets (hd : d.slots.IsMap) (now : Instant) (staleAfter minInterval : ℕ) :
    ((d.dueMarkets now staleAfter minInterval).map (·.1)).Pairwise (· < ·) :=
  List.pairwise_map.mpr ((ascending_activeMarkets hd).sublist List.filter_sublist)

end Desk

end LiveBook
