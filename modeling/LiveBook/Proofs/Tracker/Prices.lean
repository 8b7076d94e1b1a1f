import LiveBook.Proofs.Desk.Prices
import LiveBook.Proofs.Tracker.Accounting
import LiveBook.Proofs.Tracker.Handling
import LiveBook.Proofs.Tracker.Tasks

/-!
# Which price of the last trade a book shows

A refresh asks the source for the prices of last trades, and writes what it gets whenever the answer
comes. In the meantime trades have been brought, and they stay in the book only if the answer has no
price for the market: whatever was written last is what the book shows
(`LiveBook.Tracker.Trail.writes`).

* `LiveBook.Tracker.Move.notes` – what a move writes into the book of a worker, be it a trade or an
  answer, with its time; `LiveBook.Tracker.Move.prices` are the prices among it;
* `LiveBook.Tracker.Trail.asked` – what a refresh that waits for an answer has asked for, and when;
* `LiveBook.Tracker.price_of_answer` – **what a book shows once an answer has come**.
-/

namespace LiveBook

/-- The markets that were asked for and whose prices have not come, with their workers. -/
def RefreshStage.asked : RefreshStage → List (MarketId × ℕ)
  | .asking due => due
  | _ => []

namespace Tracker

variable {t t' t₀ : Tracker} {i r : ℕ} {m : MarketId} {s : RequestStage} {l : Label}
  {fx : List TrackerEffect} {xs : List Move} {x : Move} {config : TrackerConfig}
  {due : List (MarketId × ℕ)} {run run' : Run}

/-! ### What is written with a move -/

/-- The prices that a run has asked for and waits for. -/
def askedBy (t : Tracker) (r : ℕ) : List (MarketId × ℕ) :=
  match t.run? r with
  | some run => run.refresh.asked
  | none => []

theorem askedBy_eq (hr : t.run? r = some run) (asking : run.refresh = .asking due) :
    t.askedBy r = due := by
  rw [askedBy, hr]
  dsimp only
  rw [asking]
  rfl

/-- The prices that a label brings for the book of a worker, as an answer. -/
def answered (t : Tracker) (i : ℕ) : Label → List Decimal
  | .hear (.refresh r) (.prices (.ok prices)) => Desk.askedPrices (t.askedBy r) prices i
  | _ => []

/-- What a label brings for the book of a worker, as an answer. -/
def answerNotes (t : Tracker) (i : ℕ) : Label → List PriceNote
  | .hear (.refresh r) (.prices (.ok prices)) => Desk.answerNotes (t.askedBy r) prices t.now i
  | _ => []

theorem price?_answerNotes (t : Tracker) (i : ℕ) (l : Label) :
    (t.answerNotes i l).filterMap PriceNote.price? = t.answered i l := by
  unfold answerNotes
  split
  · exact Desk.price?_answerNotes _ _ _ _
  next other =>
    unfold answered
    split
    next r prices => exact absurd rfl (other r prices)
    next => rfl

/-- **What a move writes into the book of a worker**: the price of a trade that is brought, or a
price that was asked for. -/
def Move.prices (x : Move) (i : ℕ) : List Decimal :=
  x.acts.filterMap (x.before.desk.tradePrice? i) ++ x.before.answered i x.label

/-- What some moves write into the book of a worker, in their order. -/
def pricesOf (xs : List Move) (i : ℕ) : List Decimal := xs.flatMap fun x => x.prices i

/-- **What a move writes into the book of a worker,** with the time: trades that are brought, and
answers, with a price or without. -/
def Move.notes (x : Move) (i : ℕ) : List PriceNote :=
  (x.acts.filterMap (x.before.desk.tradePrice? i)).map (.trade · x.before.now) ++
    x.before.answerNotes i x.label

/-- What some moves write into the book of a worker, in their order. -/
def notesOf (xs : List Move) (i : ℕ) : List PriceNote := xs.flatMap fun x => x.notes i

theorem Move.price?_notes (x : Move) (i : ℕ) :
    (x.notes i).filterMap PriceNote.price? = x.prices i := by
  have htrades : ∀ ps : List Decimal,
      (ps.map (PriceNote.trade · x.before.now)).filterMap PriceNote.price? = ps := fun ps => by
    rw [List.filterMap_map]
    exact List.filterMap_some
  rw [notes, List.filterMap_append, htrades, price?_answerNotes, prices]

@[simp] theorem notesOf_nil (i : ℕ) : notesOf [] i = [] := rfl

@[simp] theorem notesOf_snoc (xs : List Move) (x : Move) (i : ℕ) :
    notesOf (xs ++ [x]) i = notesOf xs i ++ x.notes i := by
  simp [notesOf]

theorem Goes.notesNothing (h : t.Goes i s l fx t') : t.desk.NotesNothing t'.desk := by
  cases h with
  | addActivates hd => exact Desk.notesNothing_activate hd
  | @removeRetires m j w holds active charge =>
    have hretire : t.desk.NotesNothing (t.desk.retire m).1 := Desk.notesNothing_of_staff rfl
    exact hretire.trans (Desk.notesNothing_cancel _ w)
  | @stopDismisses w ws holds workers =>
    have hdismiss : t.desk.NotesNothing t.desk.dismiss.1 := Desk.notesNothing_of_staff rfl
    exact hdismiss.trans (Desk.notesNothing_cancel _ w)
  | stopDrains ended => exact Desk.notesNothing_cancel _ _
  | _ => exact Desk.notesNothing_of_staff rfl

theorem notesNothing_cancelRun (t : Tracker) (r : ℕ) :
    t.desk.NotesNothing (t.cancelRun r).desk := by
  cases hr : t.run? r with
  | none =>
    rw [cancelRun_of_none hr]
    exact Desk.notesNothing_of_staff rfl
  | some run =>
    rw [cancelRun_of_some hr]
    exact Desk.notesNothing_cancelRun _ _

theorem notesNothing_started (t : Tracker) : t.desk.NotesNothing t.started.desk := by
  obtain ⟨slots, heq⟩ := Desk.registerAll_eq
    { t.desk with metrics := t.desk.metrics.markStarted t.now } t.config.markets
    t.config.pendingCapacity
  have hdesk : t.started.desk = { t.desk with
      metrics := t.desk.metrics.markStarted t.now, slots := slots } := heq
  rw [hdesk]
  exact Desk.notesNothing_of_staff rfl

/-- Where nobody brings an event and no prices come, nothing is written. -/
theorem notes_of_nothing {step : t.step l = some (t', fx)}
    (nothing : t.desk.NotesNothing t'.desk) (hidden : fx.filterMap TrackerEffect.act? = [])
    (silent : ∀ i, t.answerNotes i l = []) :
    Desk.Notes (Move.notes ⟨t, l, fx, t', step⟩) t.desk t'.desk := by
  have hnotes : Move.notes ⟨t, l, fx, t', step⟩ = fun _ => [] := by
    funext i
    simp [Move.notes, Move.acts, hidden, silent]
  rw [hnotes]
  exact nothing

/-- Where one act shows, what it writes is written. -/
theorem notes_of_act {step : t.step l = some (t', fx)} {a : DeskAct}
    (notes : Desk.Notes (fun i => t.desk.tradeNotes i t.now a) t.desk t'.desk)
    (shown : fx.filterMap TrackerEffect.act? = [a]) (silent : ∀ i, t.answerNotes i l = []) :
    Desk.Notes (Move.notes ⟨t, l, fx, t', step⟩) t.desk t'.desk := by
  have hnotes : Move.notes ⟨t, l, fx, t', step⟩ = fun i => t.desk.tradeNotes i t.now a := by
    funext i
    simp only [Move.notes, Move.acts, shown, silent, List.append_nil, Desk.tradeNotes]
    cases ha : t.desk.tradePrice? i a <;> simp [ha]
  rw [hnotes]
  exact notes

/-- **What a move writes.** -/
theorem Move.noted (x : Move) : Desk.Notes x.notes x.before.desk x.after.desk := by
  obtain ⟨t, l, fx, t', step⟩ := x
  cases step_happens step with
  | starts => exact notes_of_nothing t.notesNothing_started rfl fun _ => rfl
  | goesOn => exact notes_of_nothing (Desk.notesNothing_of_staff rfl) rfl fun _ => rfl
  | abandons => exact notes_of_nothing (t.notesNothing_cancelRun _) rfl fun _ => rfl
  | abandonsNothing => exact notes_of_nothing (Desk.notesNothing_of_staff rfl) rfl fun _ => rfl
  | asks asks =>
    cases asks with
    | stops => exact notes_of_nothing (t.notesNothing_cancelRun _) rfl fun _ => rfl
    | _ => exact notes_of_nothing (Desk.notesNothing_of_staff rfl) rfl fun _ => rfl
  | goes hl hs goes =>
    refine notes_of_nothing goes.notesNothing goes.hidden fun _ => ?_
    cases goes <;> rfl
  | tends hl other =>
    obtain ⟨d', handles, hd'⟩ : ∃ d', t.Handles l fx d' ∧ t'.desk = d' :=
      ⟨_, step_handles step hl other, rfl⟩
    cases handles with
    | rests hidden silent =>
      refine notes_of_nothing (hd' ▸ Desk.notesNothing_of_staff rfl) hidden fun i => ?_
      unfold answerNotes
      split
      next r prices => exact absurd rfl (silent r prices)
      next => rfl
    | @routes r s run e rest hr inbox =>
      exact notes_of_act (hd' ▸ t.desk.notes_route e t.now) rfl fun _ => rfl
    | activates hr locking hd =>
      exact notes_of_nothing (hd' ▸ Desk.notesNothing_activate hd) rfl fun _ => rfl
    | @refreshes r run due prices hr asking =>
      have hnotes : Move.notes ⟨t, _, _, t', step⟩ = Desk.answerNotes due prices t.now := by
        funext i
        simp [Move.notes, Move.acts, answerNotes, askedBy_eq hr asking]
      rw [hnotes]
      exact hd' ▸ t.desk.notes_refresh due prices t.now
    | @works i d' act h =>
      have hworks : t.desk.NotesNothing t'.desk := hd' ▸ (Desk.works_work h).notesNothing
      exact notes_of_act (a := .worked i act) hworks rfl fun _ => rfl
    | @quits i d' h =>
      have hworks : t.desk.NotesNothing t'.desk := hd' ▸ (Desk.works_workerQuits h).notesNothing
      exact notes_of_act (a := .worked i .ended) hworks rfl fun _ => rfl

theorem Trail.noted (trail : Trail t xs t') : Desk.Notes (notesOf xs) t.desk t'.desk := by
  induction trail with
  | nil =>
    have nothing : t.desk.NotesNothing t.desk := Desk.notesNothing_of_staff rfl
    exact nothing
  | @snoc xs x before ih =>
    have hnotes : notesOf (xs ++ [x]) = fun i => notesOf xs i ++ x.notes i :=
      funext (notesOf_snoc xs x)
    rw [hnotes]
    exact ih.trans x.noted

theorem Move.writes (x : Move) : Desk.Writes x.prices x.before.desk x.after.desk :=
  x.noted.writes x.price?_notes

/-- **Whatever was written last is what a book shows.** -/
theorem Trail.writes (trail : Trail t xs t') : Desk.Writes (pricesOf xs) t.desk t'.desk :=
  trail.noted.writes fun i => by
    rw [notesOf, List.filterMap_flatMap]
    simp only [Move.price?_notes]
    rfl

/-! ### What was asked for -/

/-- Run `r` asks for prices with this move, of the markets that are due. -/
structure Move.Asks (x : Move) (r : ℕ) (due : List (MarketId × ℕ)) : Prop where
  effects : x.effects = [.called (.refresh r) (.prices (due.map (·.1)))]
  due : due = x.before.dueMarkets

/-- **A run that waits for an answer** waited before, or asks now. -/
theorem Move.asks_or (x : Move) (hr' : x.after.run? r = some run')
    (asking : run'.refresh = .asking due) :
    (∃ run, x.before.run? r = some run ∧ run.refresh = .asking due) ∨ x.Asks r due := by
  rcases step_changes x.step hr' with ⟨run, hr, changes⟩ | ⟨-, -, -, rfl⟩
  · cases changes with
    | performs performs =>
      generalize heffects : x.effects = fx at performs
      cases performs with
      | @listens k => cases k <;> exact .inl ⟨_, hr, asking⟩
      | refreshes refreshes =>
        cases refreshes with
        | asks checking found =>
          obtain rfl := RefreshStage.asking.inj asking
          exact .inr ⟨heffects, found⟩
        | _ => cases asking
      | _ => exact .inl ⟨_, hr, asking⟩
    | _ => exact .inl ⟨_, hr, asking⟩
  · -- a run that has just begun has asked for nothing
    unfold Run.begin at asking
    dsimp only at asking
    split at asking <;> cases asking

theorem Reachable.distinct (h : t.Reachable) : t.desk.slots.IsMap := by
  obtain ⟨config, t₀, tr, hstart, hsteps⟩ := h
  induction hsteps with
  | refl =>
    obtain ⟨-, rfl⟩ := eq_of_ofConfig hstart
    exact Table.isMap_empty
  | tail _ last ih =>
    obtain ⟨x, hdoes, -⟩ := step_does last
    exact hdoes.desk.distinct ih

theorem Trail.reachable (trail : Trail t xs t') (h : t.Reachable) : t'.Reachable := by
  induction trail with
  | nil => exact h
  | @snoc xs x before ih => exact ih.step x.step

/-- **A run that waits for an answer has asked** with one of the moves since the tracker was
made. -/
theorem Trail.asked (trail : Trail t₀ xs t) (valid : ofConfig config = .ok t₀)
    (hr : t.run? r = some run) (asking : run.refresh = .asking due) :
    ∃ xs₁ x xs₂, xs = xs₁ ++ x :: xs₂ ∧ x.before.Reachable ∧ x.Asks r due ∧
      Trail x.after xs₂ t := by
  induction trail generalizing run with
  | nil =>
    obtain ⟨-, rfl⟩ := eq_of_ofConfig valid
    cases hr
  | @snoc xs x before ih =>
    rcases x.asks_or hr asking with ⟨run₀, hr₀, asking₀⟩ | asks
    · obtain ⟨xs₁, y, xs₂, rfl, reached, asks, since⟩ := ih hr₀ asking₀
      refine ⟨xs₁, y, xs₂ ++ [x], ?_, reached, asks, since.snoc⟩
      rw [List.append_assoc, List.cons_append]
    · exact ⟨xs, x, [], rfl, before.reachable ⟨config, t₀, [], valid, .refl t₀⟩, asks, .nil⟩

/-- The markets that a run asks for are active, each with its own worker. -/
theorem Move.Asks.covers (asks : x.Asks r due) (reached : x.before.Reachable)
    (covered : (m, i) ∈ due) :
    x.before.desk.slot? m = some (.active i) ∧ ∀ m', (m', i) ∈ due → m' = m := by
  have slot : ∀ {m'}, (m', i) ∈ due → x.before.desk.slot? m' = some (.active i) := by
    intro m' hm'
    rw [asks.due] at hm'
    exact Desk.slot?_of_mem_dueMarkets reached.distinct hm'
  refine ⟨slot covered, fun m' hm' => ?_⟩
  obtain ⟨w, hw, rfl⟩ := reached.sound.staffed m i (slot covered)
  obtain ⟨w', hw', rfl⟩ := reached.sound.staffed m' i (slot hm')
  rw [Option.some.inj (hw.symm.trans hw')]

/-- An answer is taken in by a run that waits for one. -/
theorem step_answer (hr : t.run? r = some run) (asking : run.refresh = .asking due)
    (prices : Table MarketId Decimal) :
    t.step (.hear (.refresh r) (.prices (.ok prices))) =
      some ({ t with desk := t.desk.refresh due prices t.now }.setRefresh r run
        (.sleeping (t.clock + t.config.tradeRefresh.pollInterval)), []) := by
  simp [step, hear, refreshHears, hr, asking]

/-- **What a book shows once an answer has come.** A run has asked for the price of a market, and
whatever happened since then, the answer comes. If it has a price for the market, then this is the
price that the book shows; otherwise it is the last one that was written since the run has asked, or
the one that was there. A trade that was brought in the meantime is lost to the book exactly if the
answer has another price. -/
theorem price_of_answer (valid : ofConfig config = .ok t₀) (trail : Trail t₀ xs t)
    (hr : t.run? r = some run) (asking : run.refresh = .asking due) (covered : (m, i) ∈ due)
    (prices : Table MarketId Decimal) :
    ∃ xs₁ x xs₂ t' w, xs = xs₁ ++ x :: xs₂ ∧ x.Asks r due ∧
      x.before.desk.slot? m = some (.active i) ∧
      t.step (.hear (.refresh r) (.prices (.ok prices))) = some (t', []) ∧
      t'.desk.worker? i = some w ∧ w.market = m ∧
      w.keeper.book.lastTrade = ((prices.get? m).or (pricesOf xs₂ i).getLast?).or
        (x.after.desk.lastTrade? i) ∧
      ∀ p, (pricesOf xs₂ i).getLast? = some p →
        (w.keeper.book.lastTrade = some p ↔ prices.get? m = none ∨ prices.get? m = some p) := by
  obtain ⟨xs₁, x, xs₂, rfl, reached, asks, since⟩ := trail.asked valid hr asking
  obtain ⟨slot, own⟩ := asks.covers reached covered
  have step := step_answer hr asking prices
  let y : Move := ⟨t, _, _, _, step⟩
  have hprices : y.prices i = Desk.askedPrices due prices i := by
    simp [y, Move.prices, Move.acts, answered, askedBy_eq hr asking]
  obtain ⟨w₀, hw₀, hm₀⟩ := reached.sound.staffed m i slot
  obtain ⟨w₁, hw₁, hm₁, -⟩ := x.writes i w₀ hw₀
  obtain ⟨w₂, hw₂, hm₂, hlast₂⟩ := since.writes i w₁ hw₁
  obtain ⟨w, hw, hm, hlast⟩ := y.writes i w₂ hw₂
  have hbook : w.keeper.book.lastTrade = ((prices.get? m).or (pricesOf xs₂ i).getLast?).or
      (x.after.desk.lastTrade? i) := by
    have hat : x.after.desk.lastTrade? i = w₁.keeper.book.lastTrade := by
      rw [Desk.lastTrade?, hw₁, Option.bind_some]
    rw [hlast, hprices, Desk.getLast?_askedPrices prices covered own, hlast₂, hat,
      Option.or_assoc]
  refine ⟨xs₁, x, xs₂, _, w, rfl, asks, slot, step, hw,
    hm.trans (hm₂.trans (hm₁.trans hm₀)), hbook, fun p hp => ?_⟩
  rw [hbook, hp]
  cases prices.get? m <;> simp

/-! ### A trade that is lost -/

/-- A trade of the market at a price. -/
def sampleTrade (price : Decimal) : Trade :=
  ⟨⟨"BTC-USD"⟩, "t-1", default, price, default, .buy⟩

/-- The price of the trade. -/
def livePrice : Decimal := (Decimal.ofParts? false 105 0).getD .zero

/-- The price that the source has for the market. -/
def olderPrice : Decimal := (Decimal.ofParts? false 90 0).getD .zero

/-- What the source answers. -/
def olderPrices : Table MarketId Decimal := ⟨[(⟨"BTC-USD"⟩, olderPrice)]⟩

/-- The market becomes active, and the refresh asks for its price. -/
def askingPrices : List Label :=
  .start :: fetchBook 10 ++ [.proceed (.startup 0), .proceed (.listener 0 (.stream .trade)),
    .proceed (.router 0 .trade), .proceed (.refresh 0), .proceed (.refresh 0)]

/-- A trade is brought. -/
def trading : List Label :=
  [.receive 0 (.trade (sampleTrade livePrice)), .proceed (.router 0 .trade)]

/-- The tracker that waits for the price. -/
def sampleAsking : Tracker := (sample.moves askingPrices).2

/-- The moves by which a trade is brought in the meantime, and what they lead to. -/
def sampleTraded : List Move × Tracker := sampleAsking.moves trading

/-- Whether its run waits for this price. -/
def IsAsking (t : Tracker) : Prop :=
  ∃ run, t.run? 0 = some run ∧ run.refresh = .asking [(⟨"BTC-USD"⟩, 0)]

theorem isAsking_of_map (h : (t.run? 0).map Run.refresh = some (.asking [(⟨"BTC-USD"⟩, 0)])) :
    t.IsAsking :=
  Option.map_eq_some_iff.mp h

/-- The answer has another price than the trade, and this is what the book shows. -/
theorem price_of_answer_sample : ∃ xs t run ys t' w, ofConfig sample.config = .ok sample ∧
    Trail sample xs t ∧ t.run? 0 = some run ∧ run.refresh = .asking [(⟨"BTC-USD"⟩, 0)] ∧
    t.desk.lastTrade? 0 = some livePrice ∧ Trail t ys t' ∧
    t'.desk.worker? 0 = some w ∧ w.keeper.book.lastTrade = some olderPrice := by
  have valid : ofConfig sample.config = .ok sample := rfl
  have trail := trail_moves (askingPrices ++ trading) sample
  obtain ⟨run, hr, asking⟩ : (sample.moves (askingPrices ++ trading)).2.IsAsking :=
    isAsking_of_map (by decide +kernel)
  obtain ⟨xs₁, x, xs₂, t', w, -, -, -, step, hw, -, hlast, -⟩ :=
    price_of_answer valid trail hr asking List.mem_cons_self olderPrices
  exact ⟨_, _, run, _, t', w, valid, trail, hr, asking, by decide +kernel, trail_cons step .nil, hw,
    hlast⟩

/-- **A trade that comes while a price is asked for is lost to the book**: it is written there, and
then the answer writes the older price over it. -/
theorem trade_lost : sampleAsking.Reachable ∧ ∃ run run' t', sampleAsking.run? 0 = some run ∧
    run.refresh = .asking [(⟨"BTC-USD"⟩, 0)] ∧
    Trail sampleAsking sampleTraded.1 sampleTraded.2 ∧
    pricesOf sampleTraded.1 0 = [livePrice] ∧
    sampleTraded.2.run? 0 = some run' ∧ run'.refresh = .asking [(⟨"BTC-USD"⟩, 0)] ∧
    sampleTraded.2.desk.lastTrade? 0 = some livePrice ∧
    sampleTraded.2.step (.hear (.refresh 0) (.prices (.ok olderPrices))) = some (t', []) ∧
    t'.desk.lastTrade? 0 = some olderPrice := by
  have reached : sampleAsking.Reachable :=
    (trail_moves askingPrices sample).reachable reachable_sample
  obtain ⟨run, hr, asking⟩ : sampleAsking.IsAsking := isAsking_of_map (by decide +kernel)
  obtain ⟨run', hr', asking'⟩ : sampleTraded.2.IsAsking := isAsking_of_map (by decide +kernel)
  refine ⟨reached, run, run', _, hr, asking, trail_moves trading sampleAsking, by decide +kernel,
    hr', asking', by decide +kernel, step_answer hr' asking' olderPrices, ?_⟩
  change (sampleTraded.2.desk.refresh [(⟨"BTC-USD"⟩, 0)] olderPrices sampleTraded.2.now).lastTrade?
    0 = some olderPrice
  decide +kernel

end Tracker

end LiveBook
