import LiveBook.Proofs.Tracker.Queue

/-!
# What a call does

Whoever adds a market, removes one or stops a tracker makes a call, and between the call and its
answer many other things may happen. Such a stretch of time is a list of moves
(`LiveBook.Tracker.Since`), of which some are those of the call and the others are not.

* `LiveBook.Tracker.dialogue` – what the call has asked of the source, and what it has heard;
* `LiveBook.Tracker.Move.Idles` – a move after which nothing has changed but that the call waits
  elsewhere;
* `LiveBook.Desk.Forgotten` – a market of which nothing is left;
* `LiveBook.Tracker.Move.unmoved` – nobody but the call itself changes how far it has come or
  speaks for it.
-/

namespace LiveBook

/-! ### Markets of which nothing is left -/

/-- **Nothing is left of a market.** It has no slot, nobody works for it or is in charge of it, and
it has neither a book nor diffs that were set aside nor a tally. -/
structure Desk.Forgotten (d : Desk) (m : MarketId) : Prop where
  slot : d.slot? m = none
  worker : ∀ i w, d.worker? i = some w → w.market = m → w.stage = .ended
  inCharge : d.inCharge.get? m = none
  book : d.book? m = none
  pending : d.pendingSize m = 0
  tally : d.metrics.hasMarket m = false

/-- At a desk in order, nothing is left of a market without a slot. -/
theorem Desk.InOrder.forgotten {d : Desk} {op : Operation} {m : MarketId} (h : d.InOrder op)
    (hs : d.slot? m = none) : d.Forgotten m := by
  have hphase : d.phase m = .unregistered := phase_of_none hs
  have inactive : ∀ i, d.slot? m ≠ some (.active i) := by simp [hs]
  refine ⟨hs, fun i w hw hm => h.ended_of_inactive (fun j hop => ?_) inactive hw hm, ?_, ?_, ?_, ?_⟩
  · exact absurd (hphase.symm.trans ((h.market m).removing.mpr ⟨j, hop⟩)) (by simp)
  · cases hcharge : d.inCharge.get? m with
    | none => rfl
    | some i => exact absurd ((h.market m).inCharge i hcharge) (inactive i)
  · simp [book?, hs]
  · exact pendingSize_eq_zero (by simp [hs])
  · cases htally : d.metrics.hasMarket m with
    | false => rfl
    | true => exact absurd hphase ((h.market m).tallied htally)

namespace Tracker

/-! ### Moves -/

/-- **A move**: one step of a tracker. -/
structure Move where
  before : Tracker
  label : Label
  effects : List TrackerEffect
  after : Tracker
  step : before.step label = some (after, effects)

/-- What is said between a call and the source. -/
inductive Exchange where
  | asked (call : SourceCall)
  | heard (answer : SourceAnswer)

/-- What a call hears with a label. -/
def Label.heard (i : ℕ) : Label → List Exchange
  | .hear (.request j) a => if j = i then [.heard a] else []
  | _ => []

/-- What is asked for a call with an effect. -/
def asked? (i : ℕ) : TrackerEffect → Option Exchange
  | .called (.request j) call => if j = i then some (.asked call) else none
  | _ => none

variable {t t' : Tracker} {q : Request} {i : ℕ} {s : RequestStage} {xs : List Move} {x : Move}
  {m : MarketId}

@[simp] theorem heard_hear (i : ℕ) (a : SourceAnswer) :
    Label.heard i (.hear (.request i) a) = [.heard a] :=
  if_pos rfl

@[simp] theorem heard_proceed (i : ℕ) (a : Actor) : Label.heard i (.proceed a) = [] := rfl

@[simp] theorem heard_quit (i : ℕ) (a : Actor) : Label.heard i (.quit a) = [] := rfl

@[simp] theorem asked?_failed (i : ℕ) (a : Actor) (cause : TrackerError) :
    asked? i (.failed a cause) = none := rfl

@[simp] theorem asked?_answered (i j : ℕ) (reply : Reply) :
    asked? i (.answered j reply) = none := rfl

@[simp] theorem asked?_called (i : ℕ) (call : SourceCall) :
    asked? i (.called (.request i) call) = some (.asked call) :=
  if_pos rfl

namespace Move

/-- No run begins before a stop has ended. -/
def IsOrderly (x : Move) : Prop := x.label = .start → ¬x.before.IsStopping

/-- It is a move of this call: the call goes on, or is made. -/
def IsOf (i : ℕ) (x : Move) : Prop :=
  x.label.request? = some i ∨ (∃ q, x.label = .ask q) ∧ i = x.before.requests.length

/-- **Nothing has changed** but how far calls have come, and who waits for the lock. -/
def Idles (x : Move) : Prop :=
  x.after = { x.before with requests := x.after.requests, lock := x.after.lock }

/-- What is said between a call and the source with a move. -/
def exchanges (i : ℕ) (x : Move) : List Exchange :=
  x.label.heard i ++ x.effects.filterMap (asked? i)

@[simp] theorem exchanges_mk {l : Label} {fx : List TrackerEffect}
    (step : t.step l = some (t', fx)) (i : ℕ) :
    exchanges i ⟨t, l, fx, t', step⟩ = l.heard i ++ fx.filterMap (asked? i) := rfl

theorem happens (x : Move) : x.before.Happens x.label x.effects x.after := step_happens x.step

theorem heard_eq_nil {l : Label} (hl : l.request? ≠ some i) : l.heard i = [] := by
  unfold Label.heard
  split
  next j a =>
    refine if_neg ?_
    rintro rfl
    exact hl rfl
  next => rfl

theorem asked?_eq_none {e : TrackerEffect} (he : e.request? ≠ some i) : asked? i e = none := by
  unfold asked?
  split
  next j call =>
    refine if_neg ?_
    rintro rfl
    exact he rfl
  next => rfl

/-- Nothing is said for a call with the moves of others. -/
theorem exchanges_of_not_isOf (hx : ¬x.IsOf i) : x.exchanges i = [] := by
  have hlabel : x.label.request? ≠ some i := fun h => hx (.inl h)
  rw [exchanges, heard_eq_nil hlabel, List.nil_append, List.filterMap_eq_nil_iff]
  intro e he
  exact asked?_eq_none fun hi => hx (x.happens.shown he hi)

/-- A call that was made before goes on only as itself. -/
theorem isOf_iff (hs : x.before.request? i = some s) :
    x.IsOf i ↔ x.label.request? = some i := by
  refine ⟨fun h => h.resolve_right ?_, .inl⟩
  rintro ⟨-, hi⟩
  exact absurd (List.getElem?_eq_some_iff.mp hs).1 (hi ▸ lt_irrefl _)

/-- A move of a call that was made before follows one of its rules. -/
theorem IsOf.goes (hx : x.IsOf i) (hs : x.before.request? i = some s) :
    x.before.Goes i s x.label x.effects x.after := by
  have hlabel := (isOf_iff hs).mp hx
  have hhappens := x.happens
  generalize x.label = l at hlabel hhappens ⊢
  generalize x.effects = fx at hhappens ⊢
  generalize x.after = t' at hhappens ⊢
  cases hhappens with
  | goes hl hs' h =>
    obtain rfl := Option.some.inj (hl.symm.trans hlabel)
    obtain rfl := Option.some.inj (hs.symm.trans hs')
    exact h
  | tends hl other h => exact absurd (hl.symm.trans hlabel) (by simp)
  | _ => cases hlabel

/-- **Nobody else speaks for a call** or changes how far it has come. -/
theorem unmoved (hs : x.before.request? i = some s) (hx : ¬x.IsOf i) :
    x.after.request? i = some s ∧ x.exchanges i = [] :=
  ⟨x.happens.request?_of_ne (fun h => hx (.inl h)) hs, exchanges_of_not_isOf hx⟩

/-- **While a call has the lock, nobody else touches the order of the desk.** -/
theorem quiet (h : x.before.Orderly) (orderly : x.IsOrderly) (hs : x.before.request? i = some s)
    (has : s.HasLock) (hx : ¬x.IsOf i) : x.before.desk.Quiet x.after.desk := by
  have holds := h.inOrder.held i s hs has
  rcases x.happens.quiet h.inOrder holds fun hl => hx (.inl hl) with hq | ⟨hstart, idle, -⟩
  · exact hq
  · exact ((h.busy i s hs has).elim (absurd idle) (orderly hstart)).elim

/-- **While a call has the lock,** nobody else makes a market active, or ends that. -/
theorem active_iff (x : Move) (order : x.before.InOrder) (orderly : x.IsOrderly)
    (holds : x.before.holdsLock (.request i) = true) (hl : x.label.request? ≠ some i)
    (m : MarketId) : x.after.desk.phase m = .active ↔ x.before.desk.phase m = .active := by
  rcases x.happens.quiet order holds hl with hq | ⟨hstart, idle, hafter⟩
  · rw [(hq.spares m).phase]
  · -- a run begins, where no market was tracked; then none is active
    have hbefore := order.emptied idle (orderly hstart) m
    have hphase : x.after.desk.phase m ≠ .active := by
      rw [hafter, started, Desk.phase_registerAll]
      split
      · simp
      · have hmarked : (Desk.phase { x.before.desk with
            metrics := x.before.desk.metrics.markStarted x.before.now } m) = .unregistered :=
          hbefore
        simp [hmarked]
    simp [hbefore, hphase]

theorem slot?_of_quiet (hq : x.before.desk.Quiet x.after.desk)
    (hm : x.before.desk.slot? m = none) : x.after.desk.slot? m = none := by
  rw [← Desk.phase_eq_unregistered] at hm ⊢
  exact (hq.spares m).phase.trans hm

end Move

/-- **Any moves,** one after the other, with no run that begins before a stop has ended. -/
inductive Course (t : Tracker) : List Move → Tracker → Prop where
  | nil : Course t [] t
  | snoc {xs : List Move} {x : Move} (before : Course t xs x.before) (orderly : x.IsOrderly) :
      Course t (xs ++ [x]) x.after

theorem Course.append {t'' : Tracker} {ys : List Move} (h : Course t xs t')
    (h' : Course t' ys t'') : Course t (xs ++ ys) t'' := by
  induction h' with
  | nil => rwa [List.append_nil]
  | snoc _ orderly ih =>
    rw [← List.append_assoc]
    exact .snoc ih orderly

theorem Course.orderly (h : Course t xs t') (ht : t.Orderly) : t'.Orderly := by
  induction h with
  | nil => exact ht
  | @snoc xs x before orderly ih => exact .step ih orderly x.step

/-! ### Calls -/

/-- **The moves since a call was made**, which has got the number `i`. The first of them makes the
call. -/
inductive Since (q : Request) (i : ℕ) : List Move → Tracker → Prop where
  | made {x : Move} (orderly : x.before.Orderly) (asked : x.label = .ask q)
      (number : i = x.before.requests.length) : Since q i [x] x.after
  | snoc {xs : List Move} {x : Move} (before : Since q i xs x.before) (orderly : x.IsOrderly) :
      Since q i (xs ++ [x]) x.after

/-- What a call has asked of the source so far, and what it has heard. -/
def dialogue (i : ℕ) (xs : List Move) : List Exchange := xs.flatMap (Move.exchanges i)

/-- What a call has asked of the source so far. -/
def calls (i : ℕ) (xs : List Move) : List SourceCall :=
  (dialogue i xs).filterMap fun
    | .asked call => some call
    | .heard _ => none

/-- Nothing but calls has gone on, as far as this call is concerned. -/
def Idled (i : ℕ) (xs : List Move) : Prop := ∀ x ∈ xs, x.IsOf i → x.Idles

@[simp] theorem dialogue_snoc (i : ℕ) (xs : List Move) (x : Move) :
    dialogue i (xs ++ [x]) = dialogue i xs ++ x.exchanges i := by
  simp [dialogue]

/-- Nothing is said for a call with the moves of others. -/
theorem dialogue_unmoved (hs : x.before.request? i = some s) (hx : ¬x.IsOf i) :
    dialogue i (xs ++ [x]) = dialogue i xs := by
  rw [dialogue_snoc, (x.unmoved hs hx).2, List.append_nil]

theorem idled_snoc : Idled i (xs ++ [x]) ↔ Idled i xs ∧ (x.IsOf i → x.Idles) := by
  simp [Idled, or_imp, forall_and]

namespace Since

theorem orderly (h : Since q i xs t) : t.Orderly := by
  induction h with
  | @made x orderly asked number => exact .step orderly (by simp [asked]) x.step
  | @snoc xs x before orderly ih => exact .step ih orderly x.step

/-- The last of the moves makes the call, or comes later. -/
theorem last (h : Since q i (xs ++ [x]) t) : t = x.after ∧
    (xs = [] ∧ x.before.Orderly ∧ x.label = .ask q ∧ i = x.before.requests.length ∨
      Since q i xs x.before ∧ x.IsOrderly) := by
  generalize hys : xs ++ [x] = all at h
  cases h with
  | @made y orderly asked number =>
    obtain ⟨rfl, heq⟩ := List.append_inj' (show xs ++ [x] = [] ++ [y] from hys) rfl
    obtain rfl := List.singleton_inj.mp heq
    exact ⟨rfl, .inl ⟨rfl, orderly, asked, number⟩⟩
  | @snoc zs y before orderly =>
    obtain ⟨rfl, heq⟩ := List.append_inj' hys rfl
    obtain rfl := List.singleton_inj.mp heq
    exact ⟨rfl, .inr ⟨before, orderly⟩⟩

end Since

/-! ### Calls of a sample -/

theorem orderly_sampleStarted : sampleStarted.Orderly := by
  have valid : ofConfig sample.config = .ok sample := rfl
  have first : sample.step .start = some (sampleStarted, []) := rfl
  exact .step (.init valid) (fun _ ⟨i, st, hi⟩ => by cases hi) first

/-- The tracker of one market once that is active. -/
def sampleReady : Tracker :=
  ((sampleStarted.stepAll ⟨"BTC-USD"⟩ (fetchBook 10 ++ [.proceed (.startup 0)])).map
    Prod.fst).getD sampleStarted

theorem orderly_sampleReady : sampleReady.Orderly := by
  have steps : StepsWithin ⟨"BTC-USD"⟩ sampleStarted _ sampleReady :=
    stepsWithin_of_stepAll (fetchBook 10 ++ [.proceed (.startup 0)]) rfl
  exact (orderly_sampleStarted.within (by decide) steps).1

/-- Within one lifetime of a configured market, a call goes on as it should. -/
theorem Since.within (h : Since q i xs t) (hm : m ∈ t.config.markets)
    {tr : List (Label × List TrackerEffect)} (steps : StepsWithin m t tr t') :
    ∃ ys, Since q i (xs ++ ys) t' := by
  induction steps with
  | refl => exact ⟨[], (List.append_nil xs).symm ▸ h⟩
  | @tail es t' t'' l fx steps last lives ih =>
    obtain ⟨ys, hys⟩ := ih
    have hmarkets := (h.orderly.within hm steps).2
    refine ⟨ys ++ [⟨t', l, fx, t'', last⟩], ?_⟩
    rw [← List.append_assoc]
    refine .snoc (x := ⟨t', l, fx, t'', last⟩) hys ?_
    rintro rfl ⟨j, st, hj⟩
    exact lives (.inl ⟨rfl, hys.orderly.inOrder.stopped j st hj, hmarkets⟩)

end Tracker

end LiveBook
