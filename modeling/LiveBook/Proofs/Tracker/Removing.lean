import LiveBook.Proofs.Tracker.Calls

/-!
# Removing a market leaves nothing behind

A call that removes a market waits for the lock, then for the worker, and then for the source.
How far it has come is told by `LiveBook.Tracker.Removes`. The main statement,
`LiveBook.Tracker.remove_answers`, is about the moment of the answer: it tells whether the market
was active when the call got the lock; if it was, nothing is left of it, and nothing of it comes
back until it is registered again, whatever events are still on their way; and if it was not,
nothing was done.
-/

namespace LiveBook

namespace Tracker

variable {t t' : Tracker} {m : MarketId} {i : ℕ} {b : Bool} {xs ys : List Move} {x : Move}
  {p : Prop}

/-- **The call got the lock** with one of these moves, the first after which it has it, and then
the market was active if and only if `p`. -/
def Obtained (m : MarketId) (i : ℕ) (xs : List Move) (p : Prop) : Prop :=
  ∃ pre y post, xs = pre ++ y :: post ∧ (∀ z ∈ pre, z.after.holdsLock (.request i) = false) ∧
    y.after.holdsLock (.request i) = true ∧ (p ↔ y.after.desk.phase m = .active)

theorem Obtained.snoc (h : Obtained m i xs p) (x : Move) : Obtained m i (xs ++ [x]) p := by
  obtain ⟨pre, y, post, rfl, hrest⟩ := h
  exact ⟨pre, y, post ++ [x], by simp, hrest⟩

theorem Obtained.congr {p' : Prop} (h : Obtained m i xs p) (hp : p' ↔ p) : Obtained m i xs p' := by
  obtain ⟨pre, y, post, hxs, hpre, hy, hactive⟩ := h
  exact ⟨pre, y, post, hxs, hpre, hy, hp.trans hactive⟩

/-- **How far the removal of a market has come**, after what was said so far. -/
inductive Removes (m : MarketId) (i : ℕ) (xs : List Move) (t : Tracker) : Prop where
  | waits (hs : t.request? i = some (.remove m .locking))
      (locked : ∀ z ∈ xs, z.after.holdsLock (.request i) = false)
      (here : t.holdsLock (.request i) = false)
      (silent : dialogue i xs = []) (idled : Idled i xs)
  | holds (hs : t.request? i = some (.remove m .locking))
      (here : t.holdsLock (.request i) = true)
      (obtained : Obtained m i xs (t.desk.phase m = .active))
      (silent : dialogue i xs = []) (idled : Idled i xs)
  | retires {w : ℕ} (hs : t.request? i = some (.remove m (.awaitingWorker w)))
      (obtained : Obtained m i xs True) (silent : dialogue i xs = [])
  | unsubscribes (hs : t.request? i = some (.remove m .unsubscribing))
      (obtained : Obtained m i xs True) (said : dialogue i xs = [.asked (.unsubscribe m)])
  | answered {reply : Reply} (hs : t.request? i = some (.answered reply))

namespace Removes

/-- After a move, the call still waits, or has just got the lock. -/
theorem waits_or_holds (hs : x.after.request? i = some (.remove m .locking))
    (locked : ∀ z ∈ xs, z.after.holdsLock (.request i) = false)
    (silent : dialogue i (xs ++ [x]) = []) (idled : Idled i (xs ++ [x])) :
    Removes m i (xs ++ [x]) x.after := by
  cases here : x.after.holdsLock (.request i) with
  | true => exact .holds hs here ⟨xs, x, [], rfl, locked, here, .rfl⟩ silent idled
  | false =>
    refine .waits hs (fun z hz => ?_) here silent idled
    rcases List.mem_append.mp hz with hz | hz
    · exact locked z hz
    · exact (List.mem_singleton.mp hz) ▸ here

/-- The moves of others do not matter. -/
theorem unmoved (h : Removes m i xs x.before) (order : x.before.Orderly) (orderly : x.IsOrderly)
    (hx : ¬x.IsOf i) : Removes m i (xs ++ [x]) x.after := by
  have said : ∀ {s es}, x.before.request? i = some s → dialogue i xs = es →
      dialogue i (xs ++ [x]) = es := fun hs => (dialogue_unmoved hs hx).trans
  cases h with
  | waits hs locked here silent idled =>
    exact waits_or_holds (x.unmoved hs hx).1 locked (said hs silent)
      (idled_snoc.mpr ⟨idled, (absurd · hx)⟩)
  | holds hs here obtained silent idled =>
    refine .holds (x.unmoved hs hx).1 (x.happens.holds order.inOrder here fun h => hx (.inl h))
      ((obtained.congr ?_).snoc x) (said hs silent) (idled_snoc.mpr ⟨idled, (absurd · hx)⟩)
    exact x.active_iff order.inOrder orderly here (fun h => hx (.inl h)) m
  | retires hs obtained silent =>
    exact .retires (x.unmoved hs hx).1 (obtained.snoc x) (said hs silent)
  | unsubscribes hs obtained hsaid =>
    exact .unsubscribes (x.unmoved hs hx).1 (obtained.snoc x) (said hs hsaid)
  | answered hs => exact .answered (x.unmoved hs hx).1

/-- **The call itself goes on.** -/
theorem goesOn (h : Removes m i xs x.before) (order : x.before.InOrder) (hx : x.IsOf i) :
    Removes m i (xs ++ [x]) x.after := by
  have goes : ∀ {s}, x.before.request? i = some s →
      x.before.Goes i s x.label x.effects x.after := hx.goes
  obtain ⟨t, l, fx, t', step⟩ := x
  dsimp only at h goes order ⊢
  cases h with
  | waits hs locked here silent idled =>
    -- the call cannot go on without the lock
    have hgoes := goes hs
    cases hgoes with
    | removeDeclines holds => exact absurd (here.symm.trans holds) (by simp)
    | removeRetires holds => exact absurd (here.symm.trans holds) (by simp)
    | removeRetiresNobody holds => exact absurd (here.symm.trans holds) (by simp)
  | holds hs here obtained silent idled =>
    have hgoes := goes hs
    cases hgoes with
    | removeDeclines holds inactive => exact .answered (request?_setRequest_self hs)
    | removeRetires holds active charge =>
      have hphase : t.desk.phase m = .active := Desk.phase_of_slot active
      exact .retires (request?_setRequest_self hs) ((obtained.congr (by simp [hphase])).snoc _)
        (by simp [silent])
    | @removeRetiresNobody m j holds active charge =>
      -- an active market has somebody in charge, as no stop has dismissed them
      have hop : t.operation = .idle := operation_of_holdsLock here hs
      exact absurd (charge.symm.trans (order.inCharge_of_active hop active)) (by simp)
  | retires hs obtained silent =>
    have hgoes := goes hs
    cases hgoes with
    | removeUnsubscribes ended =>
      exact .unsubscribes (request?_setRequest_self hs) (obtained.snoc _) (by simp [silent])
  | unsubscribes hs obtained said =>
    have hgoes := goes hs
    cases hgoes with
    | removeEnds a => exact .answered (request?_setRequest_self hs)
  | answered hs =>
    have hgoes := goes hs
    cases hgoes

end Removes

/-- At any moment after the call, the removal of the market has come to some place. -/
theorem Since.removes (h : Since (.remove m) i xs t) : Removes m i xs t := by
  induction h with
  | @made x orderly asked number =>
    obtain ⟨t, l, fx, t', step⟩ := x
    dsimp only at asked number
    subst asked number
    have hasks := (step_happens step).asked
    cases hasks with
    | removes =>
      have idled : Idled t.requests.length [⟨t, _, _, _, step⟩] := fun y hy _ =>
        (List.mem_singleton.mp hy) ▸ rfl
      exact Removes.waits_or_holds List.getElem?_concat_length
        (fun z hz => absurd hz List.not_mem_nil) rfl idled
  | @snoc xs x before orderly ih =>
    by_cases hx : x.IsOf i
    · exact ih.goesOn before.orderly.inOrder hx
    · exact ih.unmoved before.orderly orderly hx

/-! ### The answer -/

/-- **A market of which nothing is left does not come back** until it is registered again. -/
theorem Course.forgotten (h : Course t ys t') (orderly : t.Orderly) (gone : t.desk.slot? m = none)
    (unregistered : ∀ y ∈ ys, ¬y.before.Registers y.label y.after m) : t'.desk.Forgotten m := by
  suffices hslot : t'.desk.slot? m = none from (h.orderly orderly).inOrder.desk.forgotten hslot
  induction h with
  | nil => exact gone
  | @snoc ys y before _ ih =>
    have hbefore := ih fun z hz => unregistered z (List.mem_append_left _ hz)
    by_contra hsome
    refine unregistered y (by simp) (.inr ⟨hbefore, ?_⟩)
    exact Option.isSome_iff_ne_none.mpr hsome

/-- **What the answer to the removal of a market means**, after the moves since the call. -/
structure RemoveAnswers (m : MarketId) (i : ℕ) (b : Bool) (xs : List Move) (t : Tracker) :
    Prop where
  /-- The market was active when the call got the lock, or was not. -/
  obtained : Obtained m i xs (b = true)
  /-- The source was asked once to unsubscribe the market, and nothing else; what it has answered
  does not matter. -/
  unsubscribed : b = true →
    ∃ answer, dialogue i xs = [.asked (.unsubscribe m), .heard (.flag answer)]
  /-- Nothing is left of the market, now and whatever comes before it is registered again. -/
  gone : b = true → ∀ ys t', Course t ys t' →
    (∀ y ∈ ys, ¬y.before.Registers y.label y.after m) → t'.desk.Forgotten m
  untouched : b = false → dialogue i xs = [] ∧ Idled i xs

/-- **The call is answered** when it has got the lock and the market is not active, or when the
source has said something about the end of the subscription. -/
theorem Removes.answers (h : Removes m i xs x.before) (orderly : x.after.Orderly) (hx : x.IsOf i)
    (answered : .answered i (.flag b) ∈ x.effects) :
    RemoveAnswers m i b (xs ++ [x]) x.after := by
  have goes : ∀ {s}, x.before.request? i = some s →
      x.before.Goes i s x.label x.effects x.after := hx.goes
  obtain ⟨t, l, fx, t', step⟩ := x
  dsimp only at h goes answered orderly ⊢
  cases h with
  | waits hs locked here silent idled =>
    have hgoes := goes hs
    cases hgoes with
    | removeDeclines holds => exact absurd (here.symm.trans holds) (by simp)
    | _ => simp at answered
  | holds hs here obtained silent idled =>
    have hgoes := goes hs
    cases hgoes with
    | removeDeclines holds inactive =>
      obtain rfl : b = false := by simpa using answered
      have hphase : t.desk.phase m ≠ .active := fun hactive => by
        obtain ⟨j, hj⟩ := Desk.phase_eq_active.mp hactive
        exact inactive j hj
      exact
        { obtained := (obtained.congr (by simp [hphase])).snoc _
          unsubscribed := fun h => by cases h
          gone := fun h => by cases h
          untouched := fun _ => ⟨by simp [silent], idled_snoc.mpr ⟨idled, fun _ => rfl⟩⟩ }
    | _ => simp at answered
  | retires hs obtained silent =>
    have hgoes := goes hs
    cases hgoes
    simp at answered
  | unsubscribes hs obtained said =>
    have hgoes := goes hs
    cases hgoes with
    | removeEnds a =>
      obtain rfl : b = true := by simpa using answered
      exact
        { obtained := (obtained.congr (by simp)).snoc _
          unsubscribed := fun _ => ⟨a, by simp [said]⟩
          gone := fun _ ys t' hcourse => hcourse.forgotten orderly (by simp [setRequest, unlock])
          untouched := fun h => by cases h }
  | answered hs =>
    have hgoes := goes hs
    cases hgoes

end Tracker

end LiveBook
