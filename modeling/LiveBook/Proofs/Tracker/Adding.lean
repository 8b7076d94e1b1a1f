import LiveBook.Proofs.Tracker.Calls

/-!
# Adding a market is all or nothing

A call that adds a market has many places to fail at, and at each of them something else has
already been done. How far it has come is told by what it has asked of the source and heard so
far (`LiveBook.Tracker.Adds`); whatever others do in between does not matter. The main statement,
`LiveBook.Tracker.add_answers`, is about the moment of the answer: the market is active with a
worker over the book that was fetched, or nothing is left of it, or nothing was done at all.

The source is asked to unsubscribe the market once if the call fails after it has asked for a
subscription that was not refused, and never otherwise.
-/

namespace LiveBook

/-- **A market is active, with a worker over the book of a snapshot.** -/
structure Desk.Opened (d : Desk) (m : MarketId) (s : Snapshot) : Prop where
  market : s.market = m
  worker : ∃ j w, d.slot? m = some (.active j) ∧ d.inCharge.get? m = some j ∧
    d.worker? j = some w ∧ w.market = m ∧ w.stage = .running ∧
    Book.ofSnapshot s = .ok w.keeper.book

theorem Desk.opened_of_activate {d d' : Desk} {m : MarketId} {s : Snapshot} {run : ℕ}
    {isCancelled : Bool} {window : ℕ} (h : d.activate m s run isCancelled window = .ok d') :
    d'.Opened m s := by
  have hslot := slot?_activate h m
  have hcharge := inCharge_activate h m
  obtain ⟨b, p, hm, hb, -, rfl⟩ := activate_eq_ok h
  exact ⟨hm, _, _, hslot.trans (if_pos rfl), hcharge.trans (if_pos rfl),
    List.getElem?_concat_length, rfl, rfl, hb⟩

namespace Tracker

variable {t : Tracker} {m : MarketId} {i : ℕ} {b : Bool} {xs : List Move} {x : Move}

/-- **What was said** when the adding of a market fails that was not refused: it may fail before
the subscription was accepted, then, while the book is fetched, and with the book. -/
inductive Tried (m : MarketId) : List Exchange → Prop where
  | subscribe : Tried m [.asked (.subscribe m)]
  | accept : Tried m [.asked (.subscribe m), .heard (.flag true)]
  | fetch : Tried m [.asked (.subscribe m), .heard (.flag true), .asked (.book m)]
  | fail (result : Except SourceError Snapshot) :
      Tried m [.asked (.subscribe m), .heard (.flag true), .asked (.book m), .heard (.book result)]

/-- **How far the adding of a market has come**, after what was said so far. -/
inductive Adds (m : MarketId) (i : ℕ) (xs : List Move) (t : Tracker) : Prop where
  | waits {r : ℕ} {stage : AddStage} (hs : t.request? i = some (.add m r stage))
      (outside : stage = .awaitingReady ∨ stage = .locking) (silent : dialogue i xs = [])
      (idled : Idled i xs)
  | subscribes {r : ℕ} (hs : t.request? i = some (.add m r .subscribing))
      (said : dialogue i xs = [.asked (.subscribe m)])
  | subscribed {r : ℕ} (hs : t.request? i = some (.add m r .subscribed))
      (said : dialogue i xs = [.asked (.subscribe m), .heard (.flag true)])
  | fetches {r : ℕ} (hs : t.request? i = some (.add m r .fetching))
      (said : dialogue i xs = [.asked (.subscribe m), .heard (.flag true), .asked (.book m)])
  | rollsBack {r : ℕ} {es : List Exchange} (hs : t.request? i = some (.add m r .rollingBack))
      (tried : Tried m es) (said : dialogue i xs = es ++ [.asked (.unsubscribe m)])
      (gone : t.desk.slot? m = none)
  | answered {reply : Reply} (hs : t.request? i = some (.answered reply))

namespace Adds

/-- The moves of others do not matter. -/
theorem unmoved (h : Adds m i xs x.before) (order : x.before.Orderly) (orderly : x.IsOrderly)
    (hx : ¬x.IsOf i) : Adds m i (xs ++ [x]) x.after := by
  have said : ∀ {s es}, x.before.request? i = some s → dialogue i xs = es →
      dialogue i (xs ++ [x]) = es := fun hs => (dialogue_unmoved hs hx).trans
  cases h with
  | waits hs outside silent idled =>
    exact .waits (x.unmoved hs hx).1 outside (said hs silent)
      (idled_snoc.mpr ⟨idled, (absurd · hx)⟩)
  | subscribes hs hsaid => exact .subscribes (x.unmoved hs hx).1 (said hs hsaid)
  | subscribed hs hsaid => exact .subscribed (x.unmoved hs hx).1 (said hs hsaid)
  | fetches hs hsaid => exact .fetches (x.unmoved hs hx).1 (said hs hsaid)
  | rollsBack hs tried hsaid gone =>
    -- nobody else can register the market meanwhile
    have hq := Move.quiet order orderly hs trivial hx
    exact .rollsBack (x.unmoved hs hx).1 tried (said hs hsaid) (x.slot?_of_quiet hq gone)
  | answered hs => exact .answered (x.unmoved hs hx).1

/-- **The call itself goes on.** -/
theorem goesOn (h : Adds m i xs x.before) (hx : x.IsOf i) : Adds m i (xs ++ [x]) x.after := by
  have goes : ∀ {s}, x.before.request? i = some s →
      x.before.Goes i s x.label x.effects x.after := hx.goes
  obtain ⟨t, l, fx, t', step⟩ := x
  dsimp only at h goes ⊢
  cases h with
  | @waits r stage hs outside silent idled =>
    have hgoes := goes hs
    cases hgoes with
    | addQueues ready =>
      exact .waits (request?_setRequest_self hs) (.inr rfl) (by simp [silent])
        (idled_snoc.mpr ⟨idled, fun _ => rfl⟩)
    | addGivesUp cancelled => exact .answered (request?_setRequest_self hs)
    | addDeclines holds => exact .answered (request?_setRequest_self hs)
    | addRegisters holds going new =>
      exact .subscribes (request?_setRequest_self hs) (by simp [silent])
    | @addQuits m r stage cancelled adding =>
      -- there is nothing to undo yet
      rcases outside with rfl | rfl <;> cases adding
    | _ => simp at outside
  | @subscribes r hs said =>
    have hgoes := goes hs
    cases hgoes with
    | addSubscribed =>
      exact .subscribed (request?_setRequest_self hs) (by simp [said])
    | addRefused => exact .answered (request?_setRequest_self hs)
    | addQuits cancelled adding =>
      exact .rollsBack (request?_setRequest_self hs) .subscribe (by simp [said])
        (by simp [setRequest])
  | @subscribed r hs said =>
    have hgoes := goes hs
    cases hgoes with
    | addFetches =>
      exact .fetches (request?_setRequest_self hs) (by simp [said])
    | addQuits cancelled adding =>
      exact .rollsBack (request?_setRequest_self hs) .accept (by simp [said])
        (by simp [setRequest])
  | @fetches r hs said =>
    have hgoes := goes hs
    cases hgoes with
    | addActivates hd => exact .answered (request?_setRequest_self hs)
    | addQuits cancelled adding =>
      exact .rollsBack (request?_setRequest_self hs) .fetch (by simp [said])
        (by simp [setRequest])
    | @addFails m r result cause why =>
      exact .rollsBack (request?_setRequest_self hs) (.fail result)
        (by simp [said, List.filterMap_cons]) (by simp [setRequest])
  | @rollsBack r es hs tried said gone =>
    have hgoes := goes hs
    cases hgoes with
    | addRolledBack b => exact .answered (request?_setRequest_self hs)
    | addQuits cancelled adding => cases adding
  | answered hs =>
    have hgoes := goes hs
    cases hgoes

end Adds

/-- At any moment after the call, the adding of the market has come to some place. -/
theorem Since.adds (h : Since (.add m) i xs t) : Adds m i xs t := by
  -- by induction on the moves, each of which is one of the call or of somebody else
  induction h with
  | @made x orderly asked number =>
    obtain ⟨t, l, fx, t', step⟩ := x
    dsimp only at asked number
    subst asked number
    have hasks := (step_happens step).asked
    cases hasks with
    | addsNothing idle => exact .answered List.getElem?_concat_length
    | adds hrun =>
      exact .waits List.getElem?_concat_length (.inl rfl) rfl fun y hy _ =>
        (List.mem_singleton.mp hy) ▸ rfl
  | @snoc xs x before orderly ih =>
    by_cases hx : x.IsOf i
    · exact ih.goesOn hx
    · exact ih.unmoved before.orderly orderly hx

/-! ### The answer -/

/-- The source has refused the subscription. -/
def Refused (m : MarketId) (es : List Exchange) : Prop :=
  [.asked (.subscribe m), .heard (.flag false)] <:+: es

/-- **What the answer to the adding of a market means**, after the moves since the call. -/
structure AddAnswers (m : MarketId) (i : ℕ) (b : Bool) (xs : List Move) (t : Tracker) : Prop where
  /-- The market was subscribed to, and it is active with a worker over the book that was
  fetched. -/
  added : b = true → ∃ book, t.desk.Opened m book ∧
    dialogue i xs = [.asked (.subscribe m), .heard (.flag true), .asked (.book m),
      .heard (.book (.ok book))]
  /-- Nothing was done, or nothing is left. -/
  undone : b = false → dialogue i xs = [] ∧ Idled i xs ∨ t.desk.Forgotten m
  unsubscribed : b = false → .subscribe m ∈ calls i xs → ¬Refused m (dialogue i xs) →
    (calls i xs).count (.unsubscribe m) = 1
  kept : ¬(b = false ∧ .subscribe m ∈ calls i xs ∧ ¬Refused m (dialogue i xs)) →
    (calls i xs).count (.unsubscribe m) = 0

namespace AddAnswers

/-- Nothing was said at all. -/
theorem of_silent (silent : dialogue i xs = []) (idled : Idled i xs) :
    AddAnswers m i false xs t where
  added h := by cases h
  undone _ := .inl ⟨silent, idled⟩
  unsubscribed _ hcall := by simp [calls, silent] at hcall
  kept _ := by simp [calls, silent]

theorem of_refused (said : dialogue i xs = [.asked (.subscribe m), .heard (.flag false)])
    (gone : t.desk.Forgotten m) : AddAnswers m i false xs t where
  added h := by cases h
  undone _ := .inr gone
  unsubscribed _ _ hrefused := absurd (said ▸ List.infix_refl _) hrefused
  kept _ := by simp [calls, said]

theorem of_tried {es : List Exchange} {answer : Bool} (tried : Tried m es)
    (said : dialogue i xs = es ++ [.asked (.unsubscribe m), .heard (.flag answer)])
    (gone : t.desk.Forgotten m) : AddAnswers m i false xs t := by
  have once : (calls i xs).count (.unsubscribe m) = 1 := by
    rw [calls, said]
    cases tried <;> simp
  have subscribes : .subscribe m ∈ calls i xs := by
    rw [calls, said]
    cases tried <;> simp
  have accepted : ¬Refused m (dialogue i xs) := by
    rw [said]
    cases tried <;> simp [Refused, List.infix_cons_iff, List.cons_prefix_cons]
  exact
    { added := fun h => by cases h
      undone := fun _ => .inr gone
      unsubscribed := fun _ _ _ => once
      kept := fun h => absurd ⟨rfl, subscribes, accepted⟩ h }

theorem of_opened {book : Snapshot} (opened : t.desk.Opened m book)
    (said : dialogue i xs = [.asked (.subscribe m), .heard (.flag true), .asked (.book m),
      .heard (.book (.ok book))]) : AddAnswers m i true xs t where
  added _ := ⟨book, opened, said⟩
  undone h := by cases h
  unsubscribed h := by cases h
  kept _ := by simp [calls, said]

/-- The call is answered at once where the tracker does not run. -/
theorem of_made (asked : x.label = .ask (.add m)) (number : i = x.before.requests.length)
    (answered : .answered i (.flag b) ∈ x.effects) : AddAnswers m i b [x] t := by
  obtain ⟨t, l, fx, t', step⟩ := x
  dsimp only at asked number answered
  subst asked number
  have hasks := (step_happens step).asked
  cases hasks with
  | addsNothing idle =>
    obtain rfl : b = false := by simpa using answered
    exact .of_silent rfl fun y hy _ => (List.mem_singleton.mp hy) ▸ rfl
  | adds hrun => cases answered

end AddAnswers

/-- **The call is answered** when it gives up, when it is refused, when all has gone well, or when
everything was undone. -/
theorem Adds.answers {op : Operation} (h : Adds m i xs x.before) (order : x.after.desk.InOrder op)
    (hx : x.IsOf i) (answered : .answered i (.flag b) ∈ x.effects) :
    AddAnswers m i b (xs ++ [x]) x.after := by
  have goes : ∀ {s}, x.before.request? i = some s →
      x.before.Goes i s x.label x.effects x.after := hx.goes
  obtain ⟨t, l, fx, t', step⟩ := x
  dsimp only at h goes answered order ⊢
  cases h with
  | @waits r stage hs outside silent idled =>
    have hgoes := goes hs
    cases hgoes with
    | addGivesUp cancelled =>
      obtain rfl : b = false := by simpa using answered
      exact .of_silent (by simp [silent]) (idled_snoc.mpr ⟨idled, fun _ => rfl⟩)
    | addDeclines holds =>
      obtain rfl : b = false := by simpa using answered
      exact .of_silent (by simp [silent]) (idled_snoc.mpr ⟨idled, fun _ => rfl⟩)
    | _ => simp at answered outside
  | @subscribes r hs said =>
    have hgoes := goes hs
    cases hgoes with
    | addRefused =>
      obtain rfl : b = false := by simpa using answered
      exact .of_refused (by simp [said]) (order.forgotten (by simp [setRequest, unlock]))
    | _ => simp at answered
  | @subscribed r hs said =>
    have hgoes := goes hs
    cases hgoes <;> simp at answered
  | @fetches r hs said =>
    have hgoes := goes hs
    cases hgoes with
    | @addActivates m r book d' hd =>
      obtain rfl : b = true := by simpa using answered
      exact .of_opened (Desk.opened_of_activate hd) (by simp [said])
    | _ => simp at answered
  | @rollsBack r es hs tried said gone =>
    have hgoes := goes hs
    cases hgoes with
    | addRolledBack answer =>
      obtain rfl : b = false := by simpa using answered
      have hsaid := congrArg (· ++ [Exchange.heard (.flag answer)]) said
      exact .of_tried tried (by simpa [List.filterMap_cons] using hsaid) (order.forgotten gone)
    | _ => simp at answered
  | answered hs =>
    have hgoes := goes hs
    cases hgoes

/-- **Adding a market is all or nothing.** Whatever the source answers and whatever else happens
meanwhile, when the call returns, the market is active with a worker over the book that was
fetched; or nothing is left of it; or nothing was done and nothing asked. -/
theorem add_answers (h : Since (.add m) i (xs ++ [x]) t)
    (answered : .answered i (.flag b) ∈ x.effects) : AddAnswers m i b (xs ++ [x]) t := by
  have order := h.orderly.inOrder.desk
  obtain ⟨rfl, ⟨rfl, -, asked, number⟩ | ⟨before, -⟩⟩ := h.last
  · exact .of_made asked number answered
  · exact before.adds.answers order (x.happens.shown answered rfl) answered

/-! ### A market that is added

All goes well, and the market is active with a worker over its first book. -/

/-- A tracker of which it was asked to add a market. -/
def sampleAdding : Tracker := (sampleReady.ask (.add ⟨"ETH-USD"⟩)).1

/-- The market was subscribed to, and its first book is being fetched. -/
def sampleFetching : Tracker :=
  ((sampleAdding.stepAll ⟨"BTC-USD"⟩ [.proceed (.request 0), .proceed (.request 0),
    .hear (.request 0) (.flag true), .proceed (.request 0)]).map Prod.fst).getD sampleAdding

theorem add_answers_sample : ∃ xs x t, Since (.add ⟨"ETH-USD"⟩) 0 (xs ++ [x]) t ∧
    .answered 0 (.flag true) ∈ x.effects ∧ ∃ book, t.desk.Opened ⟨"ETH-USD"⟩ book := by
  have made : Since (.add ⟨"ETH-USD"⟩) 0 _ sampleAdding :=
    .made (x := ⟨sampleReady, .ask (.add ⟨"ETH-USD"⟩), [], sampleAdding, rfl⟩)
      orderly_sampleReady rfl rfl
  have steps : StepsWithin ⟨"BTC-USD"⟩ sampleAdding _ sampleFetching :=
    stepsWithin_of_stepAll [.proceed (.request 0), .proceed (.request 0),
      .hear (.request 0) (.flag true), .proceed (.request 0)] rfl
  obtain ⟨xs, since⟩ := made.within (by decide) steps
  have all := Since.snoc (x := ⟨sampleFetching,
    .hear (.request 0) (.book (.ok ⟨⟨"ETH-USD"⟩, 7, default, [], []⟩)), _, _, rfl⟩)
    since (by simp [Move.IsOrderly])
  have answered : TrackerEffect.answered 0 (.flag true) ∈ [TrackerEffect.answered 0 (.flag true)] :=
    List.mem_singleton.mpr rfl
  obtain ⟨book, opened, -⟩ := (add_answers all answered).added rfl
  exact ⟨_, _, _, all, answered, book, opened⟩

end Tracker

end LiveBook
