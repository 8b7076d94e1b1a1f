import Mathlib.Data.List.Nodup
import LiveBook.Source.Fanout

/-!
# What becomes of the events of a stream

The items that come into a buffer are handed on by whoever is first among its forwarders. Others
come and wait, are dropped, or find that their output is closed, at any moment. All the same the
items come out in the order in which they came in.

* `LiveBook.Relay.handled` – the items that were taken out of the buffer, by whom, and whether
  they have arrived;
* `LiveBook.Relay.order_of_course` – these items, and then those that still wait, are what came in;
* `LiveBook.Relay.Succession` – the forwarders take over from each other in the order in which they
  came, so that what has arrived is what the first of them has handed on, followed by what the
  second has, and so on;
* `LiveBook.Relay.Presence` – every forwarder that came is still there, was dropped, or has ended
  because its output was closed. Only the last can have lost an item, and only one;
* `LiveBook.Fanout.stream_faithful_of_course` – all of this for each of the three streams of a
  source, to which only its own moments matter.
-/

namespace LiveBook

section Sorted

variable {κ β : Type} [DecidableEq κ] {key : β → κ} {keys : List κ} {k : κ} {l : List β}

/-- In a list that is sorted by keys, the entries of the first key come first. -/
theorem filter_append_filter_of_pairwise (hk : k ∉ keys)
    (sorted : l.Pairwise fun b c => key b = key c ∨ [key b, key c].Sublist (k :: keys)) :
    l.filter (fun b => key b = k) ++ l.filter (fun b => key b ≠ k) = l := by
  induction l with
  | nil => rfl
  | cons b l ih =>
    obtain ⟨hb, hl⟩ := List.pairwise_cons.mp sorted
    by_cases heq : key b = k
    · simpa [heq] using ih hl
    · -- once another key has come, the first one does not come any more
      have others : ∀ c ∈ b :: l, key c ≠ k := by
        intro c hc hck
        rcases List.mem_cons.mp hc with rfl | hc
        · exact heq hck
        · rcases hb c hc with hsame | hsub
          · exact heq (hsame.trans hck)
          · rcases List.sublist_cons_iff.mp hsub with hsub | ⟨rest, hrest, -⟩
            · exact hk (hck ▸ hsub.subset (by simp))
            · exact heq (List.cons.inj hrest).1
      have none : (b :: l).filter (fun c => key c = k) = [] :=
        List.filter_eq_nil_iff.mpr fun c hc => by simpa using others c hc
      have all : (b :: l).filter (fun c => key c ≠ k) = b :: l :=
        List.filter_eq_self.mpr fun c hc => by simpa using others c hc
      rw [none, all, List.nil_append]

/-- What was dropped for one key does not matter for the others. -/
theorem flatMap_filter_ne (hk : k ∉ keys) :
    (keys.flatMap fun k' => (l.filter fun b => key b ≠ k).filter fun b => key b = k') =
      keys.flatMap fun k' => l.filter fun b => key b = k' := by
  refine List.flatMap_congr fun k' hk' => ?_
  have hne : k' ≠ k := fun heq => hk (heq ▸ hk')
  rw [List.filter_filter]
  refine List.filter_congr fun b _ => ?_
  by_cases hb : key b = k'
  · simp [hb, hne]
  · simp [hb]

/-- **A list that is sorted by keys** is what there is for the first key, followed by what there is
for the second, and so on. -/
theorem flatMap_filter_of_pairwise (nodup : keys.Nodup) (mem : ∀ b ∈ l, key b ∈ keys)
    (sorted : l.Pairwise fun b c => key b = key c ∨ [key b, key c].Sublist keys) :
    (keys.flatMap fun k => l.filter fun b => key b = k) = l := by
  induction keys generalizing l with
  | nil =>
    obtain rfl : l = [] := List.eq_nil_iff_forall_not_mem.mpr fun b hb => by simpa using mem b hb
    rfl
  | cons k keys ih =>
    obtain ⟨hk, hkeys⟩ := List.nodup_cons.mp nodup
    -- what is left without the first key is sorted by the other keys
    have other : ∀ b ∈ l.filter (fun b => key b ≠ k), key b ≠ k := fun b hb => by
      simpa using (List.mem_filter.mp hb).2
    have mem' : ∀ b ∈ l.filter (fun b => key b ≠ k), key b ∈ keys := fun b hb =>
      (List.mem_cons.mp (mem b (List.mem_filter.mp hb).1)).resolve_left (other b hb)
    have sorted' : (l.filter fun b => key b ≠ k).Pairwise
        fun b c => key b = key c ∨ [key b, key c].Sublist keys := by
      refine (sorted.filter _).imp_of_mem fun {b c} hb _ h => h.imp_right fun hsub => ?_
      rcases List.sublist_cons_iff.mp hsub with hsub | ⟨rest, hrest, -⟩
      · exact hsub
      · exact absurd (List.cons.inj hrest).1 (other b hb)
    rw [List.flatMap_cons, ← flatMap_filter_ne hk, ih hkeys mem' sorted',
      filter_append_filter_of_pairwise hk sorted]

end Sorted

namespace Relay

variable {φ α : Type} [DecidableEq φ] {r r₀ r' : Relay φ α}

/-! ### Rules -/

/-- **What can happen to a buffer.** -/
inductive Happens (r : Relay φ α) : Label φ α → List (Effect φ α) → Relay φ α → Prop where
  | dispatched (a : α) : Happens r (.dispatch a) [] { r with buffered := r.buffered ++ [a] }
  | joined {f : φ} (new : f ∉ r.turns) :
      Happens r (.join f) [] { r with turns := r.turns ++ [f] }
  | left (f : φ) : Happens r (.leave f) [] { r with turns := r.turns.filter (· ≠ f) }
  | closed (f : φ) : Happens r (.close f) [] { r with closed := f :: r.closed }
  | delivered {f : φ} {fs : List φ} {a : α} {rest : List α} (turns : r.turns = f :: fs)
      (buffered : r.buffered = a :: rest) (taking : f ∉ r.closed) :
      Happens r .forward [.delivered f a] { r with buffered := rest }
  | lost {f : φ} {fs : List φ} {a : α} {rest : List α} (turns : r.turns = f :: fs)
      (buffered : r.buffered = a :: rest) (closed : f ∈ r.closed) :
      Happens r .forward [.lost f a, .ended f] { r with buffered := rest, turns := fs }
  | noticed {f : φ} {fs : List φ} (turns : r.turns = f :: fs) (closed : f ∈ r.closed) :
      Happens r .notice [.ended f] { r with turns := fs }

theorem step_happens {l : Label φ α} {es : List (Effect φ α)} (h : r.step l = some (r', es)) :
    r.Happens l es r' := by
  cases l with
  | dispatch a => cases h; exact .dispatched a
  | join f =>
    simp only [step] at h
    split at h
    next => cases h
    next hnew => cases h; exact .joined hnew
  | leave f => cases h; exact .left f
  | close f => cases h; exact .closed f
  | forward =>
    simp only [step] at h
    split at h
    next f fs a rest hturns hbuf =>
      split at h
      next hclosed => cases h; exact .lost hturns hbuf hclosed
      next htaking => cases h; exact .delivered hturns hbuf htaking
    next => cases h
  | notice =>
    simp only [step] at h
    split at h
    next f fs hturns =>
      split at h
      next hclosed => cases h; exact .noticed hturns hclosed
      next => cases h
    next => cases h

/-! ### Runs -/

/-- **A moment of a buffer**: one step. -/
structure Moment (φ α : Type) [DecidableEq φ] where
  before : Relay φ α
  label : Label φ α
  effects : List (Effect φ α)
  after : Relay φ α
  step : before.step label = some (after, effects)

theorem Moment.happens (x : Moment φ α) : x.before.Happens x.label x.effects x.after :=
  step_happens x.step

/-- **Any moments,** one after the other. -/
inductive Course (r : Relay φ α) : List (Moment φ α) → Relay φ α → Prop where
  | nil : Course r [] r
  | snoc {xs : List (Moment φ α)} {x : Moment φ α} (before : Course r xs x.before) :
      Course r (xs ++ [x]) x.after

theorem Course.append {xs ys : List (Moment φ α)} (h : Course r₀ xs r) (h' : Course r ys r') :
    Course r₀ (xs ++ ys) r' := by
  induction h' with
  | nil => rwa [List.append_nil]
  | snoc _ ih =>
    rw [← List.append_assoc]
    exact .snoc ih

theorem Course.exists_before {xs : List (Moment φ α)} (h : Course r₀ xs r) {x : Moment φ α}
    (hx : x ∈ xs) : ∃ ys, Course r₀ ys x.before := by
  induction h with
  | nil => exact absurd hx List.not_mem_nil
  | @snoc xs y before ih =>
    rcases List.mem_append.mp hx with hx | hx
    · exact ih hx
    · obtain rfl := List.mem_singleton.mp hx
      exact ⟨xs, before⟩

/-- **What happens by itself is such a run,** in which items are only taken out. -/
theorem course_settle (r : Relay φ α) : ∃ xs : List (Moment φ α), Course r xs r.settle.1 ∧
    xs.flatMap Moment.effects = r.settle.2 ∧ ∀ x ∈ xs, x.label = .forward ∨ x.label = .notice := by
  fun_induction settle r with
  | case1 r hl => exact ⟨[], .nil, rfl, by simp⟩
  | case2 r l hl hs => exact ⟨[], .nil, rfl, by simp⟩
  | case3 r l hl r₁ es hs _ r' more hmore ih =>
    obtain ⟨xs, hcourse, heffects, hlabels⟩ := ih
    rw [hmore] at hcourse heffects
    have first : Course r [⟨r, l, es, r₁, hs⟩] r₁ := .snoc (x := ⟨r, l, es, r₁, hs⟩) .nil
    refine ⟨⟨r, l, es, r₁, hs⟩ :: xs, first.append hcourse, ?_, ?_⟩
    · rw [List.flatMap_cons, heffects]
    · refine List.forall_mem_cons.mpr ⟨?_, hlabels⟩
      unfold next? at hl
      grind

/-! ### What is seen of a run -/

/-- An item that a forwarder has taken out of the buffer. -/
structure Handling (φ α : Type) where
  forwarder : φ
  item : α
  /-- Whether it has arrived at the output of the forwarder. -/
  arrived : Bool
deriving DecidableEq

/-- The item that was taken out of the buffer, if one was. -/
@[simp]
def Effect.handling? : Effect φ α → Option (Handling φ α)
  | .delivered f a => some ⟨f, a, true⟩
  | .lost f a => some ⟨f, a, false⟩
  | .ended _ => none

/-- The forwarder that has ended, if one has. -/
@[simp]
def Effect.ended? : Effect φ α → Option φ
  | .ended f => some f
  | _ => none

/-- The forwarder that has done something. -/
def Effect.forwarder : Effect φ α → φ
  | .delivered f _ => f
  | .lost f _ => f
  | .ended f => f

/-- The item that comes in at a moment. -/
@[simp]
def Moment.dispatched? (x : Moment φ α) : Option α :=
  match x.label with
  | .dispatch a => some a
  | _ => none

/-- The forwarder that comes at a moment. -/
@[simp]
def Moment.joined? (x : Moment φ α) : Option φ :=
  match x.label with
  | .join f => some f
  | _ => none

/-- The forwarder that is dropped at a moment, if it was there. -/
@[simp]
def Moment.dropped? (x : Moment φ α) : Option φ :=
  match x.label with
  | .leave f => if f ∈ x.before.turns then some f else none
  | _ => none

/-- The items that came in, in order. -/
def dispatched (xs : List (Moment φ α)) : List α := xs.filterMap Moment.dispatched?

/-- The forwarders that came, in order. -/
def joined (xs : List (Moment φ α)) : List φ := xs.filterMap Moment.joined?

/-- The forwarders that were dropped while they were first or waited. -/
def dropped (xs : List (Moment φ α)) : List φ := xs.filterMap Moment.dropped?

/-- The forwarders that have ended because their output was closed. -/
def ended (xs : List (Moment φ α)) : List φ :=
  (xs.flatMap Moment.effects).filterMap Effect.ended?

/-- **The items that were taken out of the buffer,** in order. -/
def handled (xs : List (Moment φ α)) : List (Handling φ α) :=
  (xs.flatMap Moment.effects).filterMap Effect.handling?

/-- Those that have arrived. -/
def arrived (xs : List (Moment φ α)) : List (Handling φ α) := (handled xs).filter (·.arrived)

/-- The forwarders that have lost an item. -/
def losers (xs : List (Moment φ α)) : List φ :=
  ((handled xs).filter (!·.arrived)).map Handling.forwarder

/-- What has arrived at the output of a forwarder. -/
def received (xs : List (Moment φ α)) (f : φ) : List α :=
  ((arrived xs).filter fun h => h.forwarder = f).map Handling.item

section Append

variable (xs ys : List (Moment φ α))

@[simp]
theorem dispatched_append : dispatched (xs ++ ys) = dispatched xs ++ dispatched ys :=
  List.filterMap_append

@[simp]
theorem joined_append : joined (xs ++ ys) = joined xs ++ joined ys := List.filterMap_append

@[simp]
theorem dropped_append : dropped (xs ++ ys) = dropped xs ++ dropped ys := List.filterMap_append

@[simp]
theorem ended_append : ended (xs ++ ys) = ended xs ++ ended ys := by simp [ended]

@[simp]
theorem handled_append : handled (xs ++ ys) = handled xs ++ handled ys := by simp [handled]

@[simp]
theorem losers_append : losers (xs ++ ys) = losers xs ++ losers ys := by simp [losers]

end Append

/-! ### The order of the items -/

/-- What one moment takes out of the buffer and what it leaves there is what it found there and what
came in. -/
theorem Moment.order (x : Moment φ α) :
    (handled [x]).map Handling.item ++ x.after.buffered =
      x.before.buffered ++ dispatched [x] := by
  obtain ⟨r, l, es, r', hstep⟩ := x
  cases step_happens hstep with
  | dispatched a => rfl
  | joined | left | closed | noticed => simp [handled, dispatched, List.filterMap_cons]
  | delivered hturns hbuf | lost hturns hbuf =>
    simp [handled, dispatched, hbuf, List.filterMap_cons]

/-- **The items are taken out in the order in which they came in,** and what was not taken out is
still there. -/
theorem order_of_course {xs : List (Moment φ α)} (h : Course r₀ xs r) :
    (handled xs).map Handling.item ++ r.buffered = r₀.buffered ++ dispatched xs := by
  induction h with
  | nil => simp [handled, dispatched]
  | @snoc xs x _ ih =>
    calc (handled (xs ++ [x])).map Handling.item ++ x.after.buffered
        = (handled xs).map Handling.item ++
            ((handled [x]).map Handling.item ++ x.after.buffered) := by
          simp
      _ = (handled xs).map Handling.item ++ x.before.buffered ++ dispatched [x] := by
          rw [x.order, List.append_assoc]
      _ = r₀.buffered ++ dispatched (xs ++ [x]) := by
          rw [ih, dispatched_append, List.append_assoc]

/-! ### The order of the forwarders -/

/-- **The forwarders succeed each other in the order in which they came.** -/
structure Succession (xs : List (Moment φ α)) (r : Relay φ α) : Prop where
  /-- Those that are there stand in the order in which they came. -/
  turns : r.turns.Sublist (joined xs)
  /-- Nobody hands anything on who did not come. -/
  known : ∀ h ∈ handled xs, h.forwarder ∈ joined xs
  /-- Of two items, the earlier was taken by the same forwarder or by one that came earlier. -/
  sorted : (handled xs).Pairwise fun h h' =>
    h.forwarder = h'.forwarder ∨ [h.forwarder, h'.forwarder].Sublist (joined xs)
  /-- Whoever has taken an item is still there, or came before all that are there. -/
  next : ∀ h ∈ handled xs, ∀ g ∈ r.turns,
    h.forwarder = g ∨ [h.forwarder, g].Sublist (joined xs)

/-- If some of the forwarders leave, nothing changes for the others. -/
theorem Succession.of_turns {xs ys : List (Moment φ α)} (h : Succession xs r)
    (turns : r'.turns.Sublist r.turns) (hhandled : handled ys = handled xs)
    (hjoined : joined ys = joined xs) : Succession ys r' := by
  obtain ⟨hturns, hknown, hsorted, hnext⟩ := h
  constructor <;> rw [hjoined] <;> first | rw [hhandled] | skip
  · exact turns.trans hturns
  · exact hknown
  · exact hsorted
  · exact fun h hh g hg => hnext h hh g (turns.subset hg)

/-- The first forwarder takes an item. -/
theorem Succession.handle {xs ys : List (Moment φ α)} (h : Succession xs r) (h₁ : Handling φ α)
    {fs : List φ} (first : r.turns = h₁.forwarder :: fs) (turns : r'.turns.Sublist r.turns)
    (hhandled : handled ys = handled xs ++ [h₁]) (hjoined : joined ys = joined xs) :
    Succession ys r' := by
  obtain ⟨hturns, hknown, hsorted, hnext⟩ := h
  have hsub : (h₁.forwarder :: fs).Sublist (joined xs) := first ▸ hturns
  constructor <;> rw [hjoined] <;> first | rw [hhandled] | skip
  · exact turns.trans hturns
  · simpa [or_imp, forall_and] using ⟨hknown, hsub.subset List.mem_cons_self⟩
  · refine List.pairwise_append.mpr ⟨hsorted, List.pairwise_singleton _ _, fun h hh h' hh' => ?_⟩
    obtain rfl := List.mem_singleton.mp hh'
    exact hnext h hh h'.forwarder (first ▸ List.mem_cons_self)
  · intro h hh g hg
    rcases List.mem_append.mp hh with hh | hh
    · exact hnext h hh g (turns.subset hg)
    · obtain rfl := List.mem_singleton.mp hh
      rcases List.mem_cons.mp (first ▸ turns.subset hg) with rfl | hg
      · exact .inl rfl
      · exact .inr (((List.singleton_sublist.mpr hg).cons_cons h.forwarder).trans hsub)

/-- Another forwarder comes, and is the last. -/
theorem Succession.join {xs ys : List (Moment φ α)} (h : Succession xs r) {f : φ}
    (turns : r'.turns = r.turns ++ [f]) (hhandled : handled ys = handled xs)
    (hjoined : joined ys = joined xs ++ [f]) : Succession ys r' := by
  obtain ⟨hturns, hknown, hsorted, hnext⟩ := h
  constructor <;> rw [hjoined] <;> first | rw [hhandled] | skip
  · exact turns ▸ hturns.append_right [f]
  · exact fun h hh => List.mem_append_left _ (hknown h hh)
  · exact hsorted.imp fun h => h.imp_right fun hsub => hsub.trans (List.sublist_append_left _ _)
  · intro h hh g hg
    rw [turns] at hg
    rcases List.mem_append.mp hg with hg | hg
    · exact (hnext h hh g hg).imp_right fun hsub => hsub.trans (List.sublist_append_left _ _)
    · obtain rfl := List.mem_singleton.mp hg
      exact .inr ((List.singleton_sublist.mpr (hknown h hh)).append (.refl [g]))

theorem succession_of_course {xs : List (Moment φ α)} (h : Course empty xs r) :
    Succession xs r := by
  induction h with
  | nil => exact ⟨.slnil, by simp [handled], by simp [handled], by simp [handled]⟩
  | @snoc xs x _ ih =>
    obtain ⟨r, l, es, r', hstep⟩ := x
    cases step_happens hstep with
    | dispatched | closed =>
      exact ih.of_turns (.refl _) (by simp [handled]) (by simp [joined, List.filterMap_cons])
    | left f =>
      exact ih.of_turns List.filter_sublist (by simp [handled])
        (by simp [joined, List.filterMap_cons])
    | joined hnew => exact ih.join rfl (by simp [handled]) (by simp [joined])
    | @delivered f fs a rest hturns hbuf htaking =>
      exact ih.handle ⟨f, a, true⟩ hturns (.refl _) (by simp [handled])
        (by simp [joined, List.filterMap_cons])
    | @lost f fs a rest hturns hbuf hclosed =>
      exact ih.handle ⟨f, a, false⟩ hturns (hturns ▸ List.sublist_cons_self f fs)
        (by simp [handled, List.filterMap_cons]) (by simp [joined, List.filterMap_cons])
    | @noticed f fs hturns hclosed =>
      exact ih.of_turns (hturns ▸ List.sublist_cons_self f fs)
        (by simp [handled, List.filterMap_cons]) (by simp [joined, List.filterMap_cons])

/-! ### What becomes of the forwarders -/

/-- Nobody waits for two turns. -/
theorem Happens.nodup {l : Label φ α} {es : List (Effect φ α)} (h : r.Happens l es r')
    (nodup : r.turns.Nodup) : r'.turns.Nodup := by
  cases h with
  | dispatched | closed | delivered => exact nodup
  | joined hnew =>
    exact List.nodup_append.mpr ⟨nodup, List.nodup_singleton _, by grind⟩
  | left f => exact nodup.filter _
  | lost hturns | noticed hturns => exact (List.nodup_cons.mp (hturns ▸ nodup)).2

/-- Removing an entry from a list without duplicates. -/
theorem count_filter_ne {l : List φ} (nodup : l.Nodup) (g f : φ) :
    (l.filter (· ≠ g)).count f + (if g ∈ l then [g] else []).count f = l.count f := by
  by_cases hfg : f = g
  · subst hfg
    have hnone : (l.filter (· ≠ f)).count f = 0 := List.count_eq_zero.mpr (by simp)
    by_cases hf : f ∈ l
    · simp only [hnone, if_pos hf, List.count_eq_one_of_mem nodup hf, List.count_singleton_self]
    · simp only [hnone, if_neg hf, List.count_eq_zero.mpr hf, List.count_nil]
  · have hsame : (l.filter (· ≠ g)).count f = l.count f := List.count_filter (by simpa using hfg)
    have hnone : (if g ∈ l then [g] else []).count f = 0 := by
      split <;> simp [Ne.symm hfg]
    rw [hsame, hnone, Nat.add_zero]

/-- Who comes stays until it is dropped or ends. -/
theorem Moment.count_turns (x : Moment φ α) (nodup : x.before.turns.Nodup) (f : φ) :
    x.before.turns.count f + (joined [x]).count f =
      x.after.turns.count f + (ended [x]).count f + (dropped [x]).count f := by
  obtain ⟨r, l, es, r', hstep⟩ := x
  cases step_happens hstep with
  | dispatched | closed => simp [joined, ended, dropped, List.filterMap_cons]
  | joined hnew => simp [joined, ended, dropped, List.filterMap_cons]
  | left g =>
    have hdropped : dropped [⟨r, .leave g, [], _, hstep⟩] = if g ∈ r.turns then [g] else [] := by
      by_cases hg : g ∈ r.turns <;> simp [dropped, hg]
    have hcount := count_filter_ne nodup g f
    simp only [hdropped, joined, ended, List.filterMap_cons, joined?, List.flatMap_cons]
    simpa using hcount.symm
  | delivered hturns hbuf => simp [joined, ended, dropped, List.filterMap_cons]
  | lost hturns | noticed hturns =>
    simp [joined, ended, dropped, List.filterMap_cons, hturns, List.count_cons]

/-- Who loses an item ends. -/
theorem Moment.count_losers (x : Moment φ α) (f : φ) :
    (losers [x]).count f ≤ (ended [x]).count f := by
  obtain ⟨r, l, es, r', hstep⟩ := x
  cases step_happens hstep with
  | dispatched | closed | joined | left | delivered | noticed =>
    simp [losers, handled, List.filterMap_cons]
  | lost => simp [losers, handled, ended, List.filterMap_cons]

/-- **Every forwarder that came** is still there, was dropped, or has ended. -/
structure Presence (xs : List (Moment φ α)) (r : Relay φ α) : Prop where
  nodup : r.turns.Nodup
  count : ∀ f, (joined xs).count f =
    r.turns.count f + (ended xs).count f + (dropped xs).count f
  losers : ∀ f, (losers xs).count f ≤ (ended xs).count f

theorem presence_of_course {xs : List (Moment φ α)} (h : Course empty xs r) : Presence xs r := by
  induction h with
  | nil => exact ⟨List.nodup_nil, fun f => rfl, fun f => Nat.le_refl _⟩
  | @snoc xs x _ ih =>
    refine ⟨x.happens.nodup ih.nodup, fun f => ?_, fun f => ?_⟩
    · have hstep := x.count_turns ih.nodup f
      have hcount := ih.count f
      simp only [joined_append, ended_append, dropped_append, List.count_append]
      omega
    · rw [losers_append, ended_append, List.count_append, List.count_append]
      exact Nat.add_le_add (ih.losers f) (x.count_losers f)

/-- Whoever is first does what is done. -/
theorem Moment.head?_turns (x : Moment φ α) {e : Effect φ α} (he : e ∈ x.effects) :
    x.before.turns.head? = some e.forwarder := by
  obtain ⟨r, l, es, r', hstep⟩ := x
  cases step_happens hstep with
  | dispatched | joined | left | closed => exact absurd he List.not_mem_nil
  | delivered hturns | noticed hturns =>
    obtain rfl := List.mem_singleton.mp he
    simp [hturns, Effect.forwarder]
  | lost hturns =>
    rcases List.mem_cons.mp he with rfl | he
    · simp [hturns, Effect.forwarder]
    · obtain rfl := List.mem_singleton.mp he
      simp [hturns, Effect.forwarder]

/-- Whoever is first stays so until it is gone. -/
theorem Happens.head?_turns {l : Label φ α} {es : List (Effect φ α)} (h : r.Happens l es r')
    (nodup : r.turns.Nodup) {f : φ} (first : r.turns.head? = some f) :
    r'.turns.head? = some f ∨ f ∉ r'.turns := by
  obtain ⟨fs, hfs⟩ := List.head?_eq_some_iff.mp first
  have hf : f ∉ fs := (List.nodup_cons.mp (hfs ▸ nodup)).1
  cases h with
  | dispatched | closed | delivered => exact .inl first
  | joined => exact .inl (by simp [hfs])
  | left g =>
    by_cases hg : f = g
    · exact .inr (by simp [hg])
    · exact .inl (by simp [hfs, hg])
  | lost hturns | noticed hturns =>
    obtain ⟨rfl, rfl⟩ := List.cons.inj (hfs.symm.trans hturns)
    exact .inr hf

/-! ### Nothing is lost -/

/-- **The forwarders are faithful to what came in.** -/
structure Faithful (xs : List (Moment φ α)) (r : Relay φ α) : Prop where
  /-- The items were taken out in the order in which they came in, and the others are still
  there. -/
  order : (handled xs).map Handling.item ++ r.buffered = dispatched xs
  /-- What the outputs have received, one forwarder after the other, are the items that have
  arrived, in this order. -/
  outputs : (joined xs).flatMap (received xs) = (arrived xs).map Handling.item
  /-- Only the first forwarder does anything. -/
  single : ∀ x ∈ xs, ∀ e ∈ x.effects, x.before.turns.head? = some e.forwarder
  /-- And it is the first until it is gone. -/
  steady : ∀ x ∈ xs, ∀ f, x.before.turns.head? = some f →
    x.after.turns.head? = some f ∨ f ∉ x.after.turns
  /-- Whoever has lost an item has lost only one, -/
  lossOnce : (losers xs).Nodup
  /-- and has ended because its output was closed. -/
  lossEnded : ∀ f ∈ losers xs, f ∈ ended xs
  /-- Those that are there or were dropped have lost nothing. -/
  spared : ∀ f, f ∈ r.turns ∨ f ∈ dropped xs → f ∉ losers xs

/-- **Forwarders that have names of their own are faithful.** -/
theorem faithful_of_course {xs : List (Moment φ α)} (h : Course empty xs r)
    (names : (joined xs).Nodup) : Faithful xs r := by
  have hsuccession := succession_of_course h
  have hpresence := presence_of_course h
  -- who has ended came only once, so it has ended only once, and is not there any more
  have hcount : ∀ f, r.turns.count f + (ended xs).count f + (dropped xs).count f ≤ 1 := fun f =>
    hpresence.count f ▸ List.nodup_iff_count_le_one.mp names f
  constructor
  · simpa [empty] using order_of_course h
  · have hsorted := flatMap_filter_of_pairwise (l := (handled xs).filter (·.arrived)) names
      (fun h hh => hsuccession.known h (List.mem_of_mem_filter hh)) (hsuccession.sorted.filter _)
    calc (joined xs).flatMap (received xs)
        = ((joined xs).flatMap fun f => (arrived xs).filter fun h => h.forwarder = f).map
            Handling.item := List.map_flatMap.symm
      _ = (arrived xs).map Handling.item := by rw [arrived, hsorted]
  · exact fun x _ e he => x.head?_turns he
  · intro x hx f hf
    obtain ⟨ys, hys⟩ := h.exists_before hx
    exact x.happens.head?_turns (presence_of_course hys).nodup hf
  · refine List.nodup_iff_count_le_one.mpr fun f => ?_
    have := hcount f
    have := hpresence.losers f
    omega
  · intro f hf
    have hpos := List.count_pos_iff.mpr hf
    exact List.count_pos_iff.mp (Nat.lt_of_lt_of_le hpos (hpresence.losers f))
  · intro f hf hlost
    have hpos := List.count_pos_iff.mpr hlost
    have hle := hpresence.losers f
    have hone := hcount f
    rcases hf with hf | hf <;> have := List.count_pos_iff.mpr hf <;> omega

end Relay

namespace Fanout

variable {φ : Type} [DecidableEq φ] {f f₀ : Fanout φ}

/-! ### The three streams -/

/-- Whether something belongs into a stream. Events belong into their own stream only. -/
def Belongs (s : EventStream) : Relay.Label φ Event → Prop
  | .dispatch e => e.stream = s
  | _ => True

instance (s : EventStream) : DecidablePred (Belongs (φ := φ) s)
  | .dispatch e => inferInstanceAs (Decidable (e.stream = s))
  | .join _ | .leave _ | .close _ | .forward | .notice => isTrue trivial

/-- **A moment of a source**: one step of the buffer of one stream. -/
structure Moment (φ : Type) [DecidableEq φ] where
  before : Fanout φ
  stream : EventStream
  label : Relay.Label φ Event
  effects : List (Relay.Effect φ Event)
  /-- The buffer of the stream afterwards. -/
  buffer : Relay φ Event
  step : (before.relays.get stream).step label = some (buffer, effects)
  belongs : Belongs stream label

/-- The source afterwards. -/
def Moment.after (x : Moment φ) : Fanout φ := x.before.apply x.stream x.label

/-- The same for the buffer of the stream alone. -/
def Moment.inStream (x : Moment φ) : Relay.Moment φ Event :=
  ⟨x.before.relays.get x.stream, x.label, x.effects, x.buffer, x.step⟩

/-- **Any moments,** one after the other. -/
inductive Course (f : Fanout φ) : List (Moment φ) → Fanout φ → Prop where
  | nil : Course f [] f
  | snoc {xs : List (Moment φ)} {x : Moment φ} (before : Course f xs x.before) :
      Course f (xs ++ [x]) x.after

/-- The moments of one stream. -/
def within (s : EventStream) (xs : List (Moment φ)) : List (Relay.Moment φ Event) :=
  (xs.filter fun x => x.stream = s).map Moment.inStream

theorem within_append (s : EventStream) (xs ys : List (Moment φ)) :
    within s (xs ++ ys) = within s xs ++ within s ys := by
  simp [within]

theorem within_cons (s : EventStream) (x : Moment φ) (xs : List (Moment φ)) :
    within s (x :: xs) = (if x.stream = s then [x.inStream] else []) ++ within s xs := by
  by_cases h : x.stream = s <;> simp [within, h]

/-- The event that comes in at a moment. -/
def Moment.dispatched? (x : Moment φ) : Option Event := x.inStream.dispatched?

/-- The events that came in, in order. -/
def dispatched (xs : List (Moment φ)) : List Event := xs.filterMap Moment.dispatched?

/-- **A moment changes its own stream only.** -/
theorem Moment.get_after (x : Moment φ) (s : EventStream) :
    x.after.relays.get s = if x.stream = s then x.buffer else x.before.relays.get s := by
  rw [after, apply, PerStream.get_update]
  split
  next h =>
    subst h
    rw [x.step]
    rfl
  next => rfl

/-- **What happens in a stream is a run of its buffer,** in which the other streams do not occur. -/
theorem course_within {xs : List (Moment φ)} (h : Course f₀ xs f) (s : EventStream) :
    Relay.Course (f₀.relays.get s) (within s xs) (f.relays.get s) := by
  induction h with
  | nil => exact .nil
  | @snoc xs x _ ih =>
    rw [x.get_after, within_append, within_cons]
    split
    next hs =>
      subst hs
      exact .snoc (x := x.inStream) ih
    next => simpa [within] using ih

/-- An event comes into its own stream. -/
theorem Moment.stream_of_dispatched? {x : Moment φ} {e : Event} (h : x.dispatched? = some e) :
    e.stream = x.stream := by
  have hbelongs := x.belongs
  simp only [dispatched?, Relay.Moment.dispatched?, inStream] at h
  split at h
  next a ha =>
    rw [ha] at hbelongs
    exact Option.some.inj h ▸ hbelongs
  next => cases h

/-- The events that come into a stream are the events of this stream. -/
theorem dispatched_within (s : EventStream) (xs : List (Moment φ)) :
    Relay.dispatched (within s xs) = (dispatched xs).filter fun e => e.stream = s := by
  induction xs with
  | nil => rfl
  | cons x xs ih =>
    have hfirst : Relay.dispatched (if x.stream = s then [x.inStream] else []) =
        x.dispatched?.toList.filter fun e => e.stream = s := by
      cases he : x.dispatched? with
      | none =>
        have he : x.inStream.dispatched? = none := he
        split
        next => exact List.filterMap_cons_none he
        next => rfl
      | some e =>
        have hstream := Moment.stream_of_dispatched? he
        have he : x.inStream.dispatched? = some e := he
        split
        next hs =>
          have hone : Relay.dispatched [x.inStream] = [e] := List.filterMap_cons_some he
          simp [hone, hstream, hs]
        next hs => simp [hs, hstream, Relay.dispatched]
    have hcons : dispatched (x :: xs) = x.dispatched?.toList ++ dispatched xs := by
      cases he : x.dispatched? <;> simp [dispatched, he]
    rw [within_cons, Relay.dispatched_append, hfirst, ih, hcons, List.filter_append]

/-- **A run of the buffer of one stream is a run of the source** in which nothing else happens. -/
theorem course_of_stream {s : EventStream} {ys : List (Relay.Moment φ Event)} {r : Relay φ Event}
    (h : Relay.Course (f.relays.get s) ys r) (belongs : ∀ y ∈ ys, Belongs s y.label) :
    ∃ xs, Course f xs ⟨f.relays.update s fun _ => r⟩ ∧ ∀ x ∈ xs, x.stream = s := by
  induction h with
  | nil => exact ⟨[], by rw [PerStream.update_get]; exact .nil, by simp⟩
  | @snoc ys y _ ih =>
    obtain ⟨xs, hcourse, hstream⟩ := ih fun y hy => belongs y (List.mem_append_left _ hy)
    let before : Fanout φ := ⟨f.relays.update s fun _ => y.before⟩
    have hget : before.relays.get s = y.before := by simp [before]
    let x : Moment φ :=
      ⟨before, s, y.label, y.effects, y.after, hget ▸ y.step, belongs y (by simp)⟩
    have hafter : x.after = ⟨f.relays.update s fun _ => y.after⟩ := by
      simp only [x, Moment.after, apply, before, PerStream.update_update, Function.comp_def, y.step,
        Option.map_some, Option.getD_some]
    refine ⟨xs ++ [x], hafter ▸ .snoc (x := x) hcourse, fun z hz => ?_⟩
    rcases List.mem_append.mp hz with hz | hz
    · exact hstream z hz
    · rw [List.mem_singleton.mp hz]

/-- So is what happens in a stream by itself. -/
theorem course_settle (f : Fanout φ) (s : EventStream) :
    ∃ xs, Course f xs (f.settle s).1 ∧ ∀ x ∈ xs, x.stream = s := by
  obtain ⟨ys, hcourse, -, hlabels⟩ := Relay.course_settle (f.relays.get s)
  refine course_of_stream hcourse fun y hy => ?_
  rcases hlabels y hy with h | h <;> rw [h] <;> trivial

/-- **Event streams lose nothing and keep order.** In each of the three streams, whatever happens in
any of them, the forwarders are faithful to the events of this stream. -/
theorem stream_faithful_of_course {xs : List (Moment φ)} (h : Course .empty xs f)
    (names : ∀ s, (Relay.joined (within s xs)).Nodup) (s : EventStream) :
    Relay.Course .empty (within s xs) (f.relays.get s) ∧
      Relay.dispatched (within s xs) = (dispatched xs).filter (fun e => e.stream = s) ∧
      Relay.Faithful (within s xs) (f.relays.get s) := by
  have hcourse : Relay.Course .empty (within s xs) (f.relays.get s) := by
    simpa [empty] using course_within h s
  exact ⟨hcourse, dispatched_within s xs, Relay.faithful_of_course hcourse (names s)⟩

/-- The moments in which these things happen in these streams, as far as they are possible, and
where they lead. -/
def moments (f : Fanout φ) : List (EventStream × Relay.Label φ Event) → List (Moment φ) × Fanout φ
  | [] => ([], f)
  | (s, l) :: ls =>
    match h : (f.relays.get s).step l with
    | some (r, es) =>
      if hs : Belongs s l then
        (⟨f, s, l, es, r, h, hs⟩ :: (moments (f.apply s l) ls).1, (moments (f.apply s l) ls).2)
      else ([], f)
    | none => ([], f)

theorem Course.append {f' : Fanout φ} {xs ys : List (Moment φ)} (h : Course f₀ xs f)
    (h' : Course f ys f') : Course f₀ (xs ++ ys) f' := by
  induction h' with
  | nil => rwa [List.append_nil]
  | snoc _ ih =>
    rw [← List.append_assoc]
    exact .snoc ih

theorem course_moments (ls : List (EventStream × Relay.Label φ Event)) :
    ∀ f : Fanout φ, Course f (moments f ls).1 (moments f ls).2 := by
  induction ls with
  | nil => exact fun f => .nil
  | cons l ls ih =>
    intro f
    unfold moments
    split
    next r es h =>
      split
      next hs =>
        have first : Course f [⟨f, l.1, l.2, es, r, h, hs⟩] (f.apply l.1 l.2) :=
          .snoc (x := ⟨f, l.1, l.2, es, r, h, hs⟩) .nil
        exact first.append (ih _)
      next => exact .nil
    next => exact .nil

/-- A change without levels. -/
def sampleDiff (sequence : ℕ) : Event := .diff ⟨⟨"A"⟩, sequence, default, [], []⟩

/-- Two listeners follow each other. The output of the first closes while three events come in. -/
def sampleMoments : List (Moment ℕ) × Fanout ℕ :=
  moments .empty
    [(.diff, .join 1), (.diff, .join 2), (.diff, .dispatch (sampleDiff 1)), (.diff, .forward),
      (.trade, .join 1), (.diff, .close 1), (.diff, .dispatch (sampleDiff 2)),
      (.diff, .dispatch (sampleDiff 3)), (.diff, .forward), (.diff, .forward)]

/-- The second event is lost, the others arrive. -/
theorem stream_faithful_of_course_sample :
    (sampleMoments.2.relays.get .diff).turns = [2] ∧
      Relay.losers (within .diff sampleMoments.1) = [1] ∧
      Relay.Faithful (within .diff sampleMoments.1) (sampleMoments.2.relays.get .diff) := by
  have names : ∀ s, (Relay.joined (within s sampleMoments.1)).Nodup := by
    intro s
    cases s <;> decide
  exact ⟨by decide, by decide,
    (stream_faithful_of_course (course_moments _ .empty) names .diff).2.2⟩

end Fanout

end LiveBook
