import LiveBook.Proofs.Book.Sequences

/-!
# What goes into a bounded list and what comes out

Two bounded lists stand between the events of a market and its book. One holds the diffs that have
come before there is a book, the other the last diffs that were applied to it. Calls of all kinds
may follow each other, whatever the capacity.

* `LiveBook.PendingDiffs.performAll_spec` – no diff is lost or made up: what was handed out and what
  is still there are the diffs that came, in their order;
* `LiveBook.PendingDiffs.isSome_push_iff` – a diff that comes drives another one out exactly if
  there is no room;
* `LiveBook.Recent.toList_performAll` – the other list has the last items since it was cleared.

The capacity is never exceeded, as the tests for a full list agree as long as it is not
(`LiveBook.PendingDiffs.Bounded`, `LiveBook.Recent.Bounded`).
-/

namespace LiveBook

/-! ### Diffs without a book -/

/-- A call to the diffs that are set aside. -/
inductive PendingCall where
  | push (d : Diff)
  | pop
  | take
deriving DecidableEq

/-- The diff that comes with a call. -/
def PendingCall.pushed? : PendingCall → Option Diff
  | .push d => some d
  | .pop | .take => none

namespace PendingDiffs

variable {p : PendingDiffs}

/-- Makes a call, and says what it hands out. -/
def perform (p : PendingDiffs) : PendingCall → PendingDiffs × List Diff
  | .push d => ((p.push d).1, (p.push d).2.toList)
  | .pop => (p.pop.1, p.pop.2.toList)
  | .take => p.take

/-- Makes calls one after the other, and says what they hand out, in the order in which it
leaves. -/
def performAll (p : PendingDiffs) : List PendingCall → PendingDiffs × List Diff
  | [] => (p, [])
  | c :: cs =>
    ((performAll (p.perform c).1 cs).1, (p.perform c).2 ++ (performAll (p.perform c).1 cs).2)

/-- There is room for a diff at all, and not more than can be set aside is there. -/
def Bounded (p : PendingDiffs) : Prop := 0 < p.capacity ∧ p.size ≤ p.capacity

theorem bounded_ofCapacity (c : ℕ) : (ofCapacity c).Bounded :=
  ⟨Nat.lt_of_lt_of_le Nat.one_pos (Nat.le_max_right c 1), Nat.zero_le _⟩

@[simp] theorem capacity_perform (p : PendingDiffs) (c : PendingCall) :
    (p.perform c).1.capacity = p.capacity := by
  cases c with
  | push d =>
    rw [perform, push]
    split <;> rfl
  | pop => rfl
  | take => rfl

theorem size_push (p : PendingDiffs) (d : Diff) :
    (p.push d).1.size = if p.capacity ≤ p.size then p.size - 1 + 1 else p.size + 1 := by
  unfold push size
  split <;> simp

theorem Bounded.perform (h : p.Bounded) (c : PendingCall) : (p.perform c).1.Bounded := by
  obtain ⟨hpos, hle⟩ := h
  refine ⟨(p.capacity_perform c).symm ▸ hpos, ?_⟩
  rw [capacity_perform]
  cases c with
  | push d =>
    rw [PendingDiffs.perform, size_push]
    split <;> omega
  | pop =>
    have hlength : p.pop.1.size = p.size - 1 := List.length_tail
    exact hlength.le.trans (Nat.sub_le_of_le_add (Nat.le_succ_of_le hle))
  | take => exact Nat.zero_le _

/-- **One call loses nothing**: what it hands out and what it leaves are what was there, and then
what comes with it. -/
theorem handedOut_append_toList_perform (h : p.Bounded) (c : PendingCall) :
    (p.perform c).2 ++ (p.perform c).1.toList = p.toList ++ c.pushed?.toList := by
  cases c with
  | push d => exact toList_push d h.1
  | pop =>
    have hsplit : p.diffs.head?.toList ++ p.diffs.tail = p.diffs := by cases p.diffs <;> rfl
    exact hsplit.trans (List.append_nil _).symm
  | take => rfl

/-- What a diff that comes drives out, if there is no room, is the oldest. -/
theorem push_snd (h : p.Bounded) (d : Diff) :
    (p.push d).2 = if p.size = p.capacity then p.toList.head? else none := by
  have hfull : p.capacity ≤ p.diffs.length ↔ p.size = p.capacity := (Nat.le_antisymm_iff.trans
    (and_iff_right h.2)).symm
  rw [push]
  by_cases hs : p.size = p.capacity
  · rw [if_pos hs, if_pos (hfull.mpr hs)]
    rfl
  · rw [if_neg hs, if_neg (mt hfull.mp hs)]

/-- **A diff that comes drives another one out exactly if there is no room.** -/
theorem isSome_push_iff (h : p.Bounded) (d : Diff) :
    (p.push d).2.isSome = true ↔ p.size = p.capacity := by
  rw [push_snd h]
  split
  next hs =>
    have hpos : 0 < p.toList.length := h.1.trans_eq hs.symm
    simp [hs, List.length_pos_iff.mp hpos]
  next hs => simp [hs]

/-- **Any number of calls loses nothing**, and stays within the bound. -/
theorem performAll_spec (h : p.Bounded) (cs : List PendingCall) :
    (p.performAll cs).1.Bounded ∧ (p.performAll cs).1.capacity = p.capacity ∧
      (p.performAll cs).2 ++ (p.performAll cs).1.toList =
        p.toList ++ cs.filterMap PendingCall.pushed? := by
  induction cs generalizing p with
  | nil => exact ⟨h, rfl, (List.append_nil _).symm⟩
  | cons c cs ih =>
    obtain ⟨hbounded, hcapacity, horder⟩ := ih (h.perform c)
    refine ⟨hbounded, hcapacity.trans (p.capacity_perform c), ?_⟩
    have hpushed : (c :: cs).filterMap PendingCall.pushed? =
        c.pushed?.toList ++ cs.filterMap PendingCall.pushed? := by
      cases c <;> rfl
    rw [performAll, List.append_assoc, horder, ← List.append_assoc,
      handedOut_append_toList_perform h, hpushed, List.append_assoc]

end PendingDiffs

/-! ### The last items -/

/-- A call to a list of the last items. -/
inductive RecentCall (α : Type) where
  | push (a : α)
  | clear
deriving DecidableEq

namespace RecentCall

variable {α : Type}

/-- The item that comes with a call. -/
def pushed? : RecentCall α → Option α
  | .push a => some a
  | .clear => none

/-- Whether an item comes with a call. -/
def isPush (c : RecentCall α) : Bool := c.pushed?.isSome

/-- The number of items since the list was last cleared. -/
def pushesSinceClear (cs : List (RecentCall α)) : ℕ := (cs.rtakeWhile isPush).length

end RecentCall

namespace Recent

variable {α : Type} {r : Recent α}

/-- Makes a call. -/
def perform (r : Recent α) : RecentCall α → Recent α
  | .push a => r.push a
  | .clear => r.clear

/-- Makes calls one after the other. -/
def performAll (r : Recent α) (cs : List (RecentCall α)) : Recent α := cs.foldl perform r

/-- The items in the order in which a loop visits them. -/
def visited (r : Recent α) : List α := Id.run do
  let mut as := #[]
  for a in r do
    as := as.push a
  return as.toList

theorem visited_eq_toList (r : Recent α) : r.visited = r.toList := by
  rw [visited]
  simp only [forIn_eq_forIn_toList]
  simp

theorem Bounded.perform (h : r.Bounded) (c : RecentCall α) : (r.perform c).Bounded := by
  cases c with
  | push a => exact h.push a
  | clear => exact ⟨h.1, Nat.zero_le _⟩

theorem performAll_bounded (h : r.Bounded) (cs : List (RecentCall α)) :
    (r.performAll cs).Bounded ∧ (r.performAll cs).capacity = r.capacity := by
  induction cs generalizing r with
  | nil => exact ⟨h, rfl⟩
  | cons c cs ih =>
    obtain ⟨hbounded, hcapacity⟩ := ih (h.perform c)
    refine ⟨hbounded, hcapacity.trans ?_⟩
    cases c <;> rfl

/-- The end of a list, and an item behind it, is the end of a list with one item more. -/
theorem rtake_concat_rtake (as : List α) (a : α) (n c : ℕ) :
    (as.rtake (min c n) ++ [a]).rtake c = (as ++ [a]).rtake (min c (n + 1)) := by
  rw [← List.rtake_concat_succ, List.rtake_eq_reverse_take_reverse,
    List.rtake_eq_reverse_take_reverse, List.rtake_eq_reverse_take_reverse, List.reverse_reverse,
    List.take_take]
  congr 2
  omega

/-- **The last items since the list was cleared**, and as many of them as there is room for. -/
theorem toList_performAll (capacity : ℕ) (cs : List (RecentCall α)) :
    ((ofCapacity capacity).performAll cs).toList =
      (cs.filterMap RecentCall.pushed?).rtake
        (min (max capacity 1) (RecentCall.pushesSinceClear cs)) := by
  induction cs using List.reverseRecOn with
  | nil => exact (List.rtake_nil _).symm
  | append_singleton cs c ih =>
    have hlast : (ofCapacity capacity).performAll (cs ++ [c]) =
        ((ofCapacity capacity).performAll cs).perform c := List.foldl_concat _ _ _ _
    obtain ⟨hbounded, hcapacity⟩ :=
      performAll_bounded (bounded_ofCapacity (α := α) capacity) cs
    rw [hlast, List.filterMap_append]
    cases c with
    | push a =>
      have hcount : RecentCall.pushesSinceClear (cs ++ [.push a]) =
          RecentCall.pushesSinceClear cs + 1 := by
        rw [RecentCall.pushesSinceClear, List.rtakeWhile_concat_pos _ _ _ rfl,
          List.length_append]
        rfl
      rw [hcount]
      refine (toList_push_eq_rtake hbounded a).trans ?_
      rw [hcapacity, ih]
      exact rtake_concat_rtake _ a _ _
    | clear =>
      have hstops : ¬RecentCall.isPush (.clear : RecentCall α) = true := nofun
      have hcount : RecentCall.pushesSinceClear (cs ++ [.clear]) = 0 := by
        rw [RecentCall.pushesSinceClear, List.rtakeWhile_concat_neg _ _ _ hstops]
        rfl
      rw [hcount, Nat.min_zero, List.rtake_zero]
      rfl

end Recent

/-! ### Both lists -/

/-- **Bounded lists lose nothing and make nothing up.** Whatever the capacity, where zero counts as
one, and however calls follow each other: the diffs that were handed out, as they left, and those
that are still set aside are the diffs that came, in their order. There are never more than there is
room for, and a diff that comes drives another one out exactly if there is no room. The other list
has the last items since it was cleared, as many as there is room for, and a loop visits them in the
same order. -/
theorem conserved_of_calls (capacity : ℕ) :
    (∀ cs : List PendingCall,
      ((PendingDiffs.ofCapacity capacity).performAll cs).2 ++
          ((PendingDiffs.ofCapacity capacity).performAll cs).1.toList =
        cs.filterMap PendingCall.pushed? ∧
      ((PendingDiffs.ofCapacity capacity).performAll cs).1.size ≤ max capacity 1 ∧
      ∀ d, (((PendingDiffs.ofCapacity capacity).performAll cs).1.push d).2.isSome = true ↔
        ((PendingDiffs.ofCapacity capacity).performAll cs).1.size = max capacity 1) ∧
    ∀ cs : List (RecentCall Diff),
      ((Recent.ofCapacity capacity).performAll cs).toList =
        (cs.filterMap RecentCall.pushed?).rtake
          (min (max capacity 1) (RecentCall.pushesSinceClear cs)) ∧
      ((Recent.ofCapacity capacity).performAll cs).visited =
        ((Recent.ofCapacity capacity).performAll cs).toList := by
  refine ⟨fun cs => ?_,
    fun cs => ⟨Recent.toList_performAll capacity cs, Recent.visited_eq_toList _⟩⟩
  obtain ⟨hbounded, hcapacity, horder⟩ :=
    PendingDiffs.performAll_spec (PendingDiffs.bounded_ofCapacity capacity) cs
  have hmax : ((PendingDiffs.ofCapacity capacity).performAll cs).1.capacity = max capacity 1 :=
    hcapacity
  refine ⟨horder, hmax ▸ hbounded.2, fun d => ?_⟩
  rw [PendingDiffs.isSome_push_iff hbounded, hmax]

end LiveBook
