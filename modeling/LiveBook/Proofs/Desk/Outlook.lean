import LiveBook.Proofs.Desk.Standing

/-!
# How one market will stand

When the worker of a market takes its messages is up to the worker, but what they lead to is not.
How a market will stand once its worker has nothing left to take (`LiveBook.Desk.outlook`) follows
from the messages that were set aside for it or put into the queue of its worker, in this order, and
from nothing else that is done at the desk: `LiveBook.Desk.Does.outlook`.

This speaks of the messages in the queue and not of all that were brought. Of the diffs that are
brought some are dropped at once because they are stale for the book as it is then, which may be
another one when the worker has taken what is before them.
-/

namespace LiveBook

/-- The messages that come of an act for a market. -/
def DeskAct.entries (n : MarketId) (x : DeskAct) : List Happening :=
  (x.buffered n).map .setAside ++ (x.delivered n).map .delivered

/-- **How a market will stand** once its worker has nothing left to take. -/
inductive Outlook where
  | untracked
  | waiting (pending : PendingDiffs)
  | served (keeper : BookKeeper)
  | removed

/-- What a standing will become. -/
def Standing.outlook (policy : StalenessPolicy) : Standing → Outlook
  | .untracked => .untracked
  | .waiting p => .waiting p
  | .served k backlog _ => .served (k.processAll policy backlog)
  | .removed => .removed

namespace Outlook

variable {policy : StalenessPolicy}

/-- **How a market will stand after something has happened to it.** -/
def after (policy : StalenessPolicy) : Outlook → Happening → Outlook
  | _, .registered c => .waiting (.ofCapacity c)
  | .waiting p, .activated k => .served (k.processAll policy (p.toList.map .diff))
  | .waiting p, .setAside e => .waiting (p.push e).1
  | .served k, .delivered y => .served (k.process policy y).1
  | _, .retired => .removed
  | _, .forgotten => .untracked
  | s, _ => s

/-- How a market will stand after diffs were set aside and messages put into the queue, of which it
takes notice if it waits, or if it has a worker. -/
def enter (policy : StalenessPolicy) (ds : List Diff) (ys : List BookMessage) : Outlook → Outlook
  | .waiting p => .waiting (p.pushAll ds)
  | .served k => .served (k.processAll policy ys)
  | s => s

theorem foldl_setAside (s : Outlook) (ds : List Diff) :
    (ds.map .setAside).foldl (after policy) s = s.enter policy ds [] := by
  induction ds generalizing s with
  | nil => cases s <;> rfl
  | cons d ds ih => cases s <;> exact ih _

theorem foldl_delivered (s : Outlook) (ys : List BookMessage) :
    (ys.map .delivered).foldl (after policy) s = s.enter policy [] ys := by
  induction ys generalizing s with
  | nil => cases s <;> rfl
  | cons y ys ih => cases s <;> exact ih _

theorem foldl_entries (s : Outlook) (n : MarketId) (x : DeskAct) :
    (x.entries n).foldl (after policy) s = s.enter policy (x.buffered n) (x.delivered n) := by
  rw [DeskAct.entries, List.foldl_append, foldl_setAside, foldl_delivered]
  cases s <;> rfl

end Outlook

namespace Desk

variable {d d' : Desk} {x : DeskAct} {n : MarketId} {i : ℕ} {w w' : Worker} {p : PendingDiffs}

/-- **How a market will stand** once its worker has nothing left to take. -/
def outlook (d : Desk) (n : MarketId) : Outlook := (d.standing n).outlook d.policy

theorem outlook_of_none (h : d.slot? n = none) : d.outlook n = .untracked := by
  rw [outlook, standing_of_none h, Standing.outlook]

theorem outlook_of_waiting (h : d.slot? n = some (.initializing p)) :
    d.outlook n = .waiting p := by
  rw [outlook, standing_of_waiting h, Standing.outlook]

theorem outlook_of_removed (h : d.slot? n = some .removed) : d.outlook n = .removed := by
  rw [outlook, standing_of_removed h, Standing.outlook]

theorem outlook_of_active (h : d.slot? n = some (.active i)) (hw : d.worker? i = some w) :
    d.outlook n = .served (w.keeper.processAll d.policy w.backlog).untraded := by
  rw [outlook, standing_of_active h hw, Worker.standing, Standing.outlook,
    BookKeeper.processAll_untraded]

/-- A market that will have a worker has one. -/
theorem Staffed.served {k : BookKeeper} (staffed : d.Staffed) (h : d.outlook n = .served k) :
    ∃ i w, d.slot? n = some (.active i) ∧ d.worker? i = some w ∧
      (w.keeper.processAll d.policy w.backlog).untraded = k := by
  rcases hs : d.slot? n with - | (p | i | -)
  · cases (outlook_of_none hs).symm.trans h
  · cases (outlook_of_waiting hs).symm.trans h
  · obtain ⟨w, hw, -⟩ := staffed n i hs
    exact ⟨i, w, rfl, hw, Outlook.served.inj ((outlook_of_active hs hw).symm.trans h)⟩
  · cases (outlook_of_removed hs).symm.trans h

/-- **Messages come and are taken**: the outlook takes notice of those that come. -/
theorem Does.outlook_enter (h : d.Does x d') (staffed : d.Staffed)
    (slot : d'.slot? n = (d.slot? n).map (.setAside (x.buffered n))) :
    d'.outlook n = (d.outlook n).enter d.policy (x.buffered n) (x.delivered n) := by
  rcases hs : d.slot? n with - | (p | i | -)
  · rw [hs] at slot
    rw [outlook_of_none hs, outlook_of_none slot]
    rfl
  · rw [hs] at slot
    rw [outlook_of_waiting hs, outlook_of_waiting slot]
    rfl
  · rw [hs] at slot
    obtain ⟨w, hw, -⟩ := staffed n i hs
    obtain ⟨w', hw', hcontinues⟩ := h.worker? hw
    rw [outlook_of_active hs hw, outlook_of_active slot hw', Outlook.enter,
      BookKeeper.processAll_untraded, h.policy_length.1, ← staffed.suppliedBy_eq hs,
      ← BookKeeper.processAll_append, ← hcontinues.backlog, BookKeeper.processAll_append,
      ← BookKeeper.processAll_untraded, hcontinues.keeper, BookKeeper.processAll_untraded]
  · rw [hs] at slot
    rw [outlook_of_removed hs, outlook_of_removed slot]
    rfl

/-- A market comes or goes with a turn; nothing else does. -/
theorem outlook_turns (policy : StalenessPolicy) (s : Standing) :
    ((turns n d d').foldl (Standing.after policy) s).outlook policy =
      (turns n d d').foldl (Outlook.after policy) (s.outlook policy) := by
  unfold turns
  split
  · rw [List.foldl_map, List.foldl_map]
    cases d'.worker? _ with
    | none => rfl
    | some w => cases s <;> rfl
  · cases s <;> rfl
  · cases s <;> rfl
  · rfl

/-- **How a market will stand after an act** that does not register it. -/
theorem Does.outlook (h : d.Does x d') (staffed : d.Staffed) (hx : ∀ c, ¬x.Registers n c) :
    d'.outlook n =
      (turns n d d' ++ x.entries n).foldl (Outlook.after d.policy) (d.outlook n) := by
  have hslot := h.slot? n
  cases hshown : x.isShown with
  | false =>
    obtain ⟨-, hdelivered, hbuffered⟩ := DeskAct.brought_of_hidden (m := n) hshown
    have hentries : x.entries n = [] := by simp [DeskAct.entries, hdelivered, hbuffered]
    rw [hentries, List.append_nil, Desk.outlook, Desk.outlook, h.policy_length.1,
      h.standing_hidden staffed hshown hx, outlook_turns]
  | true =>
    have hkept : d'.slot? n = (d.slot? n).map (.setAside (x.buffered n)) := by
      cases x with
      | routed e outcome => exact hslot
      | worked i act => exact hslot.trans (Slot.map_setAside_nil _).symm
      | _ => cases hshown
    rw [turns_of_setAside hkept, List.nil_append, Outlook.foldl_entries]
    exact h.outlook_enter staffed hkept

end Desk

end LiveBook
