import LiveBook.Proofs.Tracker.Rules

/-!
# What was replied to a request

A request is answered once, and the answer stays. So what has been shown of the answers to a request
is what the tracker remembers (`LiveBook.Tracker.Happens.reply?`): step by step, the reply that is
kept is the one that was kept before, and then the one that is shown.
-/

namespace LiveBook

/-- The reply to a request, once it was answered. -/
def RequestStage.reply? : RequestStage → Option Reply
  | .answered reply => some reply
  | _ => none

/-- What is replied to a request with an effect. -/
def TrackerEffect.reply? (i : ℕ) : TrackerEffect → Option Reply
  | .answered j reply => if j = i then some reply else none
  | _ => none

theorem TrackerEffect.reply?_of_request?_ne {e : TrackerEffect} {i : ℕ} (h : e.request? ≠ some i) :
    e.reply? i = none := by
  unfold reply?
  split
  next j reply =>
    refine if_neg ?_
    rintro rfl
    exact h rfl
  next => rfl

namespace Tracker

variable {t t' : Tracker} {i j : ℕ} {s : RequestStage} {l : Label} {fx : List TrackerEffect}

/-- The reply that was given to a request. -/
def reply? (t : Tracker) (i : ℕ) : Option Reply := (t.request? i).bind RequestStage.reply?

theorem reply?_eq_some_iff {reply : Reply} :
    t.reply? i = some reply ↔ t.request? i = some (.answered reply) := by
  rw [reply?, Option.bind_eq_some_iff]
  constructor
  · rintro ⟨s, hs, hreply⟩
    cases s with
    | answered reply' =>
      obtain rfl := Option.some.inj hreply
      exact hs
    | _ => cases hreply
  · exact fun hs => ⟨_, hs, rfl⟩

/-- No reply to a request is shown by effects that are not its own. -/
theorem filterMap_reply? (h : ∀ e ∈ fx, e.request? ≠ some i) :
    fx.filterMap (TrackerEffect.reply? i) = [] :=
  List.filterMap_eq_nil_iff.mpr fun e he => TrackerEffect.reply?_of_request?_ne (h e he)

theorem filterMap_reply?_of_ne (hne : i ≠ j) (h : ∀ e ∈ fx, e.request? = some j) :
    fx.filterMap (TrackerEffect.reply? i) = [] :=
  filterMap_reply? fun e he heq => hne (Option.some.inj (heq.symm.trans (h e he)))

/-- One request more. -/
theorem reply?_of_concat (h : t'.requests = t.requests ++ [s]) (j : ℕ) :
    t'.reply? j = if j = t.requests.length then s.reply? else t.reply? j := by
  rw [reply?, reply?, request?, request?, h, List.getElem?_append]
  split
  next hlt => rw [if_neg hlt.ne]
  next hle =>
    split
    next heq =>
      rw [heq, Nat.sub_self]
      rfl
    next hne => rw [List.getElem?_eq_none (by simp; omega), List.getElem?_eq_none (by omega)]

/-- A request that comes to another stage. -/
theorem reply?_of_set {v : RequestStage} (hv : t.request? i = some v)
    (h : t'.requests = t.requests.set i s) (j : ℕ) :
    t'.reply? j = if j = i then s.reply? else t.reply? j := by
  rw [reply?, reply?, request?, request?, h]
  split
  next heq =>
    subst heq
    rw [List.getElem?_set_self (List.getElem?_eq_some_iff.mp hv).1]
    rfl
  next hne => rw [List.getElem?_set_ne (Ne.symm hne)]

/-- A request that goes on was not answered. It is now exactly if that is shown. -/
theorem Goes.reply? (h : t.Goes i s l fx t') : s.reply? = none ∧
    ∃ s', t'.requests = t.requests.set i s' ∧
      s'.reply?.toList = fx.filterMap (TrackerEffect.reply? i) := by
  cases h <;> exact ⟨rfl, _, rfl, by simp [RequestStage.reply?, TrackerEffect.reply?]⟩

/-- What is asked for is answered at once exactly if that is shown. -/
theorem Asks.reply? {q : Request} (h : t.Asks q fx t') :
    ∃ s, t'.requests = t.requests ++ [s] ∧
      s.reply?.toList = fx.filterMap (TrackerEffect.reply? t.requests.length) ∧
      ∀ e ∈ fx, e.request? = some t.requests.length := by
  cases h with
  | addsNothing idle | stopsNothing idle =>
    exact ⟨_, rfl, by simp [RequestStage.reply?, TrackerEffect.reply?],
      by simp [TrackerEffect.request?]⟩
  | @stops r hrun =>
    refine ⟨.stop (.awaitingTasks r), ?_, rfl, by simp⟩
    exact congrArg (· ++ [_]) (t.requests_cancelRun r)
  | _ => exact ⟨_, rfl, rfl, by simp⟩

/-- **The reply that is kept** is the one that was kept before, and then the one that is shown. -/
theorem Happens.reply? (h : t.Happens l fx t') (i : ℕ) :
    (t'.reply? i).toList = (t.reply? i).toList ++ fx.filterMap (TrackerEffect.reply? i) := by
  -- nothing is shown, and the requests stay
  have still (hfx : ∀ e ∈ fx, e.request? ≠ some i) (same : t'.requests = t.requests) :
      (t'.reply? i).toList = (t.reply? i).toList ++ fx.filterMap (TrackerEffect.reply? i) := by
    rw [filterMap_reply? hfx, List.append_nil, Tracker.reply?, Tracker.reply?, request?, request?,
      same]
  cases h with
  | starts idle => exact still (by simp) rfl
  | goesOn running => exact still (by simp [TrackerEffect.request?]) rfl
  | abandons hrun => exact still (by simp) (t.requests_cancelRun _)
  | abandonsNothing idle => exact still (by simp) rfl
  | asks h =>
    obtain ⟨s, hrequests, hshown, hown⟩ := h.reply?
    rw [reply?_of_concat hrequests]
    split
    next heq =>
      subst heq
      rw [hshown, Tracker.reply?, request?, List.getElem?_eq_none le_rfl]
      rfl
    next hne => rw [filterMap_reply?_of_ne hne hown, List.append_nil]
  | goes hl hs h =>
    obtain ⟨hbefore, s', hrequests, hshown⟩ := h.reply?
    rw [reply?_of_set hs hrequests]
    split
    next heq =>
      subst heq
      rw [hshown, Tracker.reply?, hs, Option.bind_some, hbefore]
      rfl
    next hne => rw [filterMap_reply?_of_ne hne h.shown, List.append_nil]
  | tends hl other h =>
    exact still (fun e he => by simp [h.shown e he]) h.rest.2.2

/-- **A reply stays.** -/
theorem Happens.reply?_of_some (h : t.Happens l fx t') {reply : Reply}
    (replied : t.reply? i = some reply) : t'.reply? i = some reply := by
  have hkept := h.reply? i
  rw [replied] at hkept
  cases hafter : t'.reply? i with
  | none =>
    rw [hafter] at hkept
    cases hkept
  | some reply' =>
    rw [hafter] at hkept
    rw [(List.cons.inj hkept).1]

/-- Requests are made, and never forgotten. -/
theorem Happens.requests_le (h : t.Happens l fx t') :
    t.requests.length ≤ t'.requests.length := by
  cases h with
  | starts idle => exact le_rfl
  | goesOn running => exact le_rfl
  | abandons hrun => rw [requests_cancelRun]
  | abandonsNothing idle => exact le_rfl
  | asks h =>
    obtain ⟨s, hrequests, -⟩ := h.reply?
    rw [hrequests, List.length_append]
    exact Nat.le_add_right _ _
  | goes hl hs h =>
    obtain ⟨-, s', hrequests, -⟩ := h.reply?
    rw [hrequests, List.length_set]
  | tends hl other h => rw [h.rest.2.2]

end Tracker

end LiveBook
