import LiveBook.Proofs.Desk.Safety
import LiveBook.Proofs.Tracker.Reachable

/-!
# The workers of a tracker

Every worker that a tracker ever had began with the book of a snapshot of its market, and has
taken messages since (`LiveBook.Tracker.Reachable.hasTaken`). So what is safe about such
workers, `LiveBook.Desk.work_safe`, is safe about all of them.
-/

namespace LiveBook

namespace Desk

variable {d d' : Desk} {x : DeskAct} {m : MarketId}

/-- Everybody at a desk began with the book of a snapshot and has taken messages since. -/
def HaveTaken (d : Desk) : Prop :=
  ∀ i w, d.worker? i = some w → ∃ first window ms, w.HasTaken d.policy first window ms

/-- Who has just been set to a market has taken nothing. -/
theorem Does.hasTaken_of_activated {w : Worker} (h : d.Does (.activated m) d')
    (hw : d'.worker? d.staff.length = some w) :
    ∃ first window, w.HasTaken d'.policy first window [] := by
  cases h with
  | @activate _ s _ _ window _ hd =>
    obtain ⟨b, p, hm, hb, -, rfl⟩ := activate_eq_ok hd
    obtain rfl := Option.some.inj (List.getElem?_concat_length.symm.trans hw)
    exact ⟨s, window, hm.symm, b, hb, rfl⟩

/-- **Every act leaves it at that.** -/
theorem Does.haveTaken (h : d.Does x d') (hd : d.HaveTaken) : d'.HaveTaken := by
  intro i w' hw'
  rcases h.worker?_before hw' with ⟨w, hw, hcontinues⟩ | ⟨m, rfl, rfl⟩
  · obtain ⟨first, window, ms, taken⟩ := hd i w hw
    refine ⟨first, window, ms ++ x.taken i, ?_⟩
    rw [h.policy_length.1]
    exact taken.append hcontinues.market hcontinues.keeper
  · obtain ⟨first, window, taken⟩ := h.hasTaken_of_activated hw'
    exact ⟨first, window, [], taken⟩

end Desk

namespace Tracker

variable {t : Tracker} {i : ℕ} {w : Worker}

/-- **Every worker of a tracker** began with the book of a snapshot and has taken messages
since. -/
theorem Reachable.hasTaken (h : t.Reachable) (hw : t.desk.worker? i = some w) :
    ∃ first window ms, w.HasTaken t.desk.policy first window ms := by
  obtain ⟨config, t₀, tr, hstart, hsteps⟩ := h
  have haveTaken : t.desk.HaveTaken := by
    clear hw
    induction hsteps with
    | refl =>
      intro i w hw
      obtain ⟨-, rfl⟩ := eq_of_ofConfig hstart
      cases hw
    | tail _ last ih =>
      obtain ⟨x, hdoes, -⟩ := step_does last
      exact hdoes.desk.haveTaken ih
  exact haveTaken i w hw

end Tracker

end LiveBook
