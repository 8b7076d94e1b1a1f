import LiveBook.Proofs.Tracker.Acts

/-!
# The states that a tracker reaches

A tracker begins with a configuration that holds together, and takes steps
(`LiveBook.Tracker.Reachable`). What is true of it then and kept by every step is true of
all states that it reaches; `LiveBook.Tracker.Sound` is what is used throughout.
-/

namespace LiveBook

namespace Tracker

variable {t t' : Tracker} {l : Label} {fx : List TrackerEffect}

/-- A state that a tracker reaches from some configuration. -/
def Reachable (t : Tracker) : Prop :=
  ∃ config t₀ tr, ofConfig config = .ok t₀ ∧ Steps t₀ tr t

theorem Reachable.step (h : t.Reachable) (hstep : t.step l = some (t', fx)) : t'.Reachable := by
  obtain ⟨config, t₀, tr, hstart, hsteps⟩ := h
  exact ⟨config, t₀, _, hstart, .tail hsteps hstep⟩

/-- **What always holds**: active markets have workers, the policy is that of the
configuration, and there is room for at least one diff that comes early. -/
structure Sound (t : Tracker) : Prop where
  staffed : t.desk.Staffed
  policy : t.desk.policy = t.config.policy
  room : 0 < t.config.pendingCapacity

theorem pendingCapacity_pos {config : TrackerConfig} (h : config.validate = .ok ()) :
    0 < config.pendingCapacity := by
  refine Nat.pos_of_ne_zero fun hzero => ?_
  unfold TrackerConfig.validate TrackerConfig.fault? at h
  rw [if_pos hzero] at h
  cases h

/-- A tracker that was never started has a valid configuration and nothing else. -/
theorem eq_of_ofConfig {config : TrackerConfig} (h : ofConfig config = .ok t) :
    config.validate = .ok () ∧ t = {
      config := config, desk := .empty config.policy (.ofConfig config.metrics 0), ready := {},
      run := none, runs := [], requests := [], lock := [], clock := 0, now := 0 } := by
  cases hvalid : config.validate with
  | error e => simp [ofConfig, hvalid, bind, Except.bind] at h
  | ok u =>
    simp only [ofConfig, hvalid, bind, Except.bind, pure, Except.pure, Except.ok.injEq] at h
    exact ⟨rfl, h.symm⟩

theorem sound_ofConfig {config : TrackerConfig} (h : ofConfig config = .ok t) : t.Sound := by
  obtain ⟨hvalid, rfl⟩ := eq_of_ofConfig h
  refine ⟨fun m i hs => ?_, rfl, pendingCapacity_pos hvalid⟩
  exact absurd hs (by simp [Desk.slot?, Desk.empty])

theorem Sound.step (h : t.Sound) (hstep : t.step l = some (t', fx)) : t'.Sound := by
  obtain ⟨x, hdoes, -⟩ := step_does hstep
  refine ⟨hdoes.desk.staffed h.staffed, ?_, ?_⟩
  · rw [hdoes.desk.policy_length.1, hdoes.config, h.policy]
  · rw [hdoes.config]
    exact h.room

theorem Reachable.sound (h : t.Reachable) : t.Sound := by
  obtain ⟨config, t₀, tr, hstart, hsteps⟩ := h
  induction hsteps with
  | refl => exact sound_ofConfig hstart
  | tail _ last ih => exact ih.step last

end Tracker

end LiveBook
