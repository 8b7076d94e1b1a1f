import LiveBook.Proofs.Tracker.Rules

/-!
# One step of a tracker

In one step a tracker does one thing at its desk, which its effects show, and it never
changes its configuration (`LiveBook.Tracker.step_does`). A market is registered with the
capacity of the configuration, and exactly if a run begins that has it, or if a slot comes
where there was none (`LiveBook.Tracker.Registers`).

What is done at the desk is read off the rule that the step follows.
-/

namespace LiveBook

namespace Tracker

/-- **What a step does**: it does `x` at the desk and leaves the configuration. -/
structure Does (t : Tracker) (x : DeskAct) (fx : List TrackerEffect) (t' : Tracker) : Prop where
  config : t'.config = t.config
  desk : t.desk.Does x t'.desk
  shown : fx.filterMap TrackerEffect.act? = [x].filter DeskAct.isShown

/-- One act is done at the desk, which registers new markets only. -/
def Acts (t : Tracker) (fx : List TrackerEffect) (t' : Tracker) : Prop :=
  ∃ x, t.Does x fx t' ∧
    ∀ m c, x.Registers m c → c = t.config.pendingCapacity ∧ t.desk.slot? m = none

variable {t t' : Tracker} {fx : List TrackerEffect} {x : DeskAct} {i : ℕ} {s : RequestStage}
  {l : Label}

/-- An act that registers nothing. -/
theorem Does.acts (h : t.Does x fx t') (hx : ∀ m c, ¬x.Registers m c) : t.Acts fx t' :=
  ⟨x, h, fun m c hm => absurd hm (hx m c)⟩

/-- Nothing is done at the desk. -/
theorem acts_rest (config : t'.config = t.config) (desk : t'.desk = t.desk)
    (shown : fx.filterMap TrackerEffect.act? = []) : t.Acts fx t' :=
  Does.acts (x := .rested) ⟨config, desk ▸ .rest, shown⟩ fun _ _ => id

/-- A market is forgotten. -/
theorem acts_discard (m : MarketId) (config : t'.config = t.config)
    (desk : t'.desk = t.desk.discard m) (shown : fx.filterMap TrackerEffect.act? = []) :
    t.Acts fx t' :=
  Does.acts (x := .discarded m) ⟨config, desk ▸ .discard m, shown⟩ fun _ _ => id

/-- The tasks of a run are cancelled. -/
theorem acts_cancelRun (r : ℕ) (config : t'.config = t.config)
    (desk : t'.desk = (t.cancelRun r).desk) (shown : fx.filterMap TrackerEffect.act? = []) :
    t.Acts fx t' := by
  cases hr : t.run? r with
  | none => exact acts_rest config (desk.trans (congrArg _ (cancelRun_of_none hr))) shown
  | some run =>
    rw [cancelRun_of_some hr] at desk
    exact Does.acts (x := .rested) ⟨config, desk ▸ .cancelRun r, shown⟩ fun _ _ => id

theorem Goes.acts (h : t.Goes i s l fx t') : t.Acts fx t' := by
  cases h with
  | @addRegisters m r holds going new =>
    -- the only place outside of a start where a market gets a slot
    refine ⟨.registered m t.config.pendingCapacity, ⟨rfl, .register _ new, rfl⟩, ?_⟩
    rintro m' c ⟨rfl, rfl⟩
    exact ⟨rfl, new⟩
  | addRefused => exact acts_discard _ rfl rfl rfl
  | addActivates hd => exact Does.acts ⟨rfl, .activate hd, rfl⟩ fun _ _ => id
  | addQuits cancelled adding => exact acts_discard _ rfl rfl rfl
  | addFails why => exact acts_discard _ rfl rfl rfl
  | removeRetires holds active charge =>
    exact Does.acts ⟨rfl, .retireFrom active _, rfl⟩ fun _ _ => id
  | removeRetiresNobody holds active charge =>
    exact Does.acts ⟨rfl, .retire active, rfl⟩ fun _ _ => id
  | removeEnds b => exact acts_discard _ rfl rfl rfl
  | stopDismisses holds workers => exact Does.acts ⟨rfl, .dismiss _, rfl⟩ fun _ _ => id
  | stopDisbands holds nobody => exact Does.acts ⟨rfl, .disband, rfl⟩ fun _ _ => id
  | stopDrains ended => exact Does.acts ⟨rfl, .cancel _, rfl⟩ fun _ _ => id
  | stopEnds ended => exact Does.acts ⟨rfl, .clear, rfl⟩ fun _ _ => id
  | _ => exact acts_rest rfl rfl rfl

theorem Tends.acts (h : t.Tends fx t') : t.Acts fx t' := by
  cases h with
  | task hr later startup minds tells =>
    exact Does.acts ⟨rfl, minds.does, tells.shown⟩ minds.not_registers
  | worker minds tells => exact Does.acts ⟨rfl, minds.does, tells.shown⟩ minds.not_registers
  | startup hr going outside remaining tells => exact acts_rest rfl rfl tells.shown
  | startupActivates hr locking holds hd outside remaining hready =>
    exact Does.acts ⟨rfl, .activate hd, rfl⟩ fun _ _ => id
  | _ => exact acts_rest rfl rfl rfl

theorem Asks.acts {q : Request} (h : t.Asks q fx t') : t.Acts fx t' := by
  cases h with
  | stops hrun => exact acts_cancelRun _ (t.config_cancelRun _) rfl rfl
  | _ => exact acts_rest rfl rfl rfl

/-- **A step registers a market** if a run begins that has it, or if the market gets a slot
and had none. -/
def Registers (t : Tracker) (l : Label) (t' : Tracker) (m : MarketId) : Prop :=
  (l = .start ∧ t.run = none ∧ m ∈ t.config.markets) ∨
    (t.desk.slot? m = none ∧ (t'.desk.slot? m).isSome)

/-- What a start does is registering its markets. -/
theorem started_does (t : Tracker) :
    t.Does (.started t.config.markets t.config.pendingCapacity) [] t.started :=
  ⟨rfl, .start t.config.markets t.config.pendingCapacity t.now, rfl⟩

/-- Everything that can happen but the start of a run. -/
theorem Happens.acts (h : t.Happens l fx t') (hl : ¬(l = .start ∧ t.run = none)) :
    t.Acts fx t' := by
  cases h with
  | starts idle => exact absurd ⟨rfl, idle⟩ hl
  | goesOn running => exact acts_rest rfl rfl rfl
  | abandons hrun => exact acts_cancelRun _ (t.config_cancelRun _) rfl rfl
  | abandonsNothing idle => exact acts_rest rfl rfl rfl
  | asks h => exact h.acts
  | goes hl hs h => exact h.acts
  | tends hl other h => exact h.acts

/-- **In one step a tracker does one thing at its desk**, and registers markets with the
capacity of its configuration. -/
theorem step_does {l : Label} (h : t.step l = some (t', fx)) :
    ∃ x, t.Does x fx t' ∧ ∀ m, (t.Registers l t' m ↔ ∃ c, x.Registers m c) ∧
      ∀ c, x.Registers m c → c = t.config.pendingCapacity := by
  by_cases hl : l = .start ∧ t.run = none
  · obtain ⟨rfl, idle⟩ := hl
    unfold step at h
    dsimp only at h
    rw [start_of_idle idle] at h
    obtain ⟨rfl, rfl⟩ := Prod.mk.inj (Option.some.inj h)
    have hdoes := t.started_does
    refine ⟨_, hdoes, fun m => ⟨⟨?_, ?_⟩, fun c hc => hc.2.symm⟩⟩
    · rintro (⟨-, -, hm⟩ | ⟨hnone, hsome⟩)
      · exact ⟨_, hm, rfl⟩
      · exact hdoes.desk.registers_of_isSome hnone hsome
    · rintro ⟨c, hm, -⟩
      exact .inl ⟨rfl, idle, hm⟩
  · obtain ⟨x, hdoes, hx⟩ := (step_happens h).acts hl
    refine ⟨x, hdoes, fun m => ⟨⟨?_, ?_⟩, fun c hc => (hx m c hc).1⟩⟩
    · rintro (⟨hstart, idle, -⟩ | ⟨hnone, hsome⟩)
      · exact absurd ⟨hstart, idle⟩ hl
      · exact hdoes.desk.registers_of_isSome hnone hsome
    · rintro ⟨c, hc⟩
      refine .inr ⟨(hx m c hc).2, ?_⟩
      rw [hdoes.desk.slot? m, DeskAct.slotAfter_of_registers hc]
      rfl

end Tracker

end LiveBook
