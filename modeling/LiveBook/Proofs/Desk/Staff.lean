import LiveBook.Proofs.Desk.Order

/-!
# Who works at a desk

A worker is at work (`LiveBook.Desk.AtWork`) as long as the slot of its market leads to it and
nobody has cancelled it. Nothing that is done at a desk takes it away from its work but what is
meant to: to take its market away, to cancel it, or to forget all markets.

* `LiveBook.Desk.Retains` – nobody new has come, and whoever was at work still is, with
  exceptions;
* `LiveBook.Desk.Routes.retains`, `LiveBook.Desk.Works.retains`,
  `LiveBook.Desk.retains_refresh` – events, prices and the work itself make no exceptions;
* `LiveBook.Desk.worker?_activate` – one worker more.
-/

namespace LiveBook

namespace Desk

variable {d d' d'' : Desk} {i : ℕ} {w w' : Worker} {m : MarketId} {away : ℕ → Prop}

/-- **A worker is at work**: its market is active with it, nobody has cancelled it, and it has
not ended. -/
structure AtWork (d : Desk) (i : ℕ) (w : Worker) : Prop where
  slot : d.slot? w.market = some (.active i)
  wanted : w.isCancelled = false
  going : w.stage ≠ .ended

/-- **A desk retains its workers.** Nobody has come or been given to another run, and whoever was
at work still is, but perhaps for those who were sent away. -/
def Retains (away : ℕ → Prop) (d d' : Desk) : Prop :=
  ∀ i w', d'.worker? i = some w' → ∃ w, d.worker? i = some w ∧ w'.run = w.run ∧
    (d.AtWork i w → d'.AtWork i w' ∨ away i)

theorem Retains.trans (h : Retains away d d') (h' : Retains away d' d'') :
    Retains away d d'' := by
  intro i w'' hw''
  obtain ⟨w', hw', hrun', hwork'⟩ := h' i w'' hw''
  obtain ⟨w, hw, hrun, hwork⟩ := h i w' hw'
  exact ⟨w, hw, hrun'.trans hrun, fun h => (hwork h).elim hwork' .inr⟩

theorem Retains.mono {away' : ℕ → Prop} (h : Retains away d d') (le : ∀ i, away i → away' i) :
    Retains away' d d' := by
  intro i w' hw'
  obtain ⟨w, hw, hrun, hwork⟩ := h i w' hw'
  exact ⟨w, hw, hrun, fun h => (hwork h).imp_right (le i)⟩

/-- Only slots and records are changed. -/
theorem retains_of_staff (staff : d'.staff = d.staff)
    (slots : ∀ i w, d.AtWork i w → d'.slot? w.market = some (.active i) ∨ away i) :
    Retains away d d' := by
  intro i w hw
  rw [worker?, staff] at hw
  exact ⟨w, hw, rfl, fun h => (slots i w h).imp_left fun slot => ⟨slot, h.wanted, h.going⟩⟩

theorem retains_rest (d : Desk) : Retains away d d :=
  retains_of_staff rfl fun _ _ h => .inl h.slot

/-- Only one worker is changed. -/
theorem retains_setWorker {v v' : Worker} {ms : Metrics}
    (hd' : d' = { d.setWorker i v' with metrics := ms }) (hv : d.worker? i = some v)
    (market : v'.market = v.market) (run : v'.run = v.run)
    (work : d.AtWork i v → v'.isCancelled = false ∧ v'.stage ≠ .ended ∨ away i) :
    Retains away d d' := by
  subst hd'
  intro j w' hw'
  by_cases hij : i = j
  · subst hij
    obtain rfl := Option.some.inj ((worker?_setWorker_self hv).symm.trans hw')
    exact ⟨v, hv, run, fun h => (work h).imp_left fun ⟨wanted, going⟩ =>
      ⟨(congrArg d.slot? market).trans h.slot, wanted, going⟩⟩
  · refine ⟨w', (worker?_setWorker_ne hij v').symm.trans hw', rfl, fun h => .inl ?_⟩
    exact ⟨h.slot, h.wanted, h.going⟩

/-! ### Without exceptions -/

theorem Routes.retains {e : Event} {outcome : RouteOutcome} (h : d.Routes e outcome d') :
    Retains away d d' := by
  cases h with
  | unknown ms slot => exact retains_of_staff rfl fun _ _ h => .inl h.slot
  | @buffered e p ms slot =>
    refine retains_of_staff rfl fun i w h => .inl ?_
    -- the market waits, so that nobody works for it
    have hne : e.market ≠ w.market := by
      intro heq
      exact absurd (slot.symm.trans (heq ▸ h.slot)) (by simp)
    exact (slot?_adjust_ne rfl hne).trans h.slot
  | stale ms slot worker isStale => exact retains_of_staff rfl fun _ _ h => .inl h.slot
  | rejected ms ended active => exact retains_of_staff rfl fun _ _ h => .inl h.slot
  | delivered ms message slot worker running =>
    exact retains_setWorker rfl worker rfl rfl (fun h => .inl ⟨h.wanted, h.going⟩)
  | traded ms now slot worker =>
    exact retains_setWorker rfl worker rfl rfl (fun h => .inl ⟨h.wanted, h.going⟩)

theorem Works.retains {act : WorkerAct} (h : d.Works i act d') : Retains away d d' := by
  cases h with
  | took ms stage worker running wanted next going =>
    obtain ⟨pending, queue, rfl⟩ := Worker.take?_eq next
    exact retains_setWorker rfl worker rfl rfl (fun h => .inl ⟨h.wanted, going⟩)
  | resumed worker paused =>
    exact retains_setWorker rfl worker rfl rfl (fun h => .inl ⟨h.wanted, by simp⟩)
  | ended worker going why =>
    -- whoever is at work does not end
    refine retains_setWorker rfl worker rfl rfl (fun h => ?_)
    rcases why with cancelled | ⟨-, unsupplied⟩
    · exact absurd (h.wanted.symm.trans cancelled) (by simp)
    · exact absurd h.slot unsupplied

theorem retains_refresh (asked : List (MarketId × ℕ)) (prices : Table MarketId Decimal)
    (now : Instant) : Retains away d (d.refresh asked prices now) := by
  unfold refresh
  induction asked generalizing d with
  | nil => exact d.retains_rest
  | cons a asked ih =>
    rw [List.foldl_cons]
    refine .trans ?_ ih
    dsimp only
    split
    next w hw =>
      exact retains_setWorker rfl hw rfl rfl (fun h => .inl ⟨h.wanted, h.going⟩)
    next => exact d.retains_rest

theorem retains_register (c : ℕ) (new : d.slot? m = none) : Retains away d (d.register m c) := by
  refine retains_of_staff rfl fun i w h => .inl ?_
  have hne : m ≠ w.market := by
    rintro rfl
    exact absurd (new.symm.trans h.slot) (by simp)
  exact (d.slot?_register _ _ _).trans ((if_neg hne).trans h.slot)

/-- A market is forgotten that is not active. -/
theorem retains_discard (inactive : ∀ j, d.slot? m ≠ some (.active j)) :
    Retains away d (d.discard m) := by
  refine retains_of_staff rfl fun i w h => .inl ?_
  have hne : m ≠ w.market := by
    rintro rfl
    exact inactive i h.slot
  exact (d.slot?_discard _ _).trans ((if_neg hne).trans h.slot)

/-! ### With exceptions -/

theorem retains_retire (h : d.slot? m = some (.active i)) : Retains (· = i) d (d.retire m).1 := by
  refine retains_of_staff rfl fun j w hw => ?_
  by_cases hm : m = w.market
  · subst hm
    exact .inr (Slot.active.inj (Option.some.inj (hw.slot.symm.trans h)))
  · exact .inl ((slot?_adjust_ne rfl hm).trans hw.slot)

theorem retains_cancel (i : ℕ) : Retains (· = i) d (d.cancel i) := by
  unfold cancel
  split
  next w hw => exact retains_setWorker rfl hw rfl rfl (fun _ => .inr rfl)
  next => exact d.retains_rest

/-- Workers are cancelled and markets are forgotten, but nobody comes. -/
theorem retains_cancelRun (r : ℕ) : Retains (fun _ => True) d (d.cancelRun r) := by
  intro i w' hw'
  have hmap : (d.cancelRun r).worker? i =
      (d.worker? i).map fun w => if w.run = r then { w with isCancelled := true } else w :=
    List.getElem?_map
  rw [hmap, Option.map_eq_some_iff] at hw'
  obtain ⟨w, hw, rfl⟩ := hw'
  refine ⟨w, hw, ?_, fun _ => .inr trivial⟩
  split <;> rfl

/-- The same workers are there. -/
theorem retains_all (staff : d'.staff = d.staff) : Retains (fun _ => True) d d' :=
  retains_of_staff staff fun _ _ _ => .inr trivial

/-! ### One worker more -/

/-- **A market is activated**: its new worker is at work, if it was not cancelled from the start,
and the others stay where they are. -/
theorem worker?_activate {s : Snapshot} {run : ℕ} {isCancelled : Bool} {window : ℕ}
    (h : d.activate m s run isCancelled window = .ok d') (hw' : d'.worker? i = some w') :
    (∃ w, d.worker? i = some w ∧ w'.run = w.run ∧ (d.AtWork i w → d'.AtWork i w')) ∨
      w'.run = run ∧ (isCancelled = false → d'.AtWork i w') := by
  have hslot := slot?_activate h
  obtain ⟨b, p, -, -, hp, rfl⟩ := activate_eq_ok h
  by_cases hi : i < d.staff.length
  · have hw : d.worker? i = some w' := (List.getElem?_append_left hi).symm.trans hw'
    refine .inl ⟨w', hw, rfl, fun hwork => ⟨?_, hwork.wanted, hwork.going⟩⟩
    have hne : m ≠ w'.market := by
      rintro rfl
      exact absurd (hp.symm.trans hwork.slot) (by simp)
    exact (hslot _).trans ((if_neg hne).trans hwork.slot)
  · have hlength := lt_length hw'
    rw [List.length_append, List.length_singleton] at hlength
    obtain rfl : i = d.staff.length := by omega
    obtain rfl := Option.some.inj (List.getElem?_concat_length.symm.trans hw')
    exact .inr ⟨rfl, fun wanted => ⟨(hslot m).trans (if_pos rfl), wanted, by simp⟩⟩

end Desk

end LiveBook
