import LiveBook.Proofs.Desk.Order

/-!
# Turns at a desk

Whoever has the lock takes turns (`LiveBook.Desk.Turn`), each of which leads from one thing
that is under way to the next. Every turn keeps the desk in order
(`LiveBook.Desk.Turn.inOrder`), and moves each market by at most one step
(`LiveBook.Desk.Turn.phase`). Three things are done in addition, which concern the markets of a
whole run: the start, the first books, and the end of a stop
(`LiveBook.Desk.InOrder.registerAll`, `LiveBook.Desk.InOrder.activate`,
`LiveBook.Desk.InOrder.clear`).

A turn that is about one market leaves the others alone, so that only this market has to be
looked at (`LiveBook.Desk.InOrder.turn`).
-/

namespace LiveBook

/-- What is under way concerns no market but this one. -/
def Operation.IsAbout (m : MarketId) : Operation → Prop
  | .idle => True
  | .adding m' => m' = m
  | .removing m' _ => m' = m
  | .dismissing _ => False

namespace Desk

variable {d d' : Desk} {m m' : MarketId} {i : ℕ} {op op' : Operation}

/-! ### What concerns one market -/

/-- A market is in order whatever is under way elsewhere. -/
theorem InOrderAt.elsewhere (h : d.InOrderAt op m') (hop : op.IsAbout m) (hop' : op'.IsAbout m)
    (hm : m ≠ m') : d.InOrderAt op' m' := by
  have hadding : op' ≠ .adding m' := by
    rintro rfl
    exact hm (Eq.symm hop')
  have hremoving : ∀ {o : Operation}, o.IsAbout m → ∀ j, o ≠ .removing m' j := by
    rintro o ho j rfl
    exact hm (Eq.symm ho)
  have hdismissing : ∀ {o : Operation}, o.IsAbout m → ∀ ws, o ≠ .dismissing ws := by
    rintro o ho ws rfl
    exact ho
  refine ⟨fun h => absurd h hadding, ?_, h.inCharge, fun i hi => ?_,
    fun ws h => absurd h (hdismissing hop' ws), fun i w hw hmarket going => ?_, h.tallied⟩
  · simp only [h.removing, hremoving hop, hremoving hop']
  · exact (h.charged i hi).imp_right fun ⟨ws, hws⟩ => absurd hws (hdismissing hop ws)
  · rcases h.working i w hw hmarket going with hr | ⟨hs, -⟩
    · exact absurd hr (hremoving hop _)
    · exact .inr ⟨hs, fun ws hws => absurd hws (hdismissing hop' ws)⟩

/-- **A turn that is about one market** keeps the order if it keeps it there. -/
theorem InOrder.turn (h : d.InOrder op) (m : MarketId) (hop : op.IsAbout m) (hop' : op'.IsAbout m)
    (staffed : d'.Staffed) (spares : ∀ m', m ≠ m' → Spares m' d d') (here : d'.InOrderAt op' m) :
    d'.InOrder op' := by
  refine ⟨staffed, fun m' => ?_⟩
  by_cases hm : m = m'
  · exact hm ▸ here
  · exact ((h.market m').elsewhere hop hop' hm).spared (spares m' hm)

/-- What is done to the slot of one market leaves the others alone. -/
theorem Does.spares_of_slot {x : DeskAct} (h : d.Does x d') (slot : d'.slot? m = d.slot? m)
    (hx : x ≠ .activated m) (inCharge : d'.inCharge.get? m = d.inCharge.get? m)
    (tallied : d'.metrics.hasMarket m = true → d.metrics.hasMarket m = true) : Spares m d d' :=
  h.spares [] (slot.trans (Slot.map_setAside_nil _).symm) hx inCharge fun hm => .inl (tallied hm)

namespace InOrder

/-- Nobody who has not ended has a market that is neither active nor being removed. -/
theorem ended_of_inactive (h : d.InOrder op) (hop : ∀ j, op ≠ .removing m j)
    (inactive : ∀ i, d.slot? m ≠ some (.active i)) {w : Worker} (hw : d.worker? i = some w)
    (hm : w.market = m) : w.stage = .ended := by
  by_contra going
  rcases (h.market m).working i w hw hm going with hr | ⟨hs, -⟩
  · exact hop _ hr
  · exact inactive i hs

/-- Nobody works for a market that waits for its first book. -/
theorem ended_of_waiting (h : d.InOrder op) (waits : d.phase m = .initializing) {w : Worker}
    (hw : d.worker? i = some w) (hm : w.market = m) : w.stage = .ended := by
  obtain ⟨p, hp⟩ := phase_eq_initializing.mp waits
  refine h.ended_of_inactive (fun j hj => ?_) (by simp [hp]) hw hm
  exact absurd (waits.symm.trans ((h.market m).removing.mpr ⟨j, hj⟩)) (by simp)

/-- A market begins to be added. -/
theorem register (h : d.InOrder .idle) (new : d.slot? m = none) (c : ℕ) :
    (d.register m c).InOrder (.adding m) := by
  have hdoes := Does.register c new
  have hphase : (d.register m c).phase m = .initializing := by simp
  refine h.turn m trivial rfl (hdoes.staffed h.staffed) (fun m' hm => ?_)
    { adding := fun _ => hphase
      removing := by simp
      inCharge := fun i hi => ?_
      charged := by simp
      dismissed := by simp
      working := fun i w hw hm going => ?_
      tallied := by simp }
  · exact hdoes.spares_of_slot (by simp [hm]) (by simp) rfl id
  · exact absurd (new.symm.trans ((h.market m).inCharge i hi)) (by simp)
  · exact absurd (h.ended_of_inactive (by simp) (by simp [new]) hw hm) going

/-- A waiting market gets its first book. -/
theorem activate (h : d.InOrder op) (hop : op = .idle ∨ op = .adding m) {s : Snapshot} {run : ℕ}
    {isCancelled : Bool} {window : ℕ} (hd : d.activate m s run isCancelled window = .ok d') :
    d'.InOrder .idle := by
  have hdoes := Does.activate hd
  have habout : op.IsAbout m := by
    rcases hop with rfl | rfl
    · trivial
    · rfl
  have hslot := (slot?_activate hd m).trans (if_pos rfl)
  have hphase := (phase_activate hd m).trans (if_pos rfl)
  have hcharge := (inCharge_activate hd m).trans (if_pos rfl)
  refine h.turn m habout trivial (hdoes.staffed h.staffed) (fun m' hm => ?_)
    { adding := by simp
      removing := by simp [hphase]
      inCharge := fun i hi => ?_
      charged := fun i hi => .inl ?_
      dismissed := by simp
      working := fun i w hw hm going => .inr ⟨?_, by simp⟩
      tallied := by simp [hphase] }
  · refine hdoes.spares_of_slot ?_ (by simpa using hm) ?_ ?_
    · rw [slot?_activate hd, if_neg hm]
    · rw [inCharge_activate hd, if_neg hm]
    · rw [metrics_activate hd]
      exact id
  · rw [hslot, Option.some.inj (hcharge.symm.trans hi)]
  · rw [hcharge, Slot.active.inj (Option.some.inj (hslot.symm.trans hi))]
  · rcases hdoes.worker?_before hw with ⟨v, hv, hcontinues⟩ | ⟨-, -, rfl⟩
    · -- those of the market who were there before have ended
      have hended : v.stage = .ended :=
        h.ended_of_waiting (phase_of_activate hd) hv (hcontinues.market.symm.trans hm)
      exact absurd (hcontinues.ended hended) going
    · exact hslot

/-- A market begins to be removed. -/
theorem retire (h : d.InOrder .idle) (active : d.slot? m = some (.active i)) :
    (d.retire m).1.InOrder (.removing m (some i)) := by
  have hdoes := Does.retire active
  have hslot := slot?_retire active m
  have hphase := phase_retire active m
  refine h.turn m trivial rfl (hdoes.staffed h.staffed) (fun m' hm => ?_)
    { adding := by simp [hphase]
      removing := by simp [hphase]
      inCharge := by simp
      charged := by simp [hslot]
      dismissed := by simp
      working := fun j w hw hm going => .inl ?_
      tallied := by simp [hphase] }
  · exact hdoes.spares_of_slot (slot?_adjust_ne rfl hm) (by simp) (by simp [hm]) id
  · rcases (h.market m).working j w hw hm going with hop | ⟨hs, -⟩
    · cases hop
    · rw [Slot.active.inj (Option.some.inj (active.symm.trans hs))]

/-- The worker of a market that is being removed has ended. -/
theorem ended (h : d.InOrder (.removing m (some i))) (ended : d.hasEnded i = true) :
    d.InOrder (.removing m none) := by
  refine h.turn m rfl rfl h.staffed (fun m' _ => (quiet_rest d).spares m')
    { adding := by simp
      removing := (h.market m).removing.trans (by simp)
      inCharge := (h.market m).inCharge
      charged := fun j hj => ?_
      dismissed := by simp
      working := fun j w hw hm going => ?_
      tallied := (h.market m).tallied }
  · exact ((h.market m).charged j hj).imp_right (by simp)
  · rcases (h.market m).working j w hw hm going with hop | ⟨hs, -⟩
    · obtain rfl : i = j := by simpa using hop
      rw [hasEnded, hw] at ended
      exact absurd (of_decide_eq_true ended) going
    · exact .inr ⟨hs, by simp⟩

/-- A market is forgotten that was not added after all, or whose worker has ended. -/
theorem discard (h : d.InOrder op) (hop : op = .adding m ∨ op = .removing m none) :
    (d.discard m).InOrder .idle := by
  have hdoes := Does.discard (d := d) m
  have habout : op.IsAbout m := by
    rcases hop with rfl | rfl <;> rfl
  have inactive : ∀ i, d.slot? m ≠ some (.active i) := by
    intro i hi
    have hphase : d.phase m = .active := phase_of_slot hi
    rcases hop with rfl | rfl
    · exact absurd (hphase.symm.trans ((h.market m).adding rfl)) (by simp)
    · exact absurd (hphase.symm.trans ((h.market m).removing.mpr ⟨_, rfl⟩)) (by simp)
  refine h.turn m habout trivial (hdoes.staffed h.staffed) (fun m' hm => ?_)
    { adding := by simp
      removing := by simp
      inCharge := fun i hi => absurd ((h.market m).inCharge i hi) (inactive i)
      charged := by simp
      dismissed := by simp
      working := fun i w hw hm going => ?_
      tallied := fun hm => absurd rfl ((Metrics.hasMarket_removeMarket d.metrics).mp hm).1 }
  · refine hdoes.spares_of_slot (by simp [hm]) (by simp) rfl fun hm' => ?_
    exact ((Metrics.hasMarket_removeMarket d.metrics).mp hm').2
  · rcases (h.market m).working i w hw hm going with hr | ⟨hs, -⟩
    · rcases hop with rfl | rfl <;> cases hr
    · exact absurd hs (inactive i)

/-! ### What concerns all markets -/

/-- **A start**: where no market is tracked, some are registered. -/
theorem registerAll (h : d.InOrder .idle) (none : ∀ m, d.slot? m = none) (ms : List MarketId)
    (c : ℕ) (now : Instant) : (ms.foldl (fun (d : Desk) m => d.register m c)
      { d with metrics := d.metrics.markStarted now }).InOrder .idle := by
  have hdoes := Does.start (d := d) ms c now
  obtain ⟨slots, heq⟩ := registerAll_eq { d with metrics := d.metrics.markStarted now } ms c
  generalize ms.foldl _ _ = d' at hdoes heq ⊢
  have hslot : ∀ m, d'.slot? m =
      if m ∈ ms then some (.initializing (.ofCapacity c)) else .none := by
    intro m
    rw [hdoes.slot? m, none m]
    rfl
  have hactive : ∀ m i, d'.slot? m ≠ some (.active i) := by
    intro m i hi
    rw [hslot] at hi
    split at hi <;> cases hi
  refine ⟨hdoes.staffed h.staffed, fun m =>
    { adding := by simp
      removing := ?_
      inCharge := fun i hi => ?_
      charged := fun i hi => absurd hi (hactive m i)
      dismissed := by simp
      working := fun i w hw hm going => ?_
      tallied := fun hm => ?_ }⟩
  · rw [phase_eq, hslot]
    split <;> simp [Slot.phase]
  · rw [heq] at hi
    exact absurd (((h.market m).inCharge i hi).symm.trans (none m)) (by simp)
  · rw [heq] at hw
    exact absurd (h.ended_of_inactive (by simp) (by simp [none m]) hw hm) going
  · rw [heq] at hm
    exact absurd (phase_of_none (none m)) ((h.market m).tallied hm)

/-- All workers are dismissed. -/
theorem dismiss (h : d.InOrder .idle) : d.dismiss.1.InOrder (.dismissing d.dismiss.2) := by
  refine ⟨h.staffed, fun m =>
    { adding := by simp
      removing := (h.market m).removing.trans (by simp)
      inCharge := by simp [Desk.dismiss]
      charged := by simp
      dismissed := fun _ _ => rfl
      working := fun i w hw hm going => .inr ?_
      tallied := (h.market m).tallied }⟩
  rcases (h.market m).working i w hw hm going with hop | ⟨hs, -⟩
  · cases hop
  · refine ⟨hs, fun ws hws => ?_⟩
    rcases (h.market m).charged i hs with hcharge | ⟨_, hop⟩
    · rw [← Operation.dismissing.inj hws]
      exact List.mem_map_of_mem (Table.mem_entries_of_get? hcharge)
    · cases hop

/-- One of the workers that were dismissed has ended. -/
theorem drain {ws : List ℕ} (h : d.InOrder (.dismissing (i :: ws))) (ended : d.hasEnded i = true) :
    d.InOrder (.dismissing ws) := by
  refine ⟨h.staffed, fun m =>
    { adding := by simp
      removing := (h.market m).removing.trans (by simp)
      inCharge := (h.market m).inCharge
      charged := by simp
      dismissed := fun _ _ => (h.market m).dismissed _ rfl
      working := fun j w hw hm going => .inr ?_
      tallied := (h.market m).tallied }⟩
  rcases (h.market m).working j w hw hm going with hop | ⟨hs, hmem⟩
  · cases hop
  · refine ⟨hs, fun ws' hws => ?_⟩
    obtain rfl := Operation.dismissing.inj hws
    rcases List.mem_cons.mp (hmem _ rfl) with rfl | hj
    · rw [hasEnded, hw] at ended
      exact absurd (of_decide_eq_true ended) going
    · exact hj

/-- **The end of a stop**: when all workers have ended, all markets are forgotten. -/
theorem clear (h : d.InOrder (.dismissing [])) : d.clear.InOrder .idle := by
  refine ⟨(Does.clear (d := d)).staffed h.staffed, fun m =>
    { adding := by simp
      removing := by simp [phase_eq, Desk.clear, slot?]
      inCharge := fun i hi => ?_
      charged := by simp [Desk.clear, slot?]
      dismissed := by simp
      working := fun i w hw hm going => ?_
      tallied := fun hm => ?_ }⟩
  · exact absurd (((h.market m).dismissed [] rfl).symm.trans hi) (by simp)
  · rcases (h.market m).working i w hw hm going with hop | ⟨-, hmem⟩
    · cases hop
    · exact absurd (hmem [] rfl) (by simp)
  · -- who had a tally had a slot, and was forgotten with it
    obtain ⟨hkeys, hhas⟩ := (Metrics.hasMarket_removeAll d.metrics d.slots.keys).mp hm
    cases hs : d.slot? m with
    | none => exact absurd (phase_of_none hs) ((h.market m).tallied hhas)
    | some x =>
      obtain ⟨s, hget, -⟩ := exists_of_slot? hs
      exact absurd (List.mem_map_of_mem (Table.mem_entries_of_get? hget)) hkeys

end InOrder

/-! ### Turns -/

theorem next_of_update {p : Phase} (h : ∀ m, d'.phase m = if m' = m then p else d.phase m)
    (next : (d.phase m').Next p) (m : MarketId) :
    d'.phase m = d.phase m ∨ (d.phase m).Next (d'.phase m) := by
  rw [h m]
  split
  next hm => exact .inr (hm ▸ next)
  next => exact .inl rfl

/-- **The turns of whoever has the lock**, from one thing under way to the next. -/
inductive Turn (d : Desk) : Operation → Operation → Desk → Prop where
  | rest {op : Operation} {d' : Desk} (quiet : d.Quiet d') : Turn d op op d'
  | register {m : MarketId} (c : ℕ) (new : d.slot? m = none) :
      Turn d .idle (.adding m) (d.register m c)
  | activate {m : MarketId} {s : Snapshot} {run : ℕ} {isCancelled : Bool} {window : ℕ} {d' : Desk}
      (h : d.activate m s run isCancelled window = .ok d') : Turn d (.adding m) .idle d'
  | withdraw (m : MarketId) : Turn d (.adding m) .idle (d.discard m)
  | retire {m : MarketId} {i : ℕ} (active : d.slot? m = some (.active i)) :
      Turn d .idle (.removing m (some i)) ((d.retire m).1.cancel i)
  | ended {m : MarketId} {i : ℕ} (ended : d.hasEnded i = true) :
      Turn d (.removing m (some i)) (.removing m none) d
  | forget (m : MarketId) : Turn d (.removing m none) .idle (d.discard m)
  | dismiss (i : ℕ) : Turn d .idle (.dismissing d.dismiss.2) (d.dismiss.1.cancel i)
  | drain {i : ℕ} {ws : List ℕ} (ended : d.hasEnded i = true) (j : ℕ) :
      Turn d (.dismissing (i :: ws)) (.dismissing ws) (d.cancel j)

namespace Turn

/-- **Every turn keeps the order.** -/
theorem inOrder (turn : d.Turn op op' d') (h : d.InOrder op) : d'.InOrder op' := by
  cases turn with
  | rest quiet => exact h.quiet quiet
  | register c new => exact h.register new c
  | activate hd => exact h.activate (.inr rfl) hd
  | withdraw m => exact h.discard (.inl rfl)
  | retire active => exact (h.retire active).quiet (quiet_cancel _ _)
  | ended ended => exact h.ended ended
  | forget m => exact h.discard (.inr rfl)
  | dismiss i => exact h.dismiss.quiet (quiet_cancel _ i)
  | drain ended j => exact (h.drain ended).quiet (quiet_cancel _ j)

/-- **No turn moves a market by more than one step.** -/
theorem phase (turn : d.Turn op op' d') (h : d.InOrder op) (m : MarketId) :
    d'.phase m = d.phase m ∨ (d.phase m).Next (d'.phase m) := by
  cases turn with
  | rest quiet => exact .inl (quiet.spares m).phase
  | @register m' c new =>
    have hp : d.phase m' = .unregistered := phase_of_none new
    exact next_of_update (phase_register d m' · c) (hp ▸ .registered) m
  | @activate m' _ _ _ _ _ hd =>
    have hp : d.phase m' = .initializing := (h.market m').adding rfl
    exact next_of_update (phase_activate hd) (hp ▸ .activated) m
  | withdraw m' =>
    have hp : d.phase m' = .initializing := (h.market m').adding rfl
    exact next_of_update (phase_discard d m') (hp ▸ .withdrawn) m
  | @retire m' i active =>
    have hp : d.phase m' = .active := phase_of_slot active
    rw [((quiet_cancel (d.retire m').1 i).spares m).phase]
    exact next_of_update (phase_retire active) (hp ▸ .retired) m
  | ended => exact .inl rfl
  | forget m' =>
    have hp : d.phase m' = .removed := (h.market m').removing.mpr ⟨_, rfl⟩
    exact next_of_update (phase_discard d m') (hp ▸ .forgotten) m
  | dismiss i => exact .inl ((quiet_cancel d.dismiss.1 i).spares m).phase
  | drain ended j => exact .inl ((quiet_cancel d j).spares m).phase

/-- **A market that waits for its book** goes on to wait, unless it is the one that is being
added. -/
theorem waits (turn : d.Turn op op' d') (h : d.InOrder op) (hm : d.phase m = .initializing)
    (hop : op ≠ .adding m) : d'.phase m = .initializing ∧ op' ≠ .adding m := by
  cases turn with
  | rest quiet => exact ⟨(quiet.spares m).phase.trans hm, hop⟩
  | @register m' c new =>
    have hne : m' ≠ m := by
      rintro rfl
      exact absurd (hm.symm.trans (phase_of_none new)) (by simp)
    exact ⟨by rw [phase_register, if_neg hne, hm], by simpa using hne⟩
  | @activate m' _ _ _ _ _ hd =>
    have hne : m' ≠ m := by simpa using hop
    exact ⟨by rw [phase_activate hd, if_neg hne, hm], by simp⟩
  | withdraw m' =>
    have hne : m' ≠ m := by simpa using hop
    exact ⟨by rw [phase_discard, if_neg hne, hm], by simp⟩
  | @retire m' i active =>
    have hne : m' ≠ m := by
      rintro rfl
      exact absurd (hm.symm.trans (phase_of_slot active)) (by simp [Slot.phase])
    rw [((quiet_cancel (d.retire m').1 i).spares m).phase, phase_retire active, if_neg hne]
    exact ⟨hm, by simp⟩
  | ended => exact ⟨hm, by simp⟩
  | forget m' =>
    have hne : m' ≠ m := by
      rintro rfl
      exact absurd (hm.symm.trans ((h.market m').removing.mpr ⟨_, rfl⟩)) (by simp)
    exact ⟨by rw [phase_discard, if_neg hne, hm], by simp⟩
  | dismiss i => exact ⟨((quiet_cancel d.dismiss.1 i).spares m).phase.trans hm, by simp⟩
  | drain ended j => exact ⟨((quiet_cancel d j).spares m).phase.trans hm, by simp⟩

/-- **Where no market is tracked**, none is after a turn that does not begin to add one. -/
theorem untracked (turn : d.Turn op op' d') (h : d.InOrder op)
    (hop : ∀ m, op' = .adding m → op = .adding m) (hd : ∀ m, d.phase m = .unregistered)
    (m : MarketId) : d'.phase m = .unregistered := by
  cases turn with
  | rest quiet => exact (quiet.spares m).phase.trans (hd m)
  | register c new => cases hop _ rfl
  | @activate m' => exact absurd ((hd m').symm.trans ((h.market m').adding rfl)) (by simp)
  | withdraw m' => exact absurd ((hd m').symm.trans ((h.market m').adding rfl)) (by simp)
  | @retire m' i active =>
    exact absurd ((hd m').symm.trans (phase_of_slot active)) (by simp [Slot.phase])
  | ended => exact hd m
  | forget m' =>
    exact absurd ((hd m').symm.trans ((h.market m').removing.mpr ⟨_, rfl⟩)) (by simp)
  | dismiss i => exact ((quiet_cancel d.dismiss.1 i).spares m).phase.trans (hd m)
  | drain ended j => exact ((quiet_cancel d j).spares m).phase.trans (hd m)

end Turn

end Desk

end LiveBook
