import Mathlib.Data.Option.Basic
import LiveBook.Proofs.Replay.Application

/-!
# The order of a performance

A performance fixes one order in which everything happens. Each of its steps is one of those that
can happen next: what a rehearsal does comes of some cues (`LiveBook.Rehearsal.cued_busy?`), and
time passes only forwards. So whatever holds of all that can happen holds of the performance, up to
its end (`LiveBook.Performance.reaches_complete`).
-/

namespace LiveBook

/-! ### A rehearsal and its cues -/

/-- What a replay delivers is the next event of some stream. -/
theorem ReplaySource.exists_forward?_of_act? {s s' : ReplaySource} {run : ℕ} {e : Event}
    (h : s.act? = some (.deliver run e, s')) : ∃ st, s.forward? st = some (.deliver run e, s') := by
  unfold act? at h
  split at h
  · cases h
  · cases hfinish : s.finish? with
    | some o =>
      -- the end of the feed delivers nothing
      rw [hfinish] at h
      obtain rfl := Option.some.inj h
      unfold finish? at hfinish
      split at hfinish
      · split at hfinish <;> cases hfinish
      · cases hfinish
    | none =>
      rw [hfinish] at h
      obtain ⟨st, -, hst⟩ := List.exists_of_findSome?_eq_some h
      exact ⟨st, hst⟩

namespace Rehearsal

variable {r : Rehearsal ReplaySource} {o o' : Option (Rehearsal ReplaySource)}

/-- Whatever comes of it comes of some cues. -/
def Cued (r : Rehearsal ReplaySource) (o : Option (Rehearsal ReplaySource)) : Prop :=
  ∀ r', o = some r' → ∃ cs, r.performAll? cs = some r'

theorem cued_none : r.Cued none := fun _ h => by cases h

theorem cued_perform? (r : Rehearsal ReplaySource) (c : Cue) : r.Cued (r.perform? c) := by
  intro r' h
  refine ⟨[c], ?_⟩
  rw [performAll?, h]
  rfl

theorem cued_orElse (h : r.Cued o) (h' : r.Cued o') : r.Cued (o <|> o') := by
  cases o with
  | none => exact h'
  | some r₁ => exact h

theorem cued_findSome? {α : Type} {f : α → Option (Rehearsal ReplaySource)}
    (h : ∀ a, r.Cued (f a)) (as : List α) : r.Cued (as.findSome? f) := by
  intro r' hr
  obtain ⟨a, -, ha⟩ := List.exists_of_findSome?_eq_some hr
  exact h a r' ha

theorem cued_bind {c : Cue} {f : Rehearsal ReplaySource → Option (Rehearsal ReplaySource)}
    (h : ∀ r₁, r.perform? c = some r₁ → r₁.Cued (f r₁)) : r.Cued ((r.perform? c).bind f) := by
  intro r' hr
  obtain ⟨r₁, hfirst, hrest⟩ := Option.bind_eq_some_iff.mp hr
  obtain ⟨cs, hcs⟩ := h r₁ hfirst r' hrest
  refine ⟨c :: cs, ?_⟩
  rw [performAll?, hfirst]
  exact hcs

/-- Somebody goes on. -/
theorem cued_goOn (r : Rehearsal ReplaySource) (a : Actor) :
    r.Cued (r.goOn ReplaySource.model a) := by
  have hproceed : r.Cued (r.take ReplaySource.model (.proceed a)) := r.cued_perform? (.proceed a)
  have hhear := r.cued_perform? (.hear a)
  rw [perform?] at hhear
  rw [goOn, ReplaySource.model]
  dsimp only
  cases hanswer : r.source.answer? a with
  | none => exact hproceed
  | some x =>
    rw [hanswer] at hhear
    exact cued_orElse hhear hproceed

theorem cued_goOnRefresh (r : Rehearsal ReplaySource) (run : ℕ) :
    r.Cued (r.goOnRefresh ReplaySource.model run) :=
  cued_bind (c := .pass 0 1) fun r₁ _ => r₁.cued_goOn (.refresh run)

/-- The replay acts by itself: what it delivers is the next event of some stream. -/
theorem cued_sourceActs (r : Rehearsal ReplaySource) :
    r.Cued (r.sourceActs ReplaySource.model) := by
  have hhangUp := r.cued_perform? .hangUp
  rw [perform?] at hhangUp
  rw [sourceActs, ReplaySource.model]
  dsimp only
  cases hact : r.source.act? with
  | none => exact cued_none
  | some x =>
    obtain ⟨act, s⟩ := x
    rw [hact] at hhangUp
    cases act with
    | hangUp run l error? => exact hhangUp
    | deliver run e =>
      obtain ⟨st, hst⟩ := ReplaySource.exists_forward?_of_act? hact
      have hdeliver := r.cued_perform? (.deliver st)
      rw [perform?, hst] at hdeliver
      exact hdeliver

theorem cued_sourceTurns (r : Rehearsal ReplaySource) (isIdle : Bool) :
    r.Cued (r.sourceTurns ReplaySource.model isIdle) := by
  have hturn := r.cued_perform? .turn
  rw [perform?] at hturn
  rw [sourceTurns, ReplaySource.model]
  dsimp only
  unfold ReplaySource.turn?
  dsimp only
  split
  · rw [Option.map_map]
    exact hturn
  · exact cued_none

/-- **Whatever a rehearsal does next** comes of some cues. -/
theorem cued_busy? (r : Rehearsal ReplaySource) : r.Cued (r.busy? ReplaySource.model) := by
  have hsteps {α : Type} (f : α → Cue) (as : List α) :
      r.Cued (as.findSome? fun a => r.perform? (f a)) :=
    cued_findSome? (fun a => r.cued_perform? (f a)) as
  refine cued_orElse (hsteps .quit _) ?_
  refine cued_orElse (cued_findSome? (fun run => hsteps (.proceed <| .listener run ·) _) _) ?_
  refine cued_orElse r.cued_sourceActs ?_
  refine cued_orElse (cued_findSome? (fun run => hsteps (.proceed <| .router run ·) _) _) ?_
  refine cued_orElse (cued_findSome? (fun run => r.cued_goOn (.startup run)) _) ?_
  refine cued_orElse (cued_findSome? (fun run => r.cued_goOnRefresh run) _) ?_
  refine cued_orElse (r.cued_sourceTurns false) ?_
  refine cued_orElse (cued_findSome? (fun i => r.cued_goOn (.request i)) _) ?_
  exact hsteps (.proceed <| .worker ·) _

end Rehearsal

/-! ### A performance -/

namespace Performance

variable {p p' : Performance}

/-- The tracker and the replay go on. -/
theorem plays_of_cued {o : Option (Rehearsal ReplaySource)} (h : p.rehearsal.Cued o)
    (hp : o.map p.follow = some p') : p.Plays p' := by
  obtain ⟨r, hr, rfl⟩ := Option.map_eq_some_iff.mp hp
  obtain ⟨cs, hcs⟩ := h r hr
  exact .follows hcs

theorem plays_shutdown? (h : p.shutdown? = some p') : p.Plays p' := by
  unfold shutdown? at h
  split at h
  · split at h
    · exact .takes (l := .shutdown) trivial h
    · cases h
  · cases h

/-- **What happens next** is among what can happen. -/
theorem plays_next? (h : p.next? = some p') : p.Plays p' := by
  unfold next? at h
  rcases (Option.orElse_eq_some _ _ _).mp h with h | ⟨-, h⟩
  · exact plays_of_cued p.rehearsal.cued_busy? h
  rcases (Option.orElse_eq_some _ _ _).mp h with h | ⟨-, h⟩
  · exact plays_shutdown? h
  rcases (Option.orElse_eq_some _ _ _).mp h with h | ⟨-, h⟩
  · obtain ⟨l, hl, hp⟩ := List.exists_of_findSome?_eq_some h
    have own : l.IsOwn := by
      simp only [ownLabels, List.mem_cons, List.not_mem_nil, or_false] at hl
      rcases hl with rfl | rfl | rfl | rfl | rfl | rfl | rfl | rfl | rfl <;> trivial
    exact .takes own hp
  · exact plays_of_cued (p.rehearsal.cued_sourceTurns true) h

theorem reaches_settle (fuel : ℕ) (p : Performance) : p.Reaches (p.settle fuel) := by
  induction fuel generalizing p with
  | zero => exact .refl
  | succ fuel ih =>
    rw [settle]
    split
    next p' hnext => exact .head (plays_next? hnext) (ih p')
    next => exact .refl

/-- What is due next is due later than now. -/
theorem clock_lt_of_nextDue? {due : ℕ} (h : p.nextDue? = some due) : p.app.tracker.clock < due := by
  rcases List.mem_append.mp (List.min?_mem h) with hdue | hdue
  · exact of_decide_eq_true (List.mem_filter.mp hdue).2
  · exact of_decide_eq_true (List.mem_filter.mp hdue).2

theorem reaches_completeFor (fuel : ℕ) (p : Performance) : p.Reaches (p.completeFor fuel) := by
  induction fuel generalizing p with
  | zero => exact .refl
  | succ fuel ih =>
    have hsettle := p.reaches_settle Rehearsal.patience
    rw [completeFor]
    split
    · exact hsettle
    · split
      next due hdue =>
        have hmove := Plays.passes (clock_lt_of_nextDue? hdue).le
        exact (hsettle.tail hmove).trans (ih _)
      next => exact hsettle

/-- **A performance, up to its end,** is among what can happen. -/
theorem reaches_complete (p : Performance) : p.Reaches p.complete :=
  p.reaches_completeFor Rehearsal.patience

end Performance

end LiveBook
