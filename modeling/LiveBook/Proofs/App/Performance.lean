import LiveBook.Proofs.App.Rules
import LiveBook.Proofs.Replay.Precedence
import LiveBook.Proofs.Text.Reading

/-!
# A performance as a course of its application

A performance fixes one order in which the application, its tracker and a replay go on. Whatever it
does are steps that the application can take (`LiveBook.Performance.exists_course_of_reaches`). So
what holds in every course of an application holds of a performance, up to its end
(`LiveBook.Performance.exists_course_complete`).
-/

namespace LiveBook

/-! ### The steps of the tracker -/

namespace Application

/-- A course leads to this tracker, and changes nothing else. -/
def Leads (a : Application) (t : Tracker) : Prop := ∃ xs, Course a xs { a with tracker := t }

theorem leads_tracker (a : Application) : a.Leads a.tracker := ⟨[], .nil⟩

variable {a : Application} {t t' : Tracker} {l : Tracker.Label} {fx : List TrackerEffect}

theorem Leads.step (h : a.Leads t) (hstep : t.step l = some (t', fx)) : a.Leads t' := by
  obtain ⟨xs, hcourse⟩ := h
  let x : Moment :=
    { before := { a with tracker := t }
      label := .tracker l
      effects := fx.map .tracker
      after := { a with tracker := t' }
      step := by
        rw [Application.step, hstep]
        rfl }
  exact ⟨xs ++ [x], hcourse.append (.one x)⟩

end Application

namespace Rehearsal

variable {a : Application} {r r' : Rehearsal ReplaySource} {l : Tracker.Label} {c : Cue}

theorem leads_of_take (h : a.Leads r.tracker) (hr : r.take ReplaySource.model l = some r') :
    a.Leads r'.tracker := by
  unfold take at hr
  split at hr
  · cases hr
  next t fx hstep =>
    obtain rfl := Option.some.inj hr
    exact h.step hstep

/-- **What comes of a cue** are steps of the tracker. -/
theorem leads_of_perform? (h : a.Leads r.tracker) (hr : r.perform? c = some r') :
    a.Leads r'.tracker := by
  cases c with
  | proceed a => exact leads_of_take (l := .proceed a) h hr
  | quit a => exact leads_of_take (l := .quit a) h hr
  | pass millis nanos => exact leads_of_take (l := .pass millis nanos) h hr
  | hear =>
    rw [perform?] at hr
    split at hr
    next answer s _ => exact leads_of_take (r := { r with source := s }) h hr
    · cases hr
  | deliver =>
    rw [perform?] at hr
    split at hr
    next run e s _ => exact leads_of_take (r := { r with source := s }) h hr
    · cases hr
  | hangUp =>
    rw [perform?] at hr
    split at hr
    next run li error? s _ => exact leads_of_take (r := { r with source := s }) h hr
    · cases hr
  | turn =>
    obtain ⟨replay, -, rfl⟩ := Option.map_eq_some_iff.mp hr
    exact h

theorem leads_of_performAll? {cs : List Cue} (h : a.Leads r.tracker)
    (hr : r.performAll? cs = some r') : a.Leads r'.tracker := by
  induction cs generalizing r with
  | nil =>
    obtain rfl := Option.some.inj hr
    exact h
  | cons c cs ih =>
    obtain ⟨r₁, hfirst, hrest⟩ := Option.bind_eq_some_iff.mp hr
    exact ih (leads_of_perform? h hfirst) hrest

end Rehearsal

/-! ### The steps of a performance -/

namespace Performance

variable {p p' : Performance}

/-- The end of the feed may be noted. -/
theorem exists_course_noteEnd (p : Performance) :
    ∃ xs, Application.Course p.app xs p.noteEnd.app := by
  unfold noteEnd
  split
  · exact ⟨_, .one ⟨p.app, .replayed, [], { p.app with isReplayed := true }, rfl⟩⟩
  · exact ⟨[], .nil⟩

theorem exists_course_of_take {l : Application.Label} (h : p.take l = some p') :
    ∃ xs, Application.Course p.app xs p'.app := by
  obtain ⟨⟨app, es⟩, hstep, rfl⟩ := Option.map_eq_some_iff.mp h
  exact ⟨_, .one ⟨p.app, l, es, app, hstep⟩⟩

/-- **Whatever can happen** to a performance are steps of its application. -/
theorem exists_course_of_plays (h : p.Plays p') : ∃ xs, Application.Course p.app xs p'.app := by
  cases h with
  | @follows cs r hr =>
    obtain ⟨xs, hcourse⟩ := Rehearsal.leads_of_performAll? p.app.leads_tracker hr
    obtain ⟨ys, hnote⟩ := exists_course_noteEnd
      ({ p with app := { p.app with tracker := r.tracker }, source := r.source }.note
        (r.seen.reverse.map .tracker))
    exact ⟨xs ++ ys, hcourse.append hnote⟩
  | takes own hp => exact exists_course_of_take hp
  | @passes time later =>
    have hclock : p.app.tracker.clock + (time - p.app.tracker.clock) = time := by omega
    have hpass : p.app.tracker.step (.pass (time - p.app.tracker.clock) 0) =
        some ({ p.app.tracker with clock := time }, []) := by
      simp [Tracker.step, hclock]
    exact p.app.leads_tracker.step hpass

/-- **A performance** goes on in the steps of its application. -/
theorem exists_course_of_reaches (h : p.Reaches p') :
    ∃ xs, Application.Course p.app xs p'.app := by
  induction h with
  | refl => exact ⟨[], .nil⟩
  | tail _ last ih =>
    obtain ⟨xs, hcourse⟩ := ih
    obtain ⟨ys, hlast⟩ := exists_course_of_plays last
    exact ⟨xs ++ ys, hcourse.append hlast⟩

/-- A shutdown that was asked for before is seen at once, if it can be. -/
theorem exists_course_shutdown (p : Performance) : ∃ xs, Application.Course p.app xs
    (((p.take .shutdown).bind fun p => p.take .interrupt).getD p).app := by
  cases hfirst : p.take .shutdown with
  | none => exact ⟨[], .nil⟩
  | some p₁ =>
    rw [Option.bind_some]
    cases hsecond : p₁.take .interrupt with
    | none => exact ⟨[], .nil⟩
    | some p₂ =>
      obtain ⟨xs, hcourse⟩ := exists_course_of_take hfirst
      obtain ⟨ys, hlast⟩ := exists_course_of_take hsecond
      exact ⟨xs ++ ys, hcourse.append hlast⟩

/-- **A performance that begins** has just started its application. -/
theorem exists_course_begin {config : AppConfig} {feed : Feed} {shutdownAt : Option ℕ}
    (h : begin config feed shutdownAt = .ok p) : ∃ t a₀ xs,
      Application.start config t = .ok a₀ ∧ Application.Course a₀ xs p.app := by
  obtain ⟨t, -, h⟩ := bind_eq_ok.mp h
  obtain ⟨a₀, hstart, h⟩ := bind_eq_ok.mp h
  refine ⟨t, a₀, ?_⟩
  dsimp only at h
  split at h
  · obtain rfl := Except.ok.inj h
    obtain ⟨xs, hcourse⟩ := exists_course_shutdown ⟨a₀, _, shutdownAt, []⟩
    exact ⟨xs, hstart, hcourse⟩
  · obtain rfl := Except.ok.inj h
    exact ⟨[], hstart, .nil⟩

/-- **A performance, up to its end,** is a course of its application. -/
theorem exists_course_complete {config : AppConfig} {feed : Feed} {shutdownAt : Option ℕ}
    (h : begin config feed shutdownAt = .ok p) : ∃ t a₀ xs,
      Application.start config t = .ok a₀ ∧ Application.Course a₀ xs p.complete.app := by
  obtain ⟨t, a₀, xs, hstart, hbegin⟩ := exists_course_begin h
  obtain ⟨ys, hrest⟩ := exists_course_of_reaches p.reaches_complete
  exact ⟨t, a₀, xs ++ ys, hstart, hbegin.append hrest⟩

end Performance

end LiveBook
