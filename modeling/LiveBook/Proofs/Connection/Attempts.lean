import LiveBook.Proofs.Connection.Rules

/-!
# What attempts come to

A running call attempts to connect again and again, and shows how many attempts have come to
nothing since it was last connected. It gives up when there were too many of them in a row.

A connection that was open and is lost counts as an attempt that has come to nothing, too. So what
is shown is the number of attempts that have failed only as long as the last connection that opened
is not lost, and a call can give up after fewer failures than it may have, even after none. And a
new call begins to count afresh.

* `LiveBook.Connection.fates` – what has become of attempts and connections;
* `LiveBook.Connection.Setbacks` – how the running call counts;
* `LiveBook.Connection.counted_of_course` – what is shown after any run, and when a call gives up;
* `LiveBook.Connection.attempts_eq_failures_add` – the same by the number of failures, for one
  call;
* `LiveBook.Connection.gives_up_without_failure` – a call that gives up when nothing has failed.
-/

namespace LiveBook.Connection

variable {d : Dialect} {c c' : Connection} {n k : ℕ}

/-! ### Fates -/

/-- What can become of the attempts of a connection. -/
inductive Fate where
  /-- Somebody calls to run it. -/
  | called
  /-- An attempt to connect fails. -/
  | failed
  /-- An attempt to connect succeeds. -/
  | opened
  /-- The connection was open, and is lost. -/
  | lost
deriving DecidableEq, Repr

/-- What becomes of an attempt at a moment. -/
def Moment.fate? (x : Moment d) : Option Fate :=
  match x.label with
  | .call => some .called
  | .abandon => none
  | .refused => some .failed
  | .accepted => some .opened
  | _ => if x.before.stage.IsOpen ∧ ¬x.after.stage.IsOpen then some .lost else none

/-- What has become of all attempts, in order. -/
def fates (xs : List (Moment d)) : List Fate := xs.filterMap Moment.fate?

/-- What has become of attempts since the last that has succeeded. -/
def sinceOpened (fs : List Fate) : List Fate := fs.rtakeWhile (· ≠ .opened)

/-- How many attempts have failed since the last that has succeeded. -/
def failures (fs : List Fate) : ℕ := (sinceOpened fs).count .failed

/-- Whether the connection that was opened last is lost, as a number. -/
def losses (fs : List Fate) : ℕ := (sinceOpened fs).count .lost

theorem sinceOpened_append {older fs : List Fate} (h : .opened ∉ fs) :
    sinceOpened (older ++ .opened :: fs) = fs := by
  induction fs using List.reverseRecOn with
  | nil => exact List.rtakeWhile_concat_neg _ _ _ (by decide)
  | append_singleton fs f ih =>
    rw [List.mem_append, not_or, List.mem_singleton] at h
    obtain ⟨hfs, hf⟩ := h
    rw [← List.cons_append, ← List.append_assoc, sinceOpened,
      List.rtakeWhile_concat_pos _ _ _ (by simpa using Ne.symm hf)]
    exact congrArg (· ++ [f]) (ih hfs)

theorem sinceOpened_eq_self {fs : List Fate} (h : .opened ∉ fs) : sinceOpened fs = fs := by
  rw [sinceOpened, List.rtakeWhile_eq_self_iff]
  intro f hf
  have : f ≠ .opened := fun he => h (he ▸ hf)
  simpa using this

/-! ### How a running call counts -/

/-- **So many setbacks in a row**, since the call or since a connection was last open. That this
connection was lost is one of them. -/
inductive Setbacks : List Fate → ℕ → Prop where
  | called (fs : List Fate) : Setbacks (fs ++ [.called]) 0
  | opened (fs : List Fate) : Setbacks (fs ++ [.opened]) 0
  | lost (fs : List Fate) : Setbacks (fs ++ [.opened, .lost]) 1
  | failed {fs : List Fate} {n : ℕ} (before : Setbacks fs n) : Setbacks (fs ++ [.failed]) (n + 1)

/-- What setbacks in a row are: failures, all but the first or all. -/
theorem Setbacks.split {fs : List Fate} (h : Setbacks fs n) :
    (∃ older, fs = older ++ .called :: List.replicate n .failed) ∨
    (∃ older, fs = older ++ .opened :: List.replicate n .failed) ∨
    (∃ older k, n = k + 1 ∧ fs = older ++ .opened :: .lost :: List.replicate k .failed) := by
  induction h with
  | called fs => exact .inl ⟨fs, rfl⟩
  | opened fs => exact .inr (.inl ⟨fs, rfl⟩)
  | lost fs => exact .inr (.inr ⟨fs, 0, rfl, rfl⟩)
  | failed _ ih =>
    rcases ih with ⟨older, rfl⟩ | ⟨older, rfl⟩ | ⟨older, k, rfl, rfl⟩
    · exact .inl ⟨older, by simp [List.replicate_succ']⟩
    · exact .inr (.inl ⟨older, by simp [List.replicate_succ']⟩)
    · exact .inr (.inr ⟨older, k + 1, rfl, by simp [List.replicate_succ']⟩)

/-- **What is shown**: the setbacks in a row when somebody last called. -/
def Shows (fs : List Fate) (n : ℕ) : Prop :=
  ∃ older k, fs = older ++ List.replicate k .called ∧ (older = [] ∧ n = 0 ∨ Setbacks older n)

theorem Setbacks.shows {fs : List Fate} (h : Setbacks fs n) : Shows fs n :=
  ⟨fs, 0, by simp, .inr h⟩

theorem Shows.called {fs : List Fate} (h : Shows fs n) : Shows (fs ++ [.called]) n := by
  obtain ⟨older, k, rfl, hs⟩ := h
  exact ⟨older, k + 1, by simp [List.replicate_succ'], hs⟩

/-- The attempts in a row that the running call takes to have come to nothing, while it is not
connected. -/
def Stage.failed? : Stage → Option ℕ
  | .opening failed | .waiting failed _ => some failed
  | _ => none

theorem Stage.IsOpen.failed? {s : Stage} (h : s.IsOpen) : s.failed? = none := by
  cases s <;> first | rfl | exact absurd h id

theorem Stage.IsOpen.ne_ended {s : Stage} (h : s.IsOpen) {e : Option SourceError} {time : ℕ} :
    s ≠ .ended e time := by
  rintro rfl
  exact h

/-- **What a connection knows of its attempts.** The first of all is a call; the running call counts
setbacks, fewer than it may have; a connection that is open has opened last; what is shown are the
setbacks, unless a shutdown was asked for; and whoever has given up has had as many of them as it
may have. -/
structure Counted (fs : List Fate) (c : Connection) : Prop where
  begun : (fs = [] ∧ c.stage = .idle) ∨ ∃ rest, fs = .called :: rest
  row : ∀ k, c.stage.failed? = some k →
    Setbacks fs k ∧ (0 < c.config.maxAttempts → k < c.config.maxAttempts)
  last : c.stage.IsOpen → ∃ older, fs = older ++ [.opened]
  shown : c.stopping = false → Shows fs c.attempts
  exhausted : ∀ n time, c.stage = .ended (some (.reconnectExhausted n)) time →
    n = c.config.maxAttempts ∧ 0 < n ∧ Setbacks fs n

namespace Counted

variable {fs : List Fate}

/-- The same stage. -/
theorem same (h : Counted fs c) (hstage : c'.stage = c.stage) (hconfig : c'.config = c.config)
    (hattempts : c'.attempts = c.attempts) (hstopping : c'.stopping = false → c.stopping = false) :
    Counted fs c' where
  begun := hstage ▸ h.begun
  row k hk := hconfig ▸ h.row k (hstage ▸ hk)
  last ho := h.last (hstage ▸ ho)
  shown hs := hattempts ▸ h.shown (hstopping hs)
  exhausted n time he := hconfig ▸ h.exhausted n time (hstage ▸ he)

/-- A stage at which the call is connected. -/
theorem of_isOpen (hopen : c.stage.IsOpen) (hbegun : ∃ rest, fs = .called :: rest)
    (hlast : ∃ older, fs = older ++ [.opened]) (hshown : c.stopping = false → Shows fs c.attempts) :
    Counted fs c where
  begun := .inr hbegun
  row k hk := by rw [hopen.failed?] at hk; cases hk
  last _ := hlast
  shown := hshown
  exhausted n time he := absurd he hopen.ne_ended

/-- The first of all was a call, if a call has begun. -/
theorem called (h : Counted fs c) (hidle : c.stage ≠ .idle) : ∃ rest, fs = .called :: rest :=
  h.begun.resolve_left fun hb => hidle hb.2

theorem append_called {f : Fate} (h : ∃ rest, fs = .called :: rest) :
    ∃ rest, fs ++ [f] = .called :: rest := by
  obtain ⟨rest, rfl⟩ := h
  exact ⟨rest ++ [f], rfl⟩

/-- An attempt that begins. -/
theorem attempt (hbegun : ∃ rest, fs = .called :: rest) (hrow : Setbacks fs k)
    (hbelow : 0 < c.config.maxAttempts → k < c.config.maxAttempts)
    (hshown : c.stopping = false → Shows fs c.attempts) : Counted fs (c.attempt k) := by
  rcases attempt_cases c k with ⟨hstop, h⟩ | ⟨hstop, h⟩
  all_goals rw [h]
  · exact ⟨.inr hbegun, nofun, nofun, fun hs => absurd (hs.symm.trans hstop) nofun, nofun⟩
  · refine ⟨.inr hbegun, fun k' hk => ?_, nofun, hshown, nofun⟩
    obtain rfl : k = k' := Option.some.inj hk
    exact ⟨hrow, hbelow⟩

/-- A setback. -/
theorem retreat (hbegun : ∃ rest, fs = .called :: rest) (hrow : Setbacks fs (k + 1))
    (hbelow : 0 < c.config.maxAttempts → k < c.config.maxAttempts) :
    Counted fs (c.retreat k) := by
  rcases retreat_cases c k with ⟨hstop, h⟩ | ⟨-, hpos, hmax, h⟩ | ⟨-, hmore, h⟩
  all_goals rw [h]
  · exact ⟨.inr hbegun, nofun, nofun, fun hs => absurd (hs.symm.trans hstop) nofun, nofun⟩
  · refine ⟨.inr hbegun, nofun, nofun, fun _ => hrow.shows, fun n time he => ?_⟩
    obtain rfl : k + 1 = n := by
      simp only [finish, Stage.ended.injEq, Option.some.injEq,
        SourceError.reconnectExhausted.injEq] at he
      exact he.1
    have hk : k + 1 = c.config.maxAttempts := le_antisymm (hbelow hpos) hmax
    exact ⟨hk, Nat.succ_pos k, hrow⟩
  · refine ⟨.inr hbegun, fun k' hk => ?_, nofun, fun _ => hrow.shows, nofun⟩
    obtain rfl : k + 1 = k' := Option.some.inj hk
    exact ⟨hrow, hmore⟩

/-- The connection is lost. -/
theorem lose (h : Counted fs c) (hopen : c.stage.IsOpen) : Counted (fs ++ [.lost]) c.lose := by
  have hidle : c.stage ≠ .idle := by
    intro hs
    rw [hs] at hopen
    exact hopen
  refine retreat (append_called (h.called hidle)) ?_ id
  obtain ⟨older, rfl⟩ := h.last hopen
  rw [List.append_assoc]
  exact .lost older

end Counted

/-! ### One moment -/

theorem fates_snoc (xs : List (Moment d)) (x : Moment d) :
    fates (xs ++ [x]) = fates xs ++ x.fate?.toList := by
  rw [fates, List.filterMap_append]
  cases h : x.fate? <;> simp [fates, h]

namespace Counted

variable {xs : List (Moment d)} {x : Moment d}

/-- A moment of no consequence for attempts. -/
theorem still (h : Counted (fates xs) x.before) (hfate : x.fate? = none)
    (hstage : x.after.stage = x.before.stage) (hconfig : x.after.config = x.before.config)
    (hattempts : x.after.attempts = x.before.attempts)
    (hstopping : x.after.stopping = false → x.before.stopping = false) :
    Counted (fates (xs ++ [x])) x.after := by
  rw [fates_snoc, hfate, Option.toList_none, List.append_nil]
  exact h.same hstage hconfig hattempts hstopping

/-- A moment of a connection that stays open. -/
theorem busy (h : Counted (fates xs) x.before) (hfate : x.fate? = none)
    (hbefore : x.before.stage.IsOpen) (hafter : x.after.stage.IsOpen)
    (hattempts : x.after.attempts = x.before.attempts)
    (hstopping : x.after.stopping = x.before.stopping) : Counted (fates (xs ++ [x])) x.after := by
  rw [fates_snoc, hfate, Option.toList_none, List.append_nil]
  refine of_isOpen hafter (h.called ?_) (h.last hbefore) fun hs => ?_
  · intro hs
    rw [hs] at hbefore
    exact hbefore
  · rw [hattempts]
    exact h.shown (hstopping ▸ hs)

theorem fate?_eq_none (hlabel : x.label ≠ .call ∧ x.label ≠ .refused ∧ x.label ≠ .accepted)
    (hopen : x.before.stage.IsOpen → x.after.stage.IsOpen) : x.fate? = none := by
  unfold Moment.fate?
  split
  next h => exact absurd h hlabel.1
  next => rfl
  next h => exact absurd h hlabel.2.1
  next h => exact absurd h hlabel.2.2
  next => exact if_neg fun ho => ho.2 (hopen ho.1)

/-- A moment at which the connection is lost. -/
theorem fate?_eq_lost (hlabel : x.label ≠ .call ∧ x.label ≠ .refused ∧ x.label ≠ .accepted)
    (habandon : x.label ≠ .abandon) (hbefore : x.before.stage.IsOpen)
    (hafter : ¬x.after.stage.IsOpen) : x.fate? = some .lost := by
  unfold Moment.fate?
  split
  next h => exact absurd h hlabel.1
  next h => exact absurd h habandon
  next h => exact absurd h hlabel.2.1
  next h => exact absurd h hlabel.2.2
  next => exact if_pos ⟨hbefore, hafter⟩

/-- A moment at which the connection is lost. -/
theorem loses (h : Counted (fates xs) c) (hfate : x.fate? = some .lost)
    (hopen : c.stage.IsOpen) : Counted (fates (xs ++ [x])) c.lose := by
  rw [fates_snoc, hfate]
  exact h.lose hopen

/-- **Every moment is counted.** -/
theorem snoc (h : Counted (fates xs) x.before) : Counted (fates (xs ++ [x])) x.after := by
  obtain ⟨c, l, fx, c', hstep⟩ := x
  cases step_happens hstep with
  | called idle =>
    have hbegun : ∃ rest, fates xs ++ [.called] = .called :: rest := by
      rcases h.begun with ⟨hnil, -⟩ | hbegun
      · exact ⟨[], by rw [hnil]; rfl⟩
      · exact append_called hbegun
    rw [fates_snoc]
    exact attempt hbegun (.called _) id fun hs => (h.shown hs).called
  | abandoned running =>
    have hidle : c.stage ≠ .idle := by
      intro hs
      rw [hs] at running
      exact running
    rw [fates_snoc]
    refine ⟨.inr ?_, nofun, nofun, fun hs => ?_, nofun⟩
    · simpa [Moment.fate?] using h.called hidle
    · simpa [Moment.fate?] using h.shown hs
  | asked => exact h.still (fate?_eq_none (by simp) id) rfl rfl rfl nofun
  | closed stage stopping =>
    have hopen : c.stage.IsOpen := by rw [stage]; trivial
    exact h.loses (fate?_eq_lost (by simp) (by simp) hopen (not_isOpen_retreat _ 0)) hopen
  | woken stage stopping =>
    have hclosed : ¬c.stage.IsOpen := by rw [stage]; exact id
    have hidle : c.stage ≠ .idle := by simp [stage]
    rw [fates_snoc, fate?_eq_none (by simp) fun ho => absurd ho hclosed]
    refine ⟨.inr ?_, nofun, nofun, fun hs => absurd (hs.symm.trans stopping) nofun, nofun⟩
    simpa using h.called hidle
  | registered m => exact h.still (fate?_eq_none (by simp) id) rfl rfl rfl id
  | subscribed m =>
    obtain ⟨ids, r, fs, hafter⟩ := subscribe_fst d c m
    refine h.still (fate?_eq_none (by simp) fun ho => ?_) ?_ ?_ ?_ ?_
    all_goals
      dsimp only
      rw [hafter]
    · exact ho
    · exact id
  | unsubscribed m =>
    obtain ⟨ids, r, fs, hafter⟩ := unsubscribe_fst d c m
    refine h.still (fate?_eq_none (by simp) fun ho => ?_) ?_ ?_ ?_ ?_
    all_goals
      dsimp only
      rw [hafter]
    · exact ho
    · exact id
  | @refused failed stage =>
    have hidle : c.stage ≠ .idle := by simp [stage]
    obtain ⟨hrow, hbelow⟩ := h.row failed (by dsimp only; rw [stage]; rfl)
    rw [fates_snoc]
    exact retreat (append_called (h.called hidle)) hrow.failed hbelow
  | opened stage =>
    have hidle : c.stage ≠ .idle := by simp [stage]
    have hopen : c.opened.stage.IsOpen := by
      rcases opened_cases c with ⟨due, hs, -⟩ | ⟨hs, -⟩ <;> rw [hs] <;> trivial
    rw [fates_snoc]
    refine of_isOpen hopen (append_called (h.called hidle)) ⟨_, rfl⟩ fun _ => ?_
    dsimp only
    rw [c.opened_rest.2.1]
    exact (Setbacks.opened _).shows
  | restored stage | restoredFrame stage | built stage | settled stage | sent stage | heard stage
  | pinged stage | pingedBy stage | checked stage =>
    have hopen : c.stage.IsOpen := by rw [stage]; trivial
    exact h.busy (fate?_eq_none (by simp) fun _ => trivial) hopen trivial rfl rfl
  | @notBuilt m ms ids e stage request =>
    have hopen : c.stage.IsOpen := by rw [stage]; trivial
    have hids : Counted (fates xs) { c with ids := ids } := h.same rfl rfl rfl id
    exact hids.loses (fate?_eq_lost (by simp) (by simp) hopen (not_isOpen_retreat _ 0)) hopen
  | hungUp stage | timedOut stage =>
    have hopen : c.stage.IsOpen := by rw [stage]; trivial
    exact h.loses (fate?_eq_lost (by simp) (by simp) hopen (not_isOpen_retreat _ 0)) hopen
  | broke serving =>
    have hopen : c.stage.IsOpen := serving.isOpen
    exact h.loses (fate?_eq_lost (by simp) (by simp) hopen (not_isOpen_retreat _ 0)) hopen
  | @retried failed due stage time =>
    have hclosed : ¬c.stage.IsOpen := by rw [stage]; exact id
    have hidle : c.stage ≠ .idle := by simp [stage]
    obtain ⟨hrow, hbelow⟩ := h.row failed (by dsimp only; rw [stage]; rfl)
    rw [fates_snoc, fate?_eq_none (by simp) fun ho => absurd ho hclosed]
    simpa using attempt (h.called hidle) hrow hbelow h.shown
  | passed => exact h.still (fate?_eq_none (by simp) id) rfl rfl rfl id

end Counted

/-! ### Runs -/

/-- **Every run is counted.** -/
theorem counted_of_course {config : ConnectionConfig} {markets : List MarketId}
    {xs : List (Moment d)} (h : Course (ofConfig config markets) xs c) : Counted (fates xs) c := by
  induction h with
  | nil => exact ⟨.inl ⟨rfl, rfl⟩, nofun, nofun, fun _ => ⟨[], 0, rfl, .inl ⟨rfl, rfl⟩⟩, nofun⟩
  | snoc _ ih => exact ih.snoc

/-- **Setbacks of a single call** are the failures since a connection was last open, and one more
if that one is lost. -/
theorem Setbacks.eq_failures_add {rest : List Fate} (h : Setbacks (.called :: rest) n)
    (hcalls : .called ∉ rest) :
    n = failures (.called :: rest) + losses (.called :: rest) ∧
    (losses (.called :: rest) = 0 ∧ List.replicate n .failed <:+ .called :: rest ∨
      losses (.called :: rest) = 1 ∧
        .opened :: .lost :: List.replicate (n - 1) .failed <:+ .called :: rest) := by
  have none_lost (k : ℕ) : (List.replicate k Fate.failed).count .lost = 0 := by
    simp [List.count_eq_zero]
  rcases h.split with ⟨older, heq⟩ | ⟨older, heq⟩ | ⟨older, k, rfl, heq⟩
  · -- another call would be among the rest
    obtain rfl : older = [] := by
      cases older with
      | nil => rfl
      | cons f older =>
        rw [List.cons_append, List.cons.injEq] at heq
        exact absurd (by simp [heq.2]) hcalls
    obtain rfl : rest = List.replicate n .failed := by simpa using heq
    have hsince : sinceOpened (.called :: List.replicate n .failed) =
        .called :: List.replicate n .failed := sinceOpened_eq_self (by simp)
    have hlosses : losses (.called :: List.replicate n .failed) = 0 := by
      simp [losses, hsince, none_lost]
    exact ⟨by simp [failures, hlosses, hsince], .inl ⟨hlosses, List.suffix_cons _ _⟩⟩
  · have hsince : sinceOpened (.called :: rest) = List.replicate n .failed := by
      rw [heq]
      exact sinceOpened_append (by simp)
    have hlosses : losses (.called :: rest) = 0 := by rw [losses, hsince, none_lost]
    refine ⟨by simp [failures, hlosses, hsince], .inl ⟨hlosses, ?_⟩⟩
    rw [heq]
    exact ⟨older ++ [.opened], by simp⟩
  · have hsince : sinceOpened (.called :: rest) = .lost :: List.replicate k .failed := by
      rw [heq]
      exact sinceOpened_append (by simp)
    have hlosses : losses (.called :: rest) = 1 := by simp [losses, hsince, none_lost]
    refine ⟨by simp [failures, hlosses, hsince], .inr ⟨hlosses, ?_⟩⟩
    rw [heq]
    exact ⟨older, rfl⟩

theorem Shows.eq_failures_add {rest : List Fate} (h : Shows (.called :: rest) n)
    (hcalls : .called ∉ rest) : n = failures (.called :: rest) + losses (.called :: rest) := by
  obtain ⟨older, k, heq, hs⟩ := h
  cases older with
  | nil =>
    rcases hs with ⟨-, rfl⟩ | hs
    · obtain ⟨k, rfl⟩ : ∃ j, k = j + 1 := by
        cases k with
        | zero => simp at heq
        | succ j => exact ⟨j, rfl⟩
      obtain rfl : rest = List.replicate k .called := by
        simpa [List.replicate_succ] using heq
      obtain rfl : k = 0 := by simpa using hcalls
      rfl
    · rcases hs.split with ⟨_, h⟩ | ⟨_, h⟩ | ⟨_, _, _, h⟩ <;> simp at h
  | cons f older =>
    rw [List.cons_append, List.cons.injEq] at heq
    obtain ⟨rfl, hrest⟩ := heq
    obtain rfl : k = 0 := by
      by_contra hk
      exact hcalls (by simp [hrest, hk])
    rw [List.replicate_zero, List.append_nil] at hrest
    have hrow : Setbacks (.called :: rest) n := by
      rw [hrest]
      exact hs.resolve_left (by simp)
    exact (hrow.eq_failures_add hcalls).1

/-- **What is shown for a single call** that nobody has asked to stop: as many attempts as have
failed since a connection was last open, and one more if that one is lost. If the call gives up
after so many attempts, it may have as many, and the last of them all failed, unless the first of
them is the one that succeeded and was lost. -/
theorem attempts_eq_failures_add {config : ConnectionConfig} {markets : List MarketId}
    {xs : List (Moment d)} (h : Course (ofConfig config markets) xs c)
    (hcalls : (fates xs).count .called ≤ 1) (hstopping : c.stopping = false) :
    c.attempts = failures (fates xs) + losses (fates xs) ∧
    ∀ n time, c.stage = .ended (some (.reconnectExhausted n)) time →
      n = config.maxAttempts ∧ 0 < n ∧
      (losses (fates xs) = 0 ∧ List.replicate n .failed <:+ fates xs ∨
        losses (fates xs) = 1 ∧
          .opened :: .lost :: List.replicate (n - 1) .failed <:+ fates xs) := by
  have hcounted := counted_of_course h
  have hshown := hcounted.shown hstopping
  have hexhausted := hcounted.exhausted
  rw [config_of_course h] at hexhausted
  rcases hcounted.begun with ⟨hnil, hidle⟩ | ⟨rest, hrest⟩
  · rw [hnil] at hshown ⊢
    refine ⟨?_, fun n time he => absurd (he.symm.trans hidle) nofun⟩
    obtain ⟨older, k, hk, ⟨-, hs⟩ | hs⟩ := hshown
    · exact hs
    · obtain rfl : older = [] := (List.append_eq_nil_iff.mp hk.symm).1
      rcases hs.split with ⟨_, h⟩ | ⟨_, h⟩ | ⟨_, _, _, h⟩ <;> simp at h
  · rw [hrest] at hcalls hshown hexhausted ⊢
    have hcalls : .called ∉ rest := by
      simpa [List.count_eq_zero] using hcalls
    refine ⟨hshown.eq_failures_add hcalls, fun n time he => ?_⟩
    obtain ⟨hmax, hpos, hrow⟩ := hexhausted n time he
    exact ⟨hmax, hpos, (hrow.eq_failures_add hcalls).2⟩

/-- The moments with these labels of a connection that may come to nothing so many times. -/
def sampleAttempts (maxAttempts : ℕ) (ls : List Label) : List (Moment signs) × Connection :=
  moments signs (ofConfig { maxAttempts := maxAttempts } []) ls

/-- A connection opens and is closed by the exchange, and the next attempt fails. -/
def lostThenRefused : List Label :=
  [.call, .accepted, .proceed, .receive (.close 1000 "bye"), .pass (ofMillis 1000), .proceed,
    .refused]

theorem attempts_eq_failures_add_sample :
    (sampleAttempts 2 lostThenRefused).2.stage =
        .ended (some (.reconnectExhausted 2)) (ofMillis 1000) ∧
      (sampleAttempts 2 lostThenRefused).2.attempts =
        failures (fates (sampleAttempts 2 lostThenRefused).1) +
          losses (fates (sampleAttempts 2 lostThenRefused).1) :=
  ⟨by decide +kernel, (attempts_eq_failures_add (course_moments lostThenRefused _)
    (by decide +kernel) (by decide +kernel)).1⟩

/-- **What is shown is not the number of failed attempts.** A connection opens and is closed by the
exchange: the call gives up, though no attempt has failed. And where two calls one after the other
give up after a failure, a single one is shown. -/
theorem gives_up_without_failure :
    ((sampleAttempts 1 [.call, .accepted, .proceed, .receive (.close 1000 "bye")]).2.stage =
        .ended (some (.reconnectExhausted 1)) 0 ∧
      (sampleAttempts 1 [.call, .accepted, .proceed, .receive (.close 1000 "bye")]).2.attempts =
        1 ∧
      .failed ∉ fates
        (sampleAttempts 1 [.call, .accepted, .proceed, .receive (.close 1000 "bye")]).1) ∧
    (sampleAttempts 1 [.call, .refused, .call, .refused]).2.attempts = 1 ∧
      failures (fates (sampleAttempts 1 [.call, .refused, .call, .refused]).1) = 2 := by
  decide +kernel

end LiveBook.Connection
