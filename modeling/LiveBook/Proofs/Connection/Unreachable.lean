import Mathlib.Algebra.Group.Nat.Defs
import LiveBook.Connection.Unreachable
import LiveBook.Proofs.Connection.Rules

/-!
# Waits between attempts

A call to run a connection where nobody answers: every attempt fails at once. After each failure the
call waits, twice as long as before but not longer than it may, and it stops doubling at some point.
Time passes only while it has nothing to do, and no further than to the end of its wait.

* `LiveBook.Connection.Vain` – such a call, with a shutdown at any time or never;
* `LiveBook.Connection.Retrying` – how far it has come, kept by every moment
  (`LiveBook.Connection.Retrying.snoc`);
* `LiveBook.Connection.Outcome`, `LiveBook.Connection.Awaited` – what comes of a failure, and of the
  wait after it;
* `LiveBook.Connection.retries_of_vain` – every failure has such an outcome;
* `LiveBook.Connection.Vain.waitFor` – time is let pass in this way;
* `LiveBook.Connection.doubling_stops` – a wait that is not twice as long as the one before, though
  it might be.
-/

namespace LiveBook.Connection

open Number (twoTo)

variable {d : Dialect} {c c₀ : Connection} {x : Moment d} {xs ys : List (Moment d)}

/-! ### Calls in vain -/

namespace Moment

/-- An attempt fails. -/
def fails (x : Moment d) : Bool :=
  match x.label with
  | .refused => true
  | _ => false

/-- A shutdown is asked for. -/
def asks (x : Moment d) : Bool :=
  match x.label with
  | .shutdown => true
  | _ => false

/-- **A moment of a call where nobody answers.** The call is not dropped, no attempt succeeds, and
time passes only when nothing happens by itself, and no further than to the next attempt. -/
def isVain (x : Moment d) : Bool :=
  match x.label with
  | .call | .abandon | .accepted => false
  | .pass time =>
    x.before.refusedNext?.isNone && x.before.retryDue?.all (x.before.now + time ≤ ·)
  | _ => true

end Moment

/-- **A call where nobody answers**, with all that has happened since it began. -/
inductive Vain (c₀ : Connection) : List (Moment d) → Connection → Prop where
  | called {x : Moment d} (begins : x.before = c₀) (label : x.label = .call) :
      Vain c₀ [x] x.after
  | snoc {xs : List (Moment d)} {x : Moment d} (before : Vain c₀ xs x.before)
      (vain : x.isVain = true) : Vain c₀ (xs ++ [x]) x.after

/-- How many attempts have failed. -/
def refusals (xs : List (Moment d)) : ℕ := xs.countP Moment.fails

/-- When a shutdown was asked for first. -/
def asked (xs : List (Moment d)) : Option ℕ := (xs.find? Moment.asks).map fun x => x.before.now

/-- When the attempt begins that is made next or just now. -/
def nextAttempt (c₀ : Connection) (xs : List (Moment d)) : ℕ :=
  match (xs.filter Moment.fails).getLast? with
  | none => c₀.now
  | some x => x.before.now + ofMillis (c₀.config.retryDelay (refusals xs))

theorem refusals_snoc : refusals (xs ++ [x]) = refusals xs + if x.fails then 1 else 0 := by
  simp [refusals, List.countP_singleton]

theorem asked_snoc :
    asked (xs ++ [x]) = (asked xs).or (if x.asks then some x.before.now else none) := by
  cases h : xs.find? Moment.asks with
  | none => cases hx : x.asks <;> simp [asked, List.find?_append, h, hx]
  | some y => simp [asked, List.find?_append, h]

theorem nextAttempt_snoc :
    nextAttempt c₀ (xs ++ [x]) =
      if x.fails then x.before.now + ofMillis (c₀.config.retryDelay (refusals xs + 1))
      else nextAttempt c₀ xs := by
  cases hx : x.fails <;> simp [nextAttempt, List.filter_append, refusals_snoc, hx]

/-! ### How far a call has come -/

/-- **How far a call has come where nobody answers**, after `k` failures, if a shutdown was asked
for at the time `asked`. -/
inductive Retrying (c₀ : Connection) (k due : ℕ) (asked : Option ℕ) (c : Connection) : Prop where
  /-- An attempt is made. -/
  | attempts (stage : c.stage = .opening k) (time : c.now = due)
      (heeds : c.stopping = asked.isSome ∧ ∀ s ∈ asked, c.now = s)
      (below : 0 < c₀.config.maxAttempts → k < c₀.config.maxAttempts)
  /-- It waits for the next attempt. -/
  | waits (stage : c.stage = .waiting k due) (state : c.state = .reconnecting)
      (shown : c.attempts = k) (time : c.now ≤ due)
      (heeds : c.stopping = asked.isSome ∧ ∀ s ∈ asked, c.now = s)
      (below : 0 < c₀.config.maxAttempts → k < c₀.config.maxAttempts)
  /-- It was stopped, or never began. -/
  | stopped {s : ℕ} (stage : c.stage = .ended none s) (state : c.state = .disconnected)
      (time : s ∈ asked ∨ c₀.stopping = true ∧ k = 0)
  /-- It has given up. -/
  | gaveUp {t : ℕ} (stage : c.stage = .ended (some (.reconnectExhausted k)) t)
      (state : c.state = .disconnected) (last : k = c₀.config.maxAttempts) (pos : 0 < k)

/-- Such a call is a run. -/
theorem Vain.course (h : Vain c₀ xs c) : Course c₀ xs c := by
  induction h with
  | @called x begins => exact begins ▸ .snoc (x := x) .nil
  | snoc _ _ ih => exact .snoc ih

theorem Course.eq_of_nil (h : Course c₀ ([] : List (Moment d)) c) : c = c₀ := by
  generalize hxs : ([] : List (Moment d)) = xs at h
  cases h with
  | nil => rfl
  | snoc => simp at hxs

/-- A run is such a call if it begins with one and every further moment is one of it. -/
theorem Course.vain (h : Course c₀ xs c) (begins : xs.head?.any (·.label matches .call) = true)
    (vain : xs.tail.all Moment.isVain = true) : Vain c₀ xs c := by
  induction h with
  | nil => cases begins
  | @snoc xs x before ih =>
    cases xs with
    | nil =>
      have hlabel : x.label = .call := by
        cases hx : x.label <;> simp [hx] at begins ⊢
      exact .called before.eq_of_nil hlabel
    | cons y ys =>
      rw [List.cons_append, List.tail_cons, List.all_append, Bool.and_eq_true] at vain
      exact .snoc (ih begins vain.1) (by simpa using vain.2)

namespace Retrying

variable {k due : ℕ} {asked asked' : Option ℕ} {c' : Connection}

/-- It is never connected. -/
theorem not_isOpen (h : Retrying c₀ k due asked c) : ¬c.stage.IsOpen := by
  cases h with
  | attempts stage | waits stage | stopped stage | gaveUp stage =>
    rw [stage]
    exact id

/-- Nothing changes but what does not matter. -/
theorem same (h : Retrying c₀ k due asked c) (stage : c'.stage = c.stage)
    (state : c'.state = c.state) (attempts : c'.attempts = c.attempts)
    (stopping : c'.stopping = c.stopping) (now : c'.now = c.now) : Retrying c₀ k due asked c' := by
  cases h with
  | attempts s time heeds below =>
    exact .attempts (stage.trans s) (now.trans time) (by rwa [stopping, now]) below
  | waits s st shown time heeds below =>
    exact .waits (stage.trans s) (state.trans st) (attempts.trans shown) (by rwa [now])
      (by rwa [stopping, now]) below
  | stopped s st time => exact .stopped (stage.trans s) (state.trans st) time
  | gaveUp s st last pos => exact .gaveUp (stage.trans s) (state.trans st) last pos

/-- A shutdown is asked for. -/
theorem shutdown (h : Retrying c₀ k due asked c) :
    Retrying c₀ k due (asked.or (some c.now)) { c with stopping := true } := by
  have heeds' (heeds : ∀ s ∈ asked, c.now = s) :
      true = (asked.or (some c.now)).isSome ∧ ∀ s ∈ asked.or (some c.now), c.now = s := by
    cases asked with
    | none => simp
    | some s => simpa using heeds
  cases h with
  | attempts stage time heeds below => exact .attempts stage time (heeds' heeds.2) below
  | waits stage state shown time heeds below =>
    exact .waits stage state shown time (heeds' heeds.2) below
  | stopped stage state time =>
    refine .stopped stage state (time.imp_left fun hs => ?_)
    rw [Option.mem_def] at hs
    simp [hs]
  | gaveUp stage state last pos => exact .gaveUp stage state last pos

/-- The call returns because of the shutdown. -/
theorem finish (heeds : c.stopping = asked.isSome ∧ ∀ s ∈ asked, c.now = s)
    (stopping : c.stopping = true) : Retrying c₀ k due asked (c.finish none) := by
  obtain ⟨s, hs⟩ := Option.isSome_iff_exists.mp (heeds.1.symm.trans stopping)
  obtain rfl := heeds.2 s hs
  exact .stopped rfl rfl (.inl hs)

/-- The first attempt begins, unless a shutdown was asked for before. -/
theorem begin (c₀ : Connection) : Retrying c₀ 0 c₀.now none (c₀.attempt 0) := by
  rcases attempt_cases c₀ 0 with ⟨hstop, h⟩ | ⟨hstop, h⟩
  all_goals rw [h]
  · exact .stopped rfl rfl (.inr ⟨hstop, rfl⟩)
  · exact .attempts rfl rfl ⟨hstop, by simp⟩ id

/-- **The next attempt begins** at the end of the wait. -/
theorem attempt {k' due' : ℕ} (h : Retrying c₀ k due asked c) (stage : c.stage = .waiting k' due')
    (time : due' ≤ c.now) : Retrying c₀ k due asked (c.attempt k') := by
  cases h with
  | waits s _ _ late heeds below =>
    obtain ⟨rfl, rfl⟩ := Stage.waiting.inj (stage.symm.trans s)
    rcases attempt_cases c k' with ⟨hstop, h⟩ | ⟨hstop, h⟩
    all_goals rw [h]
    · exact .finish heeds hstop
    · exact .attempts rfl (le_antisymm late time) heeds below
  | attempts s | stopped s | gaveUp s => exact nomatch stage.symm.trans s

/-- **An attempt fails.** -/
theorem retreat {k' : ℕ} (h : Retrying c₀ k due asked c) (stage : c.stage = .opening k')
    (config : c.config = c₀.config) :
    Retrying c₀ (k + 1) (c.now + ofMillis (c₀.config.retryDelay (k + 1))) asked (c.retreat k') := by
  cases h with
  | attempts s _ heeds below =>
    obtain rfl := Stage.opening.inj (stage.symm.trans s)
    rcases retreat_cases c k' with ⟨hstop, h⟩ | ⟨-, hpos, hmax, h⟩ | ⟨-, hmore, h⟩
    all_goals
      rw [h]
      simp only [config] at *
    · exact .finish heeds hstop
    · exact .gaveUp rfl rfl (le_antisymm (below hpos) hmax) k'.succ_pos
    · exact .waits rfl rfl rfl (Nat.le_add_right _ _) heeds hmore
  | waits s | stopped s | gaveUp s => exact nomatch stage.symm.trans s

/-- **Time passes,** no further than to the next attempt. -/
theorem pass {time : ℕ} (h : Retrying c₀ k due asked c) (rests : c.refusedNext?.isNone = true)
    (until' : c.retryDue?.all (c.now + time ≤ ·) = true) :
    Retrying c₀ k due asked { c with now := c.now + time } := by
  cases h with
  | attempts stage => simp [refusedNext?, stage] at rests
  | waits stage state shown late heeds below =>
    -- a shutdown that was asked for is noticed before any time passes
    have hgoing : c.stopping = false := by
      by_contra hstop
      rw [Bool.not_eq_false] at hstop
      simp [refusedNext?, stage, hstop] at rests
    have hnever : asked = none := by simpa [hgoing] using heeds.1.symm
    have hlate : c.now + time ≤ due := by simpa [retryDue?, stage] using until'
    subst hnever
    exact .waits stage state shown hlate ⟨hgoing, by simp⟩ below
  | stopped stage state asked => exact .stopped stage state asked
  | gaveUp stage state last pos => exact .gaveUp stage state last pos

/-- A moment at which no attempt fails and no shutdown is asked for. -/
theorem quiet (h : Retrying c₀ (refusals xs) (nextAttempt c₀ xs) (Connection.asked xs) x.after)
    (fails : x.fails = false) (asks : x.asks = false) :
    Retrying c₀ (refusals (xs ++ [x])) (nextAttempt c₀ (xs ++ [x]))
      (Connection.asked (xs ++ [x])) x.after := by
  simpa [refusals_snoc, nextAttempt_snoc, asked_snoc, fails, asks] using h

/-- **Every moment of a call in vain.** -/
theorem snoc (h : Retrying c₀ (refusals xs) (nextAttempt c₀ xs) (Connection.asked xs) x.before)
    (config : x.before.config = c₀.config) (vain : x.isVain = true) :
    Retrying c₀ (refusals (xs ++ [x])) (nextAttempt c₀ (xs ++ [x]))
      (Connection.asked (xs ++ [x])) x.after := by
  obtain ⟨c, l, fx, c', hstep⟩ := x
  cases step_happens hstep with
  | called | abandoned | opened => exact nomatch vain
  | asked =>
    rw [refusals_snoc, nextAttempt_snoc, asked_snoc]
    exact h.shutdown
  | refused stage =>
    rw [refusals_snoc, nextAttempt_snoc, asked_snoc]
    simpa [Moment.fails, Moment.asks] using h.retreat stage config
  | woken stage stopping =>
    cases h with
    | waits s _ _ _ heeds => exact quiet (finish heeds stopping) rfl rfl
    | attempts s | stopped s | gaveUp s => exact nomatch stage.symm.trans s
  | retried stage time => exact quiet (h.attempt stage time) rfl rfl
  | passed time =>
    obtain ⟨hrests, huntil⟩ := Bool.and_eq_true_iff.mp vain
    exact quiet (h.pass hrests huntil) rfl rfl
  | registered m => exact quiet (h.same rfl rfl rfl rfl rfl) rfl rfl
  | subscribed m =>
    obtain ⟨ids, r, fs, hafter⟩ := subscribe_fst d c m
    exact quiet (by dsimp only; rw [hafter]; exact h.same rfl rfl rfl rfl rfl) rfl rfl
  | unsubscribed m =>
    obtain ⟨ids, r, fs, hafter⟩ := unsubscribe_fst d c m
    exact quiet (by dsimp only; rw [hafter]; exact h.same rfl rfl rfl rfl rfl) rfl rfl
  | closed stage | restored stage | restoredFrame stage | built stage | notBuilt stage
  | settled stage | sent stage | heard stage | hungUp stage | timedOut stage | pinged stage
  | pingedBy stage | checked stage =>
    exact absurd (by dsimp only; rw [stage]; trivial) h.not_isOpen
  | broke serving => exact absurd serving.isOpen h.not_isOpen

end Retrying

/-- **How far a call in vain has come.** -/
theorem Vain.retrying (h : Vain c₀ xs c) :
    Retrying c₀ (refusals xs) (nextAttempt c₀ xs) (asked xs) c := by
  induction h with
  | @called x begins label =>
    obtain ⟨c, l, fx, c', hstep⟩ := x
    cases step_happens hstep with
    | called => exact begins ▸ Retrying.begin c
    | _ => cases label
  | snoc before vain ih => exact ih.snoc (config_of_course before.course) vain

/-! ### What has happened since -/

/-- A moment of such a call, apart from its beginning, follows a call in vain. -/
theorem Vain.split (h : Vain c₀ (xs ++ x :: ys) c) (label : x.label ≠ .call) :
    Vain c₀ xs x.before ∧ x.isVain = true := by
  generalize hzs : xs ++ x :: ys = zs at h
  induction h generalizing ys with
  | @called y begins hy =>
    obtain ⟨rfl, heq⟩ | ⟨_, heq⟩ := List.append_eq_singleton_iff.mp hzs
    · exact absurd ((List.cons.inj heq).1 ▸ hy) label
    · cases heq
  | @snoc zs z before vain ih =>
    rcases List.eq_nil_or_concat' ys with rfl | ⟨ys, y, rfl⟩
    · obtain ⟨rfl, hz⟩ := List.append_inj' hzs rfl
      obtain rfl := List.singleton_inj.mp hz
      exact ⟨before, vain⟩
    · rw [← List.cons_append, ← List.append_assoc] at hzs
      exact ih (List.append_inj' hzs rfl).1

theorem refusals_append (fails : x.fails = true) (still : refusals ys = 0) :
    refusals (xs ++ x :: ys) = refusals xs + 1 := by
  simp only [refusals] at still ⊢
  simp [List.countP_append, fails, still]

theorem nextAttempt_append (fails : x.fails = true) (still : refusals ys = 0) :
    nextAttempt c₀ (xs ++ x :: ys) =
      x.before.now + ofMillis (c₀.config.retryDelay (refusals xs + 1)) := by
  have hys : ys.filter Moment.fails = [] := by
    simpa [refusals, List.countP_eq_zero, List.filter_eq_nil_iff] using still
  simp [nextAttempt, List.filter_append, fails, hys, refusals_append fails still]

/-- The call is never stuck: something happens at once, or it waits for the next attempt. -/
theorem Vain.goesOn (h : Vain c₀ xs c) (running : c.stage.IsRunning) :
    (∃ l c', c.refusedNext? = some l ∧ c.step d l = some (c', [])) ∨
      ∃ due, c.retryDue? = some due ∧ c.now < due := by
  cases h.retrying with
  | attempts stage =>
    exact .inl ⟨.refused, _, by simp [refusedNext?, stage], by simp [step, stage]; rfl⟩
  | waits stage =>
    by_cases hstop : c.stopping = true
    · exact .inl ⟨.notice, c.finish none, by simp [refusedNext?, stage, hstop],
        by simp [step, stage, hstop]⟩
    · by_cases hdue : nextAttempt c₀ xs ≤ c.now
      · exact .inl ⟨.proceed, c.attempt (refusals xs), by simp [refusedNext?, stage, hstop, hdue],
          by simp [step, proceed, stage, hdue]⟩
      · exact .inr ⟨_, by simp [retryDue?, stage], Nat.lt_of_not_le hdue⟩
  | stopped stage | gaveUp stage =>
    rw [stage] at running
    exact running.elim

/-! ### Failures -/

/-- **What comes of the `k`-th failure.** -/
inductive Outcome (config : ConnectionConfig) (k : ℕ) (x : Moment d) : Prop where
  /-- After a shutdown the call returns at once. -/
  | stops (stopping : x.before.stopping = true) (stage : x.after.stage = .ended none x.after.now)
      (state : x.after.state = .disconnected)
  /-- After as many failures as it may have it gives up at once. -/
  | givesUp (stopping : x.before.stopping = false) (last : k = config.maxAttempts)
      (stage : x.after.stage = .ended (some (.reconnectExhausted k)) x.after.now)
      (state : x.after.state = .disconnected) (shown : x.after.attempts = k)
  /-- Otherwise it waits, twice as long with every failure up to the seventeenth. -/
  | waits (stopping : x.before.stopping = false) (more : k ≠ config.maxAttempts)
      (stage : x.after.stage = .waiting k
        (x.after.now + ofMillis (min config.maxDelay (config.baseDelay * 2 ^ min (k - 1) 16))))
      (state : x.after.state = .reconnecting) (shown : x.after.attempts = k)

/-- **What becomes of a wait,** up to the next failure, if a shutdown was asked for at the time
`asked`. -/
inductive Awaited (k due : ℕ) (asked : Option ℕ) (c : Connection) : Prop where
  /-- It goes on, but not for longer than this. -/
  | waits (stage : c.stage = .waiting k due) (state : c.state = .reconnecting)
      (shown : c.attempts = k) (time : c.now ≤ due) (heeds : ∀ s ∈ asked, c.now = s)
  /-- Exactly when it is over the next attempt begins. -/
  | attempts (stage : c.stage = .opening k) (time : c.now = due)
  /-- A shutdown ends it at once. -/
  | stopped {s : ℕ} (stage : c.stage = .ended none s) (state : c.state = .disconnected)
      (time : s ∈ asked)

/-- A wait that is doubled sixteen times at most is the one that is always doubled, unless there
were more failures and it may be longer. -/
theorem doubled_iff (base most k : ℕ) :
    min most (base * 2 ^ min (k - 1) 16) = min most (base * 2 ^ (k - 1)) ↔
      k ≤ 17 ∨ base = 0 ∨ most ≤ base * 2 ^ 16 := by
  by_cases hk : k ≤ 17
  · have hmin : min (k - 1) 16 = k - 1 := by omega
    exact iff_of_true (by rw [hmin]) (.inl hk)
  · have hmin : min (k - 1) 16 = 16 := by omega
    rw [hmin, or_iff_right hk]
    rcases Nat.eq_zero_or_pos base with rfl | hbase
    · simp
    · have hlt : base * 2 ^ 16 < base * 2 ^ (k - 1) :=
        Nat.mul_lt_mul_of_pos_left (Nat.pow_lt_pow_right (by decide) (by omega)) hbase
      rw [or_iff_right hbase.ne']
      omega

/-- An attempt that fails was made. -/
theorem Moment.of_refused (label : x.label = .refused) :
    ∃ k, x.before.stage = .opening k ∧ x.after = x.before.retreat k := by
  obtain ⟨b, l, fx, a, hstep⟩ := x
  obtain rfl : l = .refused := label
  cases step_happens hstep with
  | refused stage => exact ⟨_, stage, rfl⟩

theorem asked_append (asks : x.asks = false) (never : asked xs = none) :
    asked (xs ++ x :: ys) = asked ys := by
  rw [asked, Option.map_eq_none_iff] at never
  simp [asked, List.find?_append, never, asks]

/-- **Every failure** stops the call, or it waits. -/
theorem Vain.outcome (h : Vain c₀ (xs ++ x :: ys) c) (label : x.label = .refused) :
    Outcome c₀.config (refusals xs + 1) x := by
  obtain ⟨hbefore, -⟩ := h.split (by simp [label])
  have hconfig := config_of_course hbefore.course
  obtain ⟨k, hopening, hafter⟩ := Moment.of_refused label
  cases hbefore.retrying with
  | attempts stage _ _ below =>
    obtain rfl := Stage.opening.inj (hopening.symm.trans stage)
    rcases retreat_cases x.before (refusals xs) with
      ⟨hstop, h⟩ | ⟨hgo, hpos, hmax, h⟩ | ⟨hgo, hmore, h⟩
    · rw [h] at hafter
      refine .stops hstop ?_ ?_ <;> rw [hafter] <;> rfl
    · rw [h] at hafter
      rw [hconfig] at hpos hmax
      refine .givesUp hgo (le_antisymm (below hpos) hmax) ?_ ?_ ?_ <;> rw [hafter] <;> rfl
    · rw [h, hconfig] at hafter
      rw [hconfig] at hmore
      refine .waits hgo (by omega) ?_ ?_ ?_ <;> rw [hafter]
      rfl
  | waits stage | stopped stage | gaveUp stage => exact nomatch hopening.symm.trans stage

/-- **Every wait** is followed by the next attempt, unless a shutdown is asked for before. -/
theorem Vain.awaited {due : ℕ} (h : Vain c₀ (xs ++ x :: ys) c) (label : x.label = .refused)
    (stage : x.after.stage = .waiting (refusals xs + 1) due) (still : refusals ys = 0) :
    Awaited (refusals xs + 1) due (asked ys) c := by
  obtain ⟨hbefore, hvain⟩ := h.split (by simp [label])
  have hfails : x.fails = true := by simp [Moment.fails, label]
  have hasks : x.asks = false := by simp [Moment.asks, label]
  have hnever : asked xs = none := by
    obtain ⟨k, hopening, -⟩ := Moment.of_refused label
    cases h.outcome label with
    | waits stopping =>
      cases hbefore.retrying with
      | attempts _ _ heeds => simpa [stopping] using heeds.1.symm
      | waits s | stopped s | gaveUp s => exact nomatch hopening.symm.trans s
    | stops _ s | givesUp _ _ s => exact nomatch stage.symm.trans s
  obtain ⟨hdue, hmore⟩ : due = nextAttempt c₀ (xs ++ [x]) ∧
      (0 < c₀.config.maxAttempts → refusals xs + 1 < c₀.config.maxAttempts) := by
    have hafter := (hbefore.snoc hvain).retrying
    simp only [refusals_snoc, hfails, if_true] at hafter
    cases hafter with
    | waits s _ _ _ _ below => exact ⟨(Stage.waiting.inj (stage.symm.trans s)).2, below⟩
    | attempts s | stopped s | gaveUp s => exact nomatch stage.symm.trans s
  -- since then nothing was counted, so that the call is where the failure has left it
  have hnow := h.retrying
  rw [refusals_append hfails still, nextAttempt_append hfails still, asked_append hasks hnever,
    ← (nextAttempt_append hfails rfl : nextAttempt c₀ (xs ++ [x]) = _), ← hdue] at hnow
  cases hnow with
  | attempts stage time => exact .attempts stage time
  | waits stage state shown time heeds => exact .waits stage state shown time heeds.2
  | stopped stage state time =>
    exact .stopped stage state (time.resolve_right fun hnot => nomatch hnot.2)
  | gaveUp _ _ last pos => exact absurd (hmore (last ▸ pos)) (last ▸ lt_irrefl _)

/-- **Waits between attempts.** For every configuration, when nobody answers and a shutdown is asked
for at any time or never: after each failure the call gives up if that is the last one it may have,
and otherwise waits exactly for the base delay, doubled with each failure up to the seventeenth, but
not longer than the greatest delay; this is the delay that is always doubled as long as there were
no more failures, or the greatest delay is reached by then. A shutdown ends a wait at once. The call
is never stuck, and it gives up in no other way. -/
theorem retries_of_vain (h : Vain c₀ xs c) :
    (∀ before x after, xs = before ++ x :: after → x.label = .refused →
      Outcome c₀.config (refusals before + 1) x ∧
      ∀ due, x.after.stage = .waiting (refusals before + 1) due → refusals after = 0 →
        Awaited (refusals before + 1) due (asked after) c) ∧
    (∀ k, min c₀.config.maxDelay (c₀.config.baseDelay * 2 ^ min (k - 1) 16) =
        min c₀.config.maxDelay (c₀.config.baseDelay * 2 ^ (k - 1)) ↔
      k ≤ 17 ∨ c₀.config.baseDelay = 0 ∨ c₀.config.maxDelay ≤ c₀.config.baseDelay * 2 ^ 16) ∧
    (c.stage.IsRunning → (∃ l c', c.refusedNext? = some l ∧ c.step d l = some (c', [])) ∨
      ∃ due, c.retryDue? = some due ∧ c.now < due) ∧
    ∀ e t, c.stage = .ended (some e) t → e = .reconnectExhausted c₀.config.maxAttempts ∧
      0 < c₀.config.maxAttempts ∧ refusals xs = c₀.config.maxAttempts := by
  refine ⟨fun before x after hxs label => ?_, doubled_iff _ _, h.goesOn, fun e t hended => ?_⟩
  · subst hxs
    exact ⟨h.outcome label, fun due => h.awaited label⟩
  · cases h.retrying with
    | gaveUp stage _ last pos =>
      obtain ⟨he, -⟩ := Stage.ended.inj (hended.symm.trans stage)
      exact ⟨last ▸ Option.some.inj he, last ▸ pos, last⟩
    | attempts s | waits s | stopped s => exact nomatch hended.symm.trans s

/-- What happens next by itself takes no time. -/
theorem now_of_refusedNext? {l : Label} {fx : List Effect} {c' : Connection}
    (next : c.refusedNext? = some l) (step : c.step d l = some (c', fx)) :
    c'.now = c.now ∧ (l = .refused ∨ l = .notice ∨ l = .proceed) := by
  unfold refusedNext? at next
  split at next
  next hstage =>
    obtain rfl := Option.some.inj next
    simp only [Connection.step, hstage] at step
    cases step
    exact ⟨(c.retreat_heartbeat _).2, .inl rfl⟩
  next hstage =>
    split at next
    next hstop =>
      obtain rfl := Option.some.inj next
      simp only [Connection.step, hstage, hstop, if_true] at step
      cases step
      exact ⟨rfl, .inr (.inl rfl)⟩
    next =>
      split at next
      next hdue =>
        obtain rfl := Option.some.inj next
        simp only [Connection.step, proceed, hstage, hdue, if_true] at step
        cases step
        exact ⟨(c.attempt_heartbeat _).2, .inr (.inr rfl)⟩
      next => cases next
  next => cases next

/-- **Waiting where nobody answers** is such a call, in which no shutdown is asked for any more, up
to the time that passes at its end. -/
theorem Vain.waitFor {time : ℕ} (fuel : ℕ) (h : Vain c₀ xs c) (late : c.now ≤ time) :
    ∃ ys c', Vain c₀ (xs ++ ys) c' ∧ c'.now ≤ time ∧
      c.waitFor fuel d time = { c' with now := time } := by
  induction fuel generalizing xs c with
  | zero => exact ⟨[], c, by simpa using h, late, rfl⟩
  | succ fuel ih =>
    cases hnext : c.refusedNext? with
    | some l =>
      cases hstep : c.step d l with
      | none => exact ⟨[], c, by simpa using h, late, by simp [Connection.waitFor, hnext, hstep]⟩
      | some p =>
        obtain ⟨c₁, fx⟩ := p
        obtain ⟨hnow, hlabel⟩ := now_of_refusedNext? hnext hstep
        let x : Moment d := ⟨c, l, fx, c₁, hstep⟩
        have hvain : x.isVain = true := by
          rcases hlabel with rfl | rfl | rfl <;> rfl
        obtain ⟨ys, c', hcall, hlate, heq⟩ := ih (Vain.snoc (x := x) h hvain) (hnow ▸ late)
        exact ⟨x :: ys, c', by simpa using hcall, hlate,
          by simpa [Connection.waitFor, hnext, hstep] using heq⟩
    | none =>
      cases hdue : c.retryDue? with
      | none => exact ⟨[], c, by simpa using h, late, by simp [Connection.waitFor, hnext, hdue]⟩
      | some due =>
        by_cases hle : due ≤ time
        · have hahead : c.now ≤ due := by
            cases h.retrying with
            | waits stage _ _ ahead =>
              rw [retryDue?, stage] at hdue
              exact Option.some.inj hdue ▸ ahead
            | attempts stage | stopped stage | gaveUp stage => simp [retryDue?, stage] at hdue
          let x : Moment d :=
            ⟨c, .pass (due - c.now), [], { c with now := c.now + (due - c.now) }, rfl⟩
          have hvain : x.isVain = true := by
            simp [x, Moment.isVain, hnext, hdue, Nat.add_sub_cancel' hahead]
          have hafter : x.after = { c with now := due } := by
            simp [x, Nat.add_sub_cancel' hahead]
          obtain ⟨ys, c', hcall, hlate, heq⟩ := ih (Vain.snoc (x := x) h hvain) (hafter ▸ hle)
          exact ⟨x :: ys, c', by simpa using hcall, hlate,
            by simpa [Connection.waitFor, hnext, hdue, hle, hafter] using heq⟩
        · exact ⟨[], c, by simpa using h, late, by simp [Connection.waitFor, hnext, hdue, hle]⟩

/-- Three attempts fail, and then a shutdown is asked for. -/
def sampleTries : List (Moment signs) × Connection :=
  moments signs (ofConfig {} [])
    [.call, .refused, .pass (ofMillis 1000), .proceed, .refused, .pass (ofMillis 2000), .proceed,
      .refused, .pass (ofMillis 1500), .shutdown, .notice]

/-- Eighteen attempts fail, the first wait is a millisecond, and the longest may be a million. -/
def sampleDoublings : List (Moment signs) × Connection :=
  moments signs (ofConfig { baseDelay := 1, maxDelay := 2 ^ 20 } [])
    (.call :: .refused :: (List.range 17).flatMap fun k =>
      [.pass (ofMillis (twoTo k)), .proceed, .refused])

theorem vain_sampleTries : Vain (ofConfig {} []) sampleTries.1 sampleTries.2 :=
  (course_moments _ _).vain (by decide +kernel) (by decide +kernel)

theorem retries_of_vain_sample :
    refusals sampleTries.1 = 3 ∧
    (∀ before x after, sampleTries.1 = before ++ x :: after → x.label = .refused →
      Outcome {} (refusals before + 1) x) ∧
    sampleTries.2.stage = .ended none (ofMillis 4500) :=
  ⟨by decide +kernel,
    fun before x after h label => ((retries_of_vain vain_sampleTries).1 before x after h label).1,
    by decide +kernel⟩

/-- After the eighteenth failure it waits as long as after the seventeenth, though twice as long is
not longer than it may. -/
theorem doubling_stops :
    Vain (ofConfig { baseDelay := 1, maxDelay := 2 ^ 20 } []) sampleDoublings.1
      sampleDoublings.2 ∧
    refusals sampleDoublings.1 = 18 ∧
    sampleDoublings.2.stage = .waiting 18 (sampleDoublings.2.now + ofMillis 65536) ∧
    65536 ≠ min (2 ^ 20) (1 * 2 ^ (18 - 1)) :=
  ⟨(course_moments _ _).vain (by decide +kernel) (by decide +kernel), by decide +kernel,
    by decide +kernel, by decide⟩

end LiveBook.Connection
