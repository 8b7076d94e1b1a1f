import Mathlib.Order.Bounds.Basic
import LiveBook.Proofs.Connection.Rules

/-!
# Pings and their answers

A connection on which nothing was heard for some time is asked for a sign of life, and is given up
when none comes. What was heard or asked on an earlier connection does not matter.

* `LiveBook.Connection.check_cases` – what a look at the heartbeat can lead to;
* `LiveBook.Connection.OpenSince` – the connection of the running call, since it was opened;
* `LiveBook.Connection.Unanswered` – a ping that was not answered on it;
* `LiveBook.Connection.Attentive` – what the heartbeat knows of it, and
  `LiveBook.Connection.Watched.snoc`: every moment keeps it so;
* `LiveBook.Connection.keptAlive_of_course` – when a ping is sent, and when a connection is given
  up.
-/

namespace LiveBook

/-! ### What is due -/

namespace Heartbeat

variable {h : Heartbeat} {now : Instant}

/-- A ping is due when none is unanswered and nothing was heard for the ping interval. -/
theorem shouldPing_iff (past : h.lastMessage ≤ now) :
    h.shouldPing now = true ↔ h.pingSent = none ∧ h.lastMessage + h.pingInterval ≤ now := by
  simp [shouldPing, Instant.le_since_iff past]

/-- A connection is given up when a ping is unanswered for longer than the pong timeout. -/
theorem isTimedOut_iff :
    h.isTimedOut now = true ↔ ∃ sent, h.pingSent = some sent ∧ sent + h.pongTimeout < now := by
  cases hsent : h.pingSent with
  | none => simp [isTimedOut, hsent]
  | some sent => simp [isTimedOut, hsent, Instant.lt_since_iff]

/-- **A ping and a timeout are never due at once.** -/
theorem not_isTimedOut_and_shouldPing (h : Heartbeat) (now : Instant) :
    ¬(h.isTimedOut now = true ∧ h.shouldPing now = true) := by
  rintro ⟨hlate, hdue⟩
  obtain ⟨sent, hsent, -⟩ := isTimedOut_iff.mp hlate
  have hwaits : h.isWaiting = true := by simp [isWaiting, hsent]
  exact nomatch hdue.symm.trans (shouldPing_of_isWaiting now hwaits)

end Heartbeat

namespace Connection

variable {d : Dialect} {c c' : Connection}

/-- **A look at the heartbeat** gives the connection up, sends a ping, or does neither. -/
theorem check_cases (d : Dialect) (c : Connection) :
    (c.heartbeat.isTimedOut c.now = true ∧ c.check d = (c.lose, [])) ∨
    (c.heartbeat.shouldPing c.now = true ∧ ∃ ids e,
      c.check d = ({ c with ids := ids, heartbeat := c.heartbeat.ping c.now }.goOn, [e])) ∨
    (c.heartbeat.isTimedOut c.now = false ∧ c.heartbeat.shouldPing c.now = false ∧
      c.check d = (c.goOn, [])) := by
  unfold check
  split
  next h => exact .inl ⟨h, rfl⟩
  next hlate =>
    split
    next h => exact .inr (.inl ⟨h, _, _, rfl⟩)
    next h => exact .inr (.inr ⟨by simpa using hlate, by simpa using h, rfl⟩)

/-- A connection that opens starts over. -/
theorem opened_heartbeat (c : Connection) :
    c.opened.heartbeat = c.heartbeat.reset c.now ∧ c.opened.now = c.now := by
  unfold opened
  dsimp only
  split <;> exact ⟨rfl, rfl⟩

theorem lose_heartbeat (c : Connection) :
    c.lose.heartbeat = c.heartbeat ∧ c.lose.now = c.now :=
  retreat_heartbeat _ 0

/-- The clock does not go back. -/
theorem Happens.now_le {l : Label} {fx : List Effect} (h : c.Happens d l fx c') :
    c.now ≤ c'.now := by
  cases h with
  | called | retried => exact (c.attempt_heartbeat _).2.ge
  | refused => exact (c.retreat_heartbeat _).2.ge
  | closed | hungUp | timedOut | broke => exact c.lose_heartbeat.2.ge
  | @notBuilt m ms ids => exact (lose_heartbeat { c with ids := ids }).2.ge
  | opened => exact c.opened_heartbeat.2.ge
  | subscribed m =>
    obtain ⟨ids, r, fs, h⟩ := subscribe_fst d c m
    rw [h]
  | unsubscribed m =>
    obtain ⟨ids, r, fs, h⟩ := unsubscribe_fst d c m
    rw [h]
  | passed time => exact Nat.le_add_right _ time
  | _ => exact le_rfl

/-- A connection that is open was open before, unless it has just opened. -/
theorem Happens.isOpen {l : Label} {fx : List Effect} (h : c.Happens d l fx c')
    (accepted : l ≠ .accepted) (hopen : c'.stage.IsOpen) : c.stage.IsOpen := by
  cases h with
  | called | retried => exact absurd hopen (not_isOpen_attempt c _)
  | refused => exact absurd hopen (not_isOpen_retreat c _)
  | closed | notBuilt | hungUp | timedOut | broke => exact absurd hopen (not_isOpen_retreat _ 0)
  | abandoned | woken => exact absurd hopen id
  | opened => exact absurd rfl accepted
  | restored stage | restoredFrame stage | built stage | settled stage | sent stage | heard stage
  | pinged stage | pingedBy stage | checked stage =>
    rw [stage]
    trivial
  | subscribed m =>
    obtain ⟨ids, r, fs, h⟩ := subscribe_fst d c m
    rwa [h] at hopen
  | unsubscribed m =>
    obtain ⟨ids, r, fs, h⟩ := unsubscribe_fst d c m
    rwa [h] at hopen
  | asked | registered | passed => exact hopen

/-! ### What is seen of it -/

namespace Moment

/-- A frame is received. -/
def Hears (x : Moment d) : Prop := ∃ frame, x.label = .receive frame

/-- There is a sign of life: the connection opens, or a frame is received. -/
def IsSign (x : Moment d) : Prop := x.label = .accepted ∨ x.Hears

/-- A ping is sent. -/
def Pings (x : Moment d) : Prop := x.label = .check ∧ x.effects ≠ []

/-- The connection is given up after a look at the heartbeat. -/
def TimesOut (x : Moment d) : Prop := x.label = .check ∧ ¬x.after.stage.IsOpen

theorem Pings.not_isSign {x : Moment d} (h : x.Pings) : ¬x.IsSign := by
  rintro (hlabel | ⟨frame, hlabel⟩)
  all_goals exact nomatch h.1.symm.trans hlabel

/-- A look at the heartbeat is taken while the running call exchanges frames. -/
theorem of_check (x : Moment d) (hlabel : x.label = .check) :
    x.before.stage.IsOpen ∧ x.before.check d = (x.after, x.effects) := by
  obtain ⟨c, l, fx, c', hstep⟩ := x
  dsimp only at hlabel
  subst hlabel
  simp only [Connection.step] at hstep
  split at hstep
  next hs =>
    split at hstep
    next =>
      refine ⟨?_, Option.some.inj hstep⟩
      dsimp only
      rw [hs]
      trivial
    next => cases hstep
  next => cases hstep

/-- What is received is not answered by a ping. -/
theorem pinged_notMem_receive (c : Connection) (frame : Inbound) :
    .pinged ∉ (c.receive d frame).2 := by
  cases frame with
  | text t =>
    unfold receive
    simp only
    split <;> simp
  | ping | other | close => simp [receive]

/-- A ping frame is sent after a look at the heartbeat only. -/
theorem pings_of_pinged (x : Moment d) (h : .pinged ∈ x.effects) : x.Pings := by
  obtain ⟨c, l, fx, c', hstep⟩ := x
  cases step_happens hstep with
  | @heard due frame fx stage =>
    have hreceive := hstep
    simp only [Connection.step, stage, Option.some.injEq] at hreceive
    have hfx : (c.receive d frame).2 = fx := congrArg Prod.snd hreceive
    exact absurd h (hfx ▸ pinged_notMem_receive c frame)
  | pinged => exact ⟨rfl, by simp⟩
  | _ => simp at h

/-- **When a ping is sent.** -/
theorem pings_iff (x : Moment d) (hlabel : x.label = .check) :
    x.Pings ↔ x.before.heartbeat.shouldPing x.before.now = true := by
  obtain ⟨-, hx⟩ := x.of_check hlabel
  rw [Pings, and_iff_right hlabel]
  rcases check_cases d x.before with ⟨hlate, h⟩ | ⟨hdue, ids, e, h⟩ | ⟨-, hdue, h⟩
  all_goals
    obtain ⟨-, heffects⟩ := Prod.mk.inj (hx.symm.trans h)
    rw [heffects]
  · simpa using fun hdue =>
      x.before.heartbeat.not_isTimedOut_and_shouldPing x.before.now ⟨hlate, hdue⟩
  · simp [hdue]
  · simp [hdue]

/-- **When a connection is given up.** -/
theorem timesOut_iff (x : Moment d) (hlabel : x.label = .check) :
    x.TimesOut ↔ x.before.heartbeat.isTimedOut x.before.now = true := by
  obtain ⟨-, hx⟩ := x.of_check hlabel
  rw [TimesOut, and_iff_right hlabel]
  rcases check_cases d x.before with ⟨hlate, h⟩ | ⟨hdue, ids, e, h⟩ | ⟨hlate, -, h⟩
  all_goals
    obtain ⟨hafter, -⟩ := Prod.mk.inj (hx.symm.trans h)
    rw [hafter]
  · exact iff_of_true (not_isOpen_retreat _ 0) hlate
  · exact iff_of_false (not_not_intro trivial) fun hlate =>
      x.before.heartbeat.not_isTimedOut_and_shouldPing x.before.now ⟨hlate, hdue⟩
  · exact iff_of_false (not_not_intro trivial) (by simp [hlate])

/-- **What a moment does to the heartbeat.** If it does nothing to it, it is no sign of life and no
ping, or the connection is lost. -/
theorem heartbeat_cases (x : Moment d) :
    (x.label = .accepted ∧ x.after.heartbeat = x.before.heartbeat.reset x.before.now) ∨
    (x.Hears ∧ x.after.heartbeat = x.before.heartbeat.message x.before.now) ∨
    (x.Pings ∧ x.after.heartbeat = x.before.heartbeat.ping x.before.now) ∨
    ((x.after.stage.IsOpen → ¬x.IsSign ∧ ¬x.Pings) ∧
      x.after.heartbeat = x.before.heartbeat) := by
  obtain ⟨c, l, fx, c', hstep⟩ := x
  cases step_happens hstep with
  | opened => exact .inl ⟨rfl, c.opened_heartbeat.1⟩
  | heard => exact .inr (.inl ⟨⟨_, rfl⟩, rfl⟩)
  | pinged | pingedBy => exact .inr (.inr (.inl ⟨⟨rfl, by simp⟩, rfl⟩))
  | called | retried =>
    exact .inr (.inr (.inr ⟨by simp [IsSign, Hears, Pings], (c.attempt_heartbeat _).1⟩))
  | refused =>
    exact .inr (.inr (.inr ⟨by simp [IsSign, Hears, Pings], (c.retreat_heartbeat _).1⟩))
  | hungUp | timedOut | closed | notBuilt | broke =>
    refine .inr (.inr (.inr ⟨fun hopen => ?_, (lose_heartbeat _).1⟩))
    exact absurd hopen (not_isOpen_retreat _ 0)
  | subscribed m =>
    obtain ⟨ids, r, fs, h⟩ := subscribe_fst d c m
    have hsame := congrArg heartbeat h
    exact .inr (.inr (.inr ⟨by simp [IsSign, Hears, Pings], hsame⟩))
  | unsubscribed m =>
    obtain ⟨ids, r, fs, h⟩ := unsubscribe_fst d c m
    have hsame := congrArg heartbeat h
    exact .inr (.inr (.inr ⟨by simp [IsSign, Hears, Pings], hsame⟩))
  | abandoned | asked | woken | registered | restored | restoredFrame | built | settled | sent
  | checked | passed => exact .inr (.inr (.inr ⟨by simp [IsSign, Hears, Pings], rfl⟩))

end Moment

/-! ### The connection of the running call -/

/-- **The connection that is open**, with the moment `o` at which it was opened and all moments `ys`
since. -/
structure OpenSince (xs : List (Moment d)) (o : Moment d) (ys : List (Moment d)) : Prop where
  last : o :: ys <:+ xs
  opened : o.label = .accepted
  stays : ∀ y ∈ ys, y.label ≠ .accepted ∧ y.after.stage.IsOpen

/-- **A ping that was not answered**: no frame was received after it. -/
def Unanswered (ys : List (Moment d)) (p : Moment d) : Prop :=
  ∃ before after, ys = before ++ p :: after ∧ p.Pings ∧ ∀ y ∈ after, ¬y.Hears

/-- **What the heartbeat knows of a connection**: when the last sign of life came, and when the
ping was sent that is unanswered. -/
structure Attentive (o : Moment d) (ys : List (Moment d)) (h : Heartbeat) : Prop where
  last : IsGreatest {t : Instant | ∃ y ∈ o :: ys, y.IsSign ∧ t = y.before.now} h.lastMessage
  sent : ∀ t, h.pingSent = some t ↔ ∃ p, Unanswered ys p ∧ t = p.before.now

variable {xs ys : List (Moment d)} {o x p : Moment d}

/-- A connection that was opened just now. -/
theorem OpenSince.opening (xs : List (Moment d)) (hx : x.label = .accepted) :
    OpenSince (xs ++ [x]) x [] :=
  ⟨List.suffix_append xs [x], hx, by simp⟩

/-- A connection that stays open. -/
theorem OpenSince.snoc (h : OpenSince xs o ys) (hx : x.label ≠ .accepted)
    (hopen : x.after.stage.IsOpen) : OpenSince (xs ++ [x]) o (ys ++ [x]) := by
  obtain ⟨older, rfl⟩ := h.last
  refine ⟨⟨older, by simp⟩, h.opened, ?_⟩
  rw [List.forall_mem_append, List.forall_mem_singleton]
  exact ⟨h.stays, hx, hopen⟩

theorem unanswered_snoc :
    Unanswered (ys ++ [x]) p ↔ (p = x ∧ x.Pings) ∨ (¬x.Hears ∧ Unanswered ys p) := by
  constructor
  · rintro ⟨before, after, heq, hp, hdeaf⟩
    rcases List.eq_nil_or_concat' after with rfl | ⟨after, y, rfl⟩
    · obtain ⟨-, hx⟩ := List.append_inj' heq rfl
      obtain rfl := List.singleton_inj.mp hx
      exact .inl ⟨rfl, hp⟩
    · rw [← List.cons_append, ← List.append_assoc] at heq
      obtain ⟨hys, hx⟩ := List.append_inj' heq rfl
      obtain rfl := List.singleton_inj.mp hx
      rw [List.forall_mem_append, List.forall_mem_singleton] at hdeaf
      exact .inr ⟨hdeaf.2, before, after, hys, hp, hdeaf.1⟩
  · rintro (⟨rfl, hp⟩ | ⟨hx, before, after, rfl, hp, hdeaf⟩)
    · exact ⟨ys, [], rfl, hp, by simp⟩
    · refine ⟨before, after ++ [x], by simp, hp, ?_⟩
      rw [List.forall_mem_append, List.forall_mem_singleton]
      exact ⟨hdeaf, hx⟩

namespace Attentive

/-- A connection that was opened just now. -/
theorem reset (h : Heartbeat) (hx : x.label = .accepted) :
    Attentive x [] (h.reset x.before.now) where
  last := by
    refine ⟨⟨x, by simp, .inl hx, rfl⟩, ?_⟩
    rintro t ⟨y, hy, -, rfl⟩
    obtain rfl := List.mem_singleton.mp hy
    exact le_rfl
  sent t := by simp [Heartbeat.reset, Unanswered]

/-- A frame is received. It answers whatever ping there was. -/
theorem message (h : Heartbeat) (hx : x.Hears)
    (past : ∀ y ∈ o :: ys, y.before.now ≤ x.before.now) :
    Attentive o (ys ++ [x]) (h.message x.before.now) where
  last := by
    refine ⟨⟨x, by simp, .inr hx, rfl⟩, ?_⟩
    rintro t ⟨y, hy, -, rfl⟩
    rw [← List.cons_append, List.mem_append, List.mem_singleton] at hy
    rcases hy with hy | rfl
    · exact Int.ofNat_le.mpr (past y hy)
    · exact le_rfl
  sent t := by
    have hmute : ¬x.Pings := fun hp => hp.not_isSign (.inr hx)
    simp [Heartbeat.message, unanswered_snoc, hx, hmute]

variable {h : Heartbeat}

theorem last_snoc (known : Attentive o ys h) (hx : ¬x.IsSign) :
    IsGreatest {t : Instant | ∃ y ∈ o :: (ys ++ [x]), y.IsSign ∧ t = y.before.now}
      h.lastMessage := by
  have hsame : ∀ t : Instant, (∃ y ∈ o :: (ys ++ [x]), y.IsSign ∧ t = y.before.now) ↔
      ∃ y ∈ o :: ys, y.IsSign ∧ t = y.before.now := by
    intro t
    simp only [← List.cons_append, List.mem_append, List.mem_singleton, or_and_right, exists_or,
      exists_eq_left, hx, false_and, or_false]
  simpa only [hsame] using known.last

/-- The last sign of life is not in the future. -/
theorem lastMessage_le (known : Attentive o ys h) {now : ℕ}
    (past : ∀ y ∈ o :: ys, y.before.now ≤ now) : h.lastMessage ≤ now := by
  obtain ⟨y, hy, -, heq⟩ := known.last.1
  rw [heq]
  exact Int.ofNat_le.mpr (past y hy)

/-- Nothing was heard for some time if all signs of life lie behind. -/
theorem lastMessage_add_le_iff (known : Attentive o ys h) {interval now : ℕ} :
    h.lastMessage + interval ≤ now ↔
      ∀ y ∈ o :: ys, y.IsSign → y.before.now + interval ≤ now := by
  constructor
  · intro hle y hy hsign
    have hlast : (y.before.now : Instant) ≤ h.lastMessage := known.last.2 ⟨y, hy, hsign, rfl⟩
    exact Int.ofNat_le.mp (le_trans (Int.add_le_add_right hlast interval) hle)
  · intro hall
    obtain ⟨y, hy, hsign, heq⟩ := known.last.1
    rw [heq]
    exact Int.ofNat_le.mpr (hall y hy hsign)

/-- No ping is unanswered if each was followed by a frame. -/
theorem pingSent_eq_none_iff (known : Attentive o ys h) :
    h.pingSent = none ↔
      ∀ before p after, ys = before ++ p :: after → p.Pings → ∃ y ∈ after, y.Hears := by
  rw [Option.eq_none_iff_forall_ne_some]
  constructor
  · intro hnone before p after hys hp
    by_contra! hdeaf
    exact hnone p.before.now ((known.sent _).mpr ⟨p, ⟨before, after, hys, hp, hdeaf⟩, rfl⟩)
  · intro hall t ht
    obtain ⟨p, ⟨before, after, hys, hp, hdeaf⟩, -⟩ := (known.sent t).mp ht
    obtain ⟨y, hy, hhears⟩ := hall before p after hys hp
    exact hdeaf y hy hhears

/-- A ping sent on the connection is unanswered for some time. -/
theorem exists_pingSent_iff (known : Attentive o ys h) {timeout now : ℕ} :
    (∃ sent, h.pingSent = some sent ∧ sent + timeout < (now : Instant)) ↔
      ∃ p, Unanswered ys p ∧ p.before.now + timeout < now := by
  constructor
  · rintro ⟨sent, hsent, hlt⟩
    obtain ⟨p, hp, rfl⟩ := (known.sent sent).mp hsent
    exact ⟨p, hp, Int.ofNat_lt.mp hlt⟩
  · rintro ⟨p, hp, hlt⟩
    exact ⟨p.before.now, (known.sent _).mpr ⟨p, hp, rfl⟩, Int.ofNat_lt.mpr hlt⟩

/-- A ping is sent. -/
theorem ping (known : Attentive o ys h) (hx : x.Pings) (due : h.pingSent = none) :
    Attentive o (ys ++ [x]) (h.ping x.before.now) where
  last := known.last_snoc hx.not_isSign
  sent t := by
    have hanswered : ∀ p, ¬Unanswered ys p := fun p hp =>
      nomatch due.symm.trans ((known.sent _).mpr ⟨p, hp, rfl⟩)
    simp [Heartbeat.ping, unanswered_snoc, hx, hanswered, eq_comm]

/-- Neither a sign of life nor a ping. -/
theorem still (known : Attentive o ys h) (hmute : ¬x.Pings) (hsign : ¬x.IsSign) :
    Attentive o (ys ++ [x]) h where
  last := known.last_snoc hsign
  sent t := by
    have hdeaf : ¬x.Hears := fun hx => hsign (.inr hx)
    simp [known.sent, unanswered_snoc, hmute, hdeaf]

end Attentive

/-- **What is kept of the past.** -/
structure Watched (xs : List (Moment d)) (c : Connection) : Prop where
  interval : c.heartbeat.pingInterval = ofMillis c.config.pingInterval
  timeout : c.heartbeat.pongTimeout = ofMillis c.config.pongTimeout
  past : ∀ x ∈ xs, x.before.now ≤ c.now
  attentive : c.stage.IsOpen → ∃ o ys, OpenSince xs o ys ∧ Attentive o ys c.heartbeat

/-- A moment leaves the ping interval and the pong timeout alone. -/
theorem Moment.heartbeat_settings (x : Moment d) :
    x.after.heartbeat.pingInterval = x.before.heartbeat.pingInterval ∧
      x.after.heartbeat.pongTimeout = x.before.heartbeat.pongTimeout := by
  rcases x.heartbeat_cases with ⟨-, h⟩ | ⟨-, h⟩ | ⟨-, h⟩ | ⟨-, h⟩
  all_goals
    rw [h]
    exact ⟨rfl, rfl⟩

/-- **Every moment keeps the heartbeat attentive.** -/
theorem Watched.snoc (h : Watched xs x.before) : Watched (xs ++ [x]) x.after := by
  obtain ⟨hinterval, htimeout⟩ := x.heartbeat_settings
  refine ⟨?_, ?_, ?_, fun hopen => ?_⟩
  · rw [hinterval, x.happens.config, h.interval]
  · rw [htimeout, x.happens.config, h.timeout]
  · rw [List.forall_mem_append, List.forall_mem_singleton]
    exact ⟨fun y hy => (h.past y hy).trans x.happens.now_le, x.happens.now_le⟩
  · by_cases haccepted : x.label = .accepted
    · refine ⟨x, [], .opening xs haccepted, ?_⟩
      rcases x.heartbeat_cases with ⟨-, heq⟩ | ⟨⟨_, hlabel⟩, -⟩ | ⟨hpings, -⟩ | ⟨hnone, -⟩
      · exact heq ▸ .reset _ haccepted
      · exact nomatch haccepted.symm.trans hlabel
      · exact absurd (.inl haccepted) hpings.not_isSign
      · exact absurd (.inl haccepted) (hnone hopen).1
    · obtain ⟨o, ys, hsince, hknown⟩ := h.attentive (x.happens.isOpen haccepted hopen)
      have hpast : ∀ y ∈ o :: ys, y.before.now ≤ x.before.now := fun y hy =>
        h.past y (hsince.last.subset hy)
      refine ⟨o, ys ++ [x], hsince.snoc haccepted hopen, ?_⟩
      rcases x.heartbeat_cases with ⟨hlabel, -⟩ | ⟨hhears, heq⟩ | ⟨hpings, heq⟩ | ⟨hnone, heq⟩
      · exact absurd hlabel haccepted
      · exact heq ▸ .message _ hhears hpast
      · have hdue := (x.pings_iff hpings.1).mp hpings
        rw [Heartbeat.shouldPing_iff (hknown.lastMessage_le hpast)] at hdue
        exact heq ▸ hknown.ping hpings hdue.1
      · exact heq ▸ hknown.still (hnone hopen).2 (hnone hopen).1

theorem watched_of_course {config : ConnectionConfig} {markets : List MarketId}
    (h : Course (ofConfig config markets) xs c) : Watched xs c := by
  induction h with
  | nil => exact ⟨rfl, rfl, by simp, fun hopen => absurd hopen id⟩
  | snoc _ ih => exact ih.snoc

/-- **Connections are kept alive.** However frames, requests, looks at the heartbeat, losses and new
connections follow each other, pings are sent after a look at the heartbeat only, and this concerns
the connection that is open, since it was opened. A ping is sent exactly when the opening and every
frame received since lie behind by the ping interval and every ping sent since was answered by a
later frame. The connection is given up exactly when a ping sent on it lies behind by more than the
pong timeout, and no frame was received after it. At no instant both are due. -/
theorem keptAlive_of_course {config : ConnectionConfig} {markets : List MarketId}
    (h : Course (ofConfig config markets) xs x.before) :
    (.pinged ∈ x.effects → x.Pings) ∧
    (x.label = .check → ∃ o ys, OpenSince xs o ys ∧
      (x.Pings ↔
        (∀ y ∈ o :: ys, y.IsSign →
          y.before.now + ofMillis config.pingInterval ≤ x.before.now) ∧
        ∀ before p after, ys = before ++ p :: after → p.Pings → ∃ y ∈ after, y.Hears) ∧
      (x.TimesOut ↔
        ∃ p, Unanswered ys p ∧ p.before.now + ofMillis config.pongTimeout < x.before.now)) ∧
    ∀ now, ¬(x.before.heartbeat.isTimedOut now = true ∧
      x.before.heartbeat.shouldPing now = true) := by
  refine ⟨x.pings_of_pinged, fun hlabel => ?_,
    x.before.heartbeat.not_isTimedOut_and_shouldPing⟩
  have hwatched := watched_of_course h
  obtain ⟨o, ys, hsince, hknown⟩ := hwatched.attentive (x.of_check hlabel).1
  have hpast : ∀ y ∈ o :: ys, y.before.now ≤ x.before.now := fun y hy =>
    hwatched.past y (hsince.last.subset hy)
  have hconfig : x.before.config = config := config_of_course h
  have hinterval := hconfig ▸ hwatched.interval
  have htimeout := hconfig ▸ hwatched.timeout
  refine ⟨o, ys, hsince, ?_, ?_⟩
  · rw [x.pings_iff hlabel, Heartbeat.shouldPing_iff (hknown.lastMessage_le hpast), hinterval,
      hknown.lastMessage_add_le_iff, hknown.pingSent_eq_none_iff, and_comm]
  · rw [x.timesOut_iff hlabel, Heartbeat.isTimedOut_iff, htimeout, hknown.exists_pingSent_iff]

/-- A connection is lost while a ping is unanswered. On the next one a ping is sent and answered,
and another one is not. -/
def sampleWatch : List (Moment signs) × Connection :=
  moments signs (ofConfig {} [])
    [.call, .accepted, .proceed, .pass (ofMillis 30000), .check, .broken, .pass (ofMillis 1000),
      .proceed, .accepted, .proceed, .pass (ofMillis 30000), .check, .receive .other,
      .pass (ofMillis 30000), .check, .pass (ofMillis 10001)]

theorem isSome_sampleLook : (sampleWatch.2.step signs .check).isSome = true := by decide +kernel

/-- The look at the heartbeat that follows. -/
def sampleLook : Moment signs where
  before := sampleWatch.2
  label := .check
  effects := ((sampleWatch.2.step signs .check).get isSome_sampleLook).2
  after := ((sampleWatch.2.step signs .check).get isSome_sampleLook).1
  step := (Option.some_get isSome_sampleLook).symm

theorem keptAlive_of_course_sample :
    sampleLook.TimesOut ∧ ∃ o ys p, OpenSince sampleWatch.1 o ys ∧ Unanswered ys p ∧
      p.before.now + ofMillis 10000 < sampleLook.before.now := by
  have hlost : sampleLook.TimesOut := ⟨rfl, by decide +kernel⟩
  obtain ⟨o, ys, hsince, -, htimesOut⟩ :=
    (keptAlive_of_course (x := sampleLook) (course_moments _ _)).2.1 rfl
  obtain ⟨p, hp, hlate⟩ := htimesOut.mp hlost
  exact ⟨hlost, o, ys, p, hsince, hp, hlate⟩

end Connection

end LiveBook
