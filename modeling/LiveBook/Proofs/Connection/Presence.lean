import LiveBook.Proofs.Connection.Rules

/-!
# When a connection says that it is connected

The running call says that it is connected when the connection opens, and takes this back when the
connection is lost. Nothing is taken back if the call is dropped in between: the connection is gone,
but goes on to say that it is connected, until the next call. Requests to subscribe are accepted
meanwhile.

* `LiveBook.Connection.deserted` – whether the running call was dropped while it was connected, and
  nobody has called since;
* `LiveBook.Connection.Truthful` – what is said, by what is the case;
* `LiveBook.Connection.connected_of_course` – this holds after any run;
* `LiveBook.Connection.subscribes_when_deserted` – a request that is accepted though there is no
  connection.
-/

namespace LiveBook.Connection

variable {d : Dialect} {c c' : Connection} {m : MarketId}

/-! ### Calls that were dropped -/

/-- Somebody calls to run the connection. -/
def Moment.calls (x : Moment d) : Bool :=
  match x.label with
  | .call => true
  | _ => false

/-- The running call is dropped while it is connected. -/
def Moment.deserts (x : Moment d) : Bool :=
  match x.label with
  | .abandon => x.before.stage.IsOpen
  | _ => false

/-- **The running call was dropped while it was connected,** and nobody has called since. -/
def deserted (xs : List (Moment d)) : Bool := (xs.rtakeWhile (!·.calls)).any Moment.deserts

theorem deserted_snoc (xs : List (Moment d)) (x : Moment d) :
    deserted (xs ++ [x]) = (!x.calls && (deserted xs || x.deserts)) := by
  cases hx : x.calls with
  | true =>
    rw [deserted, List.rtakeWhile_concat_neg _ _ _ (by simp [hx])]
    rfl
  | false =>
    rw [deserted, List.rtakeWhile_concat_pos _ _ _ (by simp [hx])]
    simp [deserted]

/-! ### What is said -/

theorem state_attempt (c : Connection) (failed : ℕ) : (c.attempt failed).state ≠ .connected := by
  rcases attempt_cases c failed with ⟨-, h⟩ | ⟨-, h⟩ <;> rw [h] <;> exact nofun

theorem state_retreat (c : Connection) (failed : ℕ) : (c.retreat failed).state ≠ .connected := by
  rcases retreat_cases c failed with ⟨-, h⟩ | ⟨-, -, -, h⟩ | ⟨-, -, h⟩ <;> rw [h] <;> exact nofun

/-- **What a connection says of itself.** It says that it is connected if the running call is, or if
there is none because it was dropped while it was. -/
structure Truthful (deserted : Bool) (c : Connection) : Prop where
  connected_iff : c.state = .connected ↔ c.stage.IsOpen ∨ deserted = true
  idle : deserted = true → c.stage = .idle

namespace Truthful

variable {b b' : Bool}

/-- Nobody has deserted a connection with a running call. -/
theorem not_deserted (h : Truthful b c) (hc : c.stage ≠ .idle) : b = false := by
  cases b with
  | true => exact absurd (h.idle rfl) hc
  | false => rfl

/-- There is no connection, and it does not say so. -/
theorem of_down (hstate : c.state ≠ .connected) (hstage : ¬c.stage.IsOpen) : Truthful false c :=
  ⟨by simp [hstate, hstage], nofun⟩

/-- The running call is connected, and says so. -/
theorem of_open (hstate : c.state = .connected) (hstage : c.stage.IsOpen) : Truthful false c :=
  ⟨by simp [hstate, hstage], nofun⟩

/-- Neither what is said nor the stage changes. -/
theorem congr (h : Truthful b c) (hstate : c'.state = c.state) (hstage : c'.stage = c.stage) :
    Truthful b c' := by
  refine ⟨?_, ?_⟩
  · rw [hstate, hstage]
    exact h.connected_iff
  · rw [hstage]
    exact h.idle

/-- The running call stays connected. -/
theorem stay (h : Truthful b c) (hopen : c.stage.IsOpen) (hstate : c'.state = c.state)
    (hstage : c'.stage.IsOpen) : Truthful false c' :=
  of_open (hstate.trans (h.connected_iff.mpr (.inl hopen))) hstage

/-- **The running call is dropped.** -/
theorem abandon (h : Truthful b c) (hc : c.stage.IsRunning) :
    Truthful c.stage.IsOpen { c with stage := .idle } := by
  have hb : b = false := h.not_deserted fun hidle => by rw [hidle] at hc; exact hc
  refine ⟨?_, fun _ => rfl⟩
  have hiff : c.state = .connected ↔ c.stage.IsOpen := by simpa [hb] using h.connected_iff
  have hidle : ¬Stage.idle.IsOpen := id
  rw [decide_eq_true_eq, or_iff_right hidle]
  exact hiff

end Truthful

/-- **Every moment keeps to this.** -/
theorem Moment.truthful (x : Moment d) {b : Bool} (h : Truthful b x.before) :
    Truthful (!x.calls && (b || x.deserts)) x.after := by
  obtain ⟨c, l, fx, c', hstep⟩ := x
  -- apart from calls and dropped calls, nothing is deserted that was not before
  have hsame : ∀ {b' : Bool} {c' : Connection}, Truthful b' c' → b = b' →
      Truthful (b || false) c' := by
    rintro b' c' h' rfl
    rwa [Bool.or_false]
  cases step_happens hstep with
  | called => exact .of_down (state_attempt c 0) (not_isOpen_attempt c 0)
  | abandoned running =>
    have hb : b = false := h.not_deserted fun hidle => by
      rw [hidle] at running
      exact running
    have habandon := h.abandon running
    rw [hb]
    exact habandon
  | asked | registered | passed => exact hsame (h.congr rfl rfl) rfl
  | subscribed m =>
    obtain ⟨ids, r, fs, hafter⟩ := subscribe_fst d c m
    have hstate := congrArg state hafter
    have hstage := congrArg stage hafter
    exact hsame (h.congr hstate hstage) rfl
  | unsubscribed m =>
    obtain ⟨ids, r, fs, hafter⟩ := unsubscribe_fst d c m
    have hstate := congrArg state hafter
    have hstage := congrArg stage hafter
    exact hsame (h.congr hstate hstage) rfl
  | closed stage | notBuilt stage | hungUp stage | timedOut stage =>
    exact hsame (.of_down (state_retreat _ 0) (not_isOpen_retreat _ 0))
      (h.not_deserted (by simp [stage]))
  | broke serving =>
    exact hsame (.of_down (state_retreat _ 0) (not_isOpen_retreat _ 0))
      (h.not_deserted fun hidle => by rw [hidle] at serving; exact serving)
  | woken stage =>
    exact hsame (.of_down nofun id) (h.not_deserted (by simp [stage]))
  | @refused failed stage =>
    exact hsame (.of_down (state_retreat c failed) (not_isOpen_retreat c failed))
      (h.not_deserted (by simp [stage]))
  | @retried failed due stage =>
    exact hsame (.of_down (state_attempt c failed) (not_isOpen_attempt c failed))
      (h.not_deserted (by simp [stage]))
  | opened stage =>
    refine hsame (.of_open c.opened_rest.1 ?_) (h.not_deserted (by simp [stage]))
    rcases opened_cases c with ⟨due, hs, -⟩ | ⟨hs, -⟩ <;> rw [hs] <;> trivial
  | restored stage | restoredFrame stage | built stage | settled stage | sent stage | heard stage
  | pinged stage | pingedBy stage | checked stage =>
    exact hsame (h.stay (by rw [stage]; trivial) rfl trivial) (h.not_deserted (by simp [stage]))

/-- A request to subscribe is refused and changes nothing if the connection says that it is not
connected. -/
theorem subscribe_of_not_connected (d : Dialect) (m : MarketId) (h : c.state ≠ .connected) :
    c.subscribe d m = (c, false) :=
  if_neg (by simpa [isConnected] using h)

theorem truthful_of_course {config : ConnectionConfig} {markets : List MarketId}
    {xs : List (Moment d)} (h : Course (ofConfig config markets) xs c) :
    Truthful (deserted xs) c := by
  induction h with
  | nil => exact .of_down nofun id
  | @snoc xs x _ ih => exact deserted_snoc xs x ▸ x.truthful ih

/-- **A connection that says that it is connected is connected, or was deserted.** However attempts,
losses, shutdowns, calls and dropped calls follow each other: it says so exactly if the running call
is connected, or was dropped while it was and nobody has called since. In all other states requests
to subscribe are refused and change nothing. -/
theorem connected_of_course {config : ConnectionConfig} {markets : List MarketId}
    {xs : List (Moment d)} (h : Course (ofConfig config markets) xs c) :
    (c.state = .connected ↔ c.stage.IsOpen ∨ deserted xs = true) ∧
      (deserted xs = true → c.stage = .idle) ∧
      (¬c.stage.IsOpen → deserted xs = false → ∀ m, c.subscribe d m = (c, false)) := by
  have htruthful := truthful_of_course h
  refine ⟨htruthful.connected_iff, htruthful.idle, fun hstage hdeserted m => ?_⟩
  refine subscribe_of_not_connected d m fun hstate => ?_
  rcases htruthful.connected_iff.mp hstate with hopen | htrue
  · exact hstage hopen
  · exact nomatch hdeserted.symm.trans htrue

/-- A connection opens, its call is dropped, and the next one fails to open it. -/
def sampleDesertion : List (Moment signs) × Connection :=
  moments signs (ofConfig {} []) [.call, .accepted, .proceed, .abandon, .call, .refused]

theorem connected_of_course_sample :
    sampleDesertion.1.length = 6 ∧
      sampleDesertion.2.subscribe signs ⟨"A"⟩ = (sampleDesertion.2, false) :=
  ⟨by decide +kernel,
    (connected_of_course (course_moments _ _)).2.2 (by decide +kernel) (by decide +kernel) _⟩

/-- A connection opens and its call is dropped. -/
def abandoned : List (Moment signs) × Connection :=
  moments signs (ofConfig {} []) [.call, .accepted, .abandon]

/-- **A request that is accepted though there is no connection.** It is registered and queued. -/
theorem subscribes_when_deserted :
    Course (ofConfig {} []) abandoned.1 abandoned.2 ∧ abandoned.2.stage = .idle ∧
      abandoned.2.state = .connected ∧ abandoned.2.outbound = [] ∧
      abandoned.2.registry = .empty ∧
      (abandoned.2.subscribe signs ⟨"A"⟩).2 = true ∧
      (abandoned.2.subscribe signs ⟨"A"⟩).1.registry = ⟨[⟨"A"⟩]⟩ ∧
      (abandoned.2.subscribe signs ⟨"A"⟩).1.outbound = ["+A"] := by
  refine ⟨course_moments _ _, ?_⟩
  decide +kernel

end LiveBook.Connection
