import LiveBook.Book.Keeper
import LiveBook.Proofs.Book.Sequences

/-!
# What a keeper does with a message

A keeper has five ways of dealing with a message, and the two lemmas
`LiveBook.BookKeeper.processDiff_cases` and `LiveBook.BookKeeper.processSnapshot_cases`
say exactly when it takes which, and what it makes of its book. Everything that is proved
about keepers starts from these two, and none of it looks at the functions again.

The diffs that a keeper accepts on its way, `LiveBook.BookKeeper.accepted`, are what its
window is made of: it holds the last of them
(`LiveBook.BookKeeper.recent_processAll`).
-/

namespace LiveBook

/-! ### Validity -/

/-- A level whose price and size are not negative. -/
def Level.IsValid (l : Level) : Prop := l.price.isNegative = false ∧ l.size.isNegative = false

instance (l : Level) : Decidable l.IsValid := inferInstanceAs (Decidable (_ ∧ _))

/-- A diff of valid levels. -/
def Diff.IsValid (d : Diff) : Prop := ∀ l ∈ d.bids ++ d.asks, l.IsValid

instance (d : Diff) : Decidable d.IsValid := inferInstanceAs (Decidable (∀ l ∈ _, _))

/-- A snapshot of valid levels. -/
def Snapshot.IsValid (s : Snapshot) : Prop := ∀ l ∈ s.bids ++ s.asks, l.IsValid

instance (s : Snapshot) : Decidable s.IsValid := inferInstanceAs (Decidable (∀ l ∈ _, _))

namespace Book

theorem levelFault?_eq_none_iff {ls : List Level} :
    levelFault? ls = none ↔ ∀ l ∈ ls, l.IsValid := by
  induction ls with
  | nil => simp [levelFault?]
  | cons l ls ih =>
    rw [List.forall_mem_cons, ← ih, Level.IsValid, levelFault?]
    cases l.price.isNegative <;> cases l.size.isNegative <;> simp

/-- A book takes an update exactly if all its levels are valid. -/
theorem validate_eq_ok_iff {b : Book} {bids asks : List Level} {n : ℕ} :
    b.validate bids asks n = .ok () ↔ ∀ l ∈ bids ++ asks, l.IsValid := by
  rw [List.forall_mem_append, ← levelFault?_eq_none_iff, ← levelFault?_eq_none_iff,
    ← Option.or_eq_none_iff, validate]
  cases (levelFault? bids).or (levelFault? asks) <;> simp

theorem validateAll_eq_ok_iff {b : Book} {diffs : List Diff} :
    b.validateAll diffs = .ok () ↔ ∀ d ∈ diffs, d.IsValid := by
  induction diffs with
  | nil => simp [validateAll]
  | cons d diffs ih =>
    rw [List.forall_mem_cons, ← ih, Diff.IsValid, ← validate_eq_ok_iff (b := b) (n := d.sequence)]
    rw [validateAll]
    cases b.validate d.bids d.asks d.sequence with
    | error e => simp [bind, Except.bind]
    | ok u => simp [bind, Except.bind]

/-- The book that a restore leads to. -/
def restored (b : Book) (s : Snapshot) (newer : List Diff) : Book :=
  (b.replaceLevels s.bids s.asks s.sequence).mergeAll newer

/-- **A restore succeeds exactly if** the snapshot is one of the market and valid, and all
diffs that are newer are valid. -/
theorem restore_cases (b : Book) (s : Snapshot) (recent : List Diff) :
    (¬(s.market = b.market ∧ s.IsValid ∧ ∀ d ∈ recent, s.sequence < d.sequence → d.IsValid) ∧
      ∃ e, b.restore s recent = .error e) ∨
    ((s.market = b.market ∧ s.IsValid ∧ ∀ d ∈ recent, s.sequence < d.sequence → d.IsValid) ∧
      b.restore s recent =
        .ok (b.restored s (recent.filter (s.sequence < ·.sequence)),
          (recent.filter (s.sequence < ·.sequence)).length)) := by
  have hall : (∀ d ∈ recent, s.sequence < d.sequence → d.IsValid) ↔
      b.validateAll (recent.filter (s.sequence < ·.sequence)) = .ok () := by
    simp [validateAll_eq_ok_iff]
  rw [hall, Snapshot.IsValid, ← validate_eq_ok_iff (b := b) (n := s.sequence)]
  unfold restore applySnapshot
  by_cases hm : s.market = b.market
  · -- the diffs are validated first, so a bad one hides what is wrong with the snapshot
    cases hv : b.validateAll (recent.filter (s.sequence < ·.sequence)) with
    | error e => exact Or.inl ⟨by simp, e, by simp [hm, hv, bind, Except.bind]⟩
    | ok u =>
      cases b.validate s.bids s.asks s.sequence with
      | error e => exact Or.inl ⟨by simp, e, by simp [hm, hv, bind, Except.bind]⟩
      | ok u' =>
        refine Or.inr ⟨⟨hm, rfl, rfl⟩, ?_⟩
        simp [hm, hv, bind, Except.bind, pure, Except.pure, restored]
  · refine Or.inl ⟨fun h => hm h.1, .marketMismatch b.market s.market, ?_⟩
    simp [hm, bind, Except.bind, throw, throwThe, MonadExceptOf.throw]

end Book

/-! ### The ways of dealing with a message -/

namespace BookKeeper

variable (policy : StalenessPolicy) (k : BookKeeper)

/-- **What a keeper does with a diff**: it drops a stale one, refuses an invalid one, and
merges any other into its book and remembers it. -/
theorem processDiff_cases (d : Diff) :
    (k.book.isStale policy d.sequence = true ∧ k.process policy (.diff d) = (k, .stale)) ∨
    (k.book.isStale policy d.sequence = false ∧ ¬d.IsValid ∧
      ∃ e, k.process policy (.diff d) = (k, .refused e)) ∨
    (k.book.isStale policy d.sequence = false ∧ d.IsValid ∧
      k.process policy (.diff d) =
        (⟨k.book.mergeDiff d.bids d.asks d.sequence, k.recent.push d⟩, .applied)) := by
  rw [Diff.IsValid, ← Book.validate_eq_ok_iff (b := k.book) (n := d.sequence)]
  unfold process processDiff
  cases hstale : k.book.isStale policy d.sequence with
  | true => exact Or.inl ⟨rfl, by simp [hstale]⟩
  | false =>
    refine Or.inr ?_
    cases hv : k.book.validate d.bids d.asks d.sequence with
    | error e => exact Or.inl ⟨rfl, by simp, e, by simp [hstale, Book.applyDiff_eq, hv, Except.map]⟩
    | ok u => exact Or.inr ⟨rfl, rfl, by simp [hstale, Book.applyDiff_eq, hv, Except.map]⟩

/-- The remembered diffs that are newer than a sequence number. -/
def newer (n : ℕ) : List Diff := k.recent.toList.filter (n < ·.sequence)

/-- Whether a keeper takes a snapshot: it is one of the market and valid, and so are the
diffs that are to be applied on top of it. -/
def Admits (s : Snapshot) : Prop :=
  s.market = k.book.market ∧ s.IsValid ∧
    ∀ d ∈ k.recent.toList, s.sequence < d.sequence → d.IsValid

instance (s : Snapshot) : Decidable (k.Admits s) := inferInstanceAs (Decidable (_ ∧ _ ∧ _))

/-- **What a keeper does with a snapshot**: it refuses it, or it replaces its book by the
snapshot and applies on top what it remembers and is newer. -/
theorem processSnapshot_cases (s : Snapshot) :
    (¬k.Admits s ∧ ∃ e, k.process policy (.snapshot s) = (k, .refused e)) ∨
    (k.Admits s ∧ k.process policy (.snapshot s) =
      (⟨k.book.restored s (k.newer s.sequence), k.recent⟩,
        .restored (k.newer s.sequence).length)) := by
  unfold process processSnapshot
  rcases k.book.restore_cases s k.recent.toList with ⟨hno, e, he⟩ | ⟨hyes, hok⟩
  · exact Or.inl ⟨hno, e, by simp only [he]⟩
  · exact Or.inr ⟨hyes, by simp only [hok]; rfl⟩

/-! ### The diffs that are accepted -/

/-- The diff that a keeper accepts with a message, if it does. -/
def acceptedNow (m : BookMessage) : List Diff :=
  match m, (k.process policy m).2 with
  | .diff d, .applied => [d]
  | _, _ => []

/-- **The diffs that a keeper accepts** from messages, in their order. -/
def accepted (policy : StalenessPolicy) (k : BookKeeper) : List BookMessage → List Diff
  | [] => []
  | m :: ms => k.acceptedNow policy m ++ accepted policy (k.process policy m).1 ms

theorem accepted_append (ms ms' : List BookMessage) :
    k.accepted policy (ms ++ ms') =
      k.accepted policy ms ++ (k.processAll policy ms).accepted policy ms' := by
  induction ms generalizing k with
  | nil => rfl
  | cons m ms ih =>
    rw [List.cons_append, accepted, accepted, ih, processAll_cons, List.append_assoc]

theorem recent_process (m : BookMessage) :
    (k.process policy m).1.recent = k.recent.pushAll (k.acceptedNow policy m) := by
  unfold acceptedNow
  cases m with
  | diff d =>
    rcases k.processDiff_cases policy d with ⟨-, h⟩ | ⟨-, -, e, h⟩ | ⟨-, -, h⟩ <;> rw [h] <;> rfl
  | snapshot s =>
    rcases k.processSnapshot_cases policy s with ⟨-, e, h⟩ | ⟨-, h⟩ <;> rw [h] <;> rfl

/-- **The window holds what was accepted last.** -/
theorem recent_processAll (ms : List BookMessage) :
    (k.processAll policy ms).recent = k.recent.pushAll (k.accepted policy ms) := by
  induction ms generalizing k with
  | nil => rfl
  | cons m ms ih =>
    rw [processAll_cons, ih, recent_process, accepted, Recent.pushAll, Recent.pushAll,
      Recent.pushAll, List.foldl_append]

/-- The window of a keeper that has begun with none. -/
theorem toList_recent_ofBook (b : Book) (window : ℕ) (ms : List BookMessage) :
    ((ofBook b window).processAll policy ms).recent.toList =
      ((ofBook b window).accepted policy ms).rtake (max window 1) := by
  rw [recent_processAll]
  exact Recent.toList_pushAll (Recent.bounded_ofCapacity window) _

end BookKeeper

/-! ### The diffs and the snapshots among messages -/

/-- The diff in a message. -/
def BookMessage.diff? : BookMessage → Option Diff
  | .diff d => some d
  | .snapshot _ => none

/-- The snapshot in a message. -/
def BookMessage.snapshot? : BookMessage → Option Snapshot
  | .diff _ => none
  | .snapshot s => some s

/-- The diffs among messages. -/
def diffsOf (ms : List BookMessage) : List Diff := ms.filterMap BookMessage.diff?

/-- The snapshots among messages. -/
def snapshotsOf (ms : List BookMessage) : List Snapshot := ms.filterMap BookMessage.snapshot?

theorem mem_diffsOf {ms : List BookMessage} {d : Diff} : d ∈ diffsOf ms ↔ .diff d ∈ ms := by
  rw [diffsOf, List.mem_filterMap]
  constructor
  · rintro ⟨m, hm, hd⟩
    cases m with
    | diff e => exact Option.some.inj hd ▸ hm
    | snapshot s => exact absurd hd (by simp [BookMessage.diff?])
  · exact fun h => ⟨_, h, rfl⟩

theorem mem_snapshotsOf {ms : List BookMessage} {s : Snapshot} :
    s ∈ snapshotsOf ms ↔ .snapshot s ∈ ms := by
  rw [snapshotsOf, List.mem_filterMap]
  constructor
  · rintro ⟨m, hm, hs⟩
    cases m with
    | diff e => exact absurd hs (by simp [BookMessage.snapshot?])
    | snapshot t => exact Option.some.inj hs ▸ hm
  · exact fun h => ⟨_, h, rfl⟩

@[simp] theorem diffsOf_diff (d : Diff) : diffsOf [.diff d] = [d] := rfl

@[simp] theorem diffsOf_snapshot (s : Snapshot) : diffsOf [.snapshot s] = [] := rfl

@[simp] theorem snapshotsOf_diff (d : Diff) : snapshotsOf [.diff d] = [] := rfl

@[simp] theorem snapshotsOf_snapshot (s : Snapshot) : snapshotsOf [.snapshot s] = [s] := rfl

@[simp] theorem diffsOf_append (ms ms' : List BookMessage) :
    diffsOf (ms ++ ms') = diffsOf ms ++ diffsOf ms' :=
  List.filterMap_append

@[simp] theorem snapshotsOf_append (ms ms' : List BookMessage) :
    snapshotsOf (ms ++ ms') = snapshotsOf ms ++ snapshotsOf ms' :=
  List.filterMap_append

end LiveBook
