import Mathlib.Data.List.Basic
import Mathlib.Data.List.TakeWhile
import LiveBook.Feed.Replay
import LiveBook.Proofs.Feed.InitialBooks

/-!
# Loading a feed

A text is loaded line by line. Lines end with a line feed, which may have a carriage return in front
of it, and the last line may have no end. A line counts if it is not blank and does not begin with
`#`; every line is numbered.

* `LiveBook.Feed.Lines` – the lines of a text, of which there are some
  (`LiveBook.Feed.exists_lines`) and no others (`LiveBook.Feed.Lines.unique`);
* `LiveBook.Feed.Content` – what a line holds that counts;
* `LiveBook.Feed.Reads`, `LiveBook.Feed.Spoils` – lines that hold events, and those of which one
  does not;
* `LiveBook.Feed.loaded_of_text` – what a text is loaded to.

The reader takes a text apart at its line feeds alone and trims what it has got
(`LiveBook.Feed.readLines_splitLines`).
-/

namespace LiveBook

/-! ### White space around a text -/

namespace Text

variable {cs core front back : List Char}

/-- White space in front does not count. -/
theorem trimStart_append (blank : ∀ c ∈ front, isBlankChar c = true) :
    trimStart (front ++ cs) = trimStart cs :=
  List.dropWhile_append_of_pos blank

/-- There is nothing to drop if there is no white space in front. -/
theorem trimStart_of_head? (head : ∀ c ∈ cs.head?, isBlankChar c = false) : trimStart cs = cs := by
  cases cs with
  | nil => rfl
  | cons c cs => exact List.dropWhile_cons_of_neg (by simp [head c rfl])

theorem head?_trimStart (cs : List Char) : ∀ c ∈ (trimStart cs).head?, isBlankChar c = false := by
  intro c hc
  have h := List.head?_dropWhile_not isBlankChar cs
  rw [Option.mem_def] at hc
  rw [trimStart] at hc
  simpa [hc] using h

/-- **`core` is left of a text** without the white space at its ends. -/
structure IsTrimmed (cs core : List Char) : Prop where
  around : ∃ front back, cs = front ++ core ++ back ∧ ∀ c ∈ front ++ back, isBlankChar c = true
  head : ∀ c ∈ core.head?, isBlankChar c = false
  last : ∀ c ∈ core.getLast?, isBlankChar c = false

theorem isTrimmed_trimChars (cs : List Char) : IsTrimmed cs (trimChars cs) := by
  have hfront : cs = cs.takeWhile isBlankChar ++ trimStart cs :=
    List.takeWhile_append_dropWhile.symm
  have hback : trimStart cs =
      trimChars cs ++ ((trimStart cs).reverse.takeWhile isBlankChar).reverse := by
    rw [trimChars, trimStart, ← List.reverse_append]
    simp [trimStart]
  refine ⟨⟨cs.takeWhile isBlankChar, ((trimStart cs).reverse.takeWhile isBlankChar).reverse,
    ?_, ?_⟩, fun c hc => ?_, fun c hc => ?_⟩
  · rw [List.append_assoc, ← hback, ← hfront]
  · simp only [List.mem_append, List.mem_reverse]
    rintro c (hc | hc) <;> exact List.mem_takeWhile_imp hc
  · refine head?_trimStart cs c ?_
    rw [hback, List.head?_append, Option.mem_def, Option.mem_def.mp hc]
    rfl
  · rw [trimChars, List.getLast?_reverse] at hc
    exact head?_trimStart _ c hc

/-- **Trimming leaves this** and nothing else. -/
theorem isTrimmed_iff : IsTrimmed cs core ↔ core = trimChars cs := by
  refine ⟨?_, fun h => h ▸ isTrimmed_trimChars cs⟩
  rintro ⟨⟨front, back, rfl, hblank⟩, hhead, hlast⟩
  obtain ⟨hfront, hback⟩ := List.forall_mem_append.mp hblank
  rw [trimChars, List.append_assoc, trimStart_append hfront]
  cases core with
  | nil =>
    have hnone : trimStart back = [] := List.dropWhile_eq_nil_iff.mpr hback
    rw [List.nil_append, hnone]
    rfl
  | cons c cs =>
    have hstart : trimStart (c :: cs ++ back) = c :: cs ++ back :=
      trimStart_of_head? (by simpa using hhead)
    have hend : trimStart (c :: cs ++ back).reverse = (c :: cs).reverse := by
      rw [List.reverse_append, trimStart_append (by simpa using hback)]
      exact trimStart_of_head? (by rwa [List.head?_reverse])
    rw [hstart, hend, List.reverse_reverse]

theorem trimChars_append (blank : ∀ c ∈ back, isBlankChar c = true) :
    trimChars (cs ++ back) = trimChars cs := by
  obtain ⟨⟨front, rest, hcs, hblank⟩, hhead, hlast⟩ := isTrimmed_trimChars cs
  refine (isTrimmed_iff.mp ⟨⟨front, rest ++ back, ?_, ?_⟩, hhead, hlast⟩).symm
  · rw [← List.append_assoc, ← hcs]
  · rw [← List.append_assoc, List.forall_mem_append]
    exact ⟨hblank, blank⟩

end Text

namespace Feed

open Text (trimChars isBlankChar)

variable {received : Time.Timestamp} {cs line core rest : List Char} {ls ls' : List (List Char)}
  {es : List Event} {f f' : Feed} {n : ℕ}

/-! ### Pieces between line feeds -/

theorem splitLines_of_notMem (one : '\n' ∉ line) : splitLines line = [line] := by
  induction line with
  | nil => rfl
  | cons c line ih =>
    obtain ⟨hc, hline⟩ := not_or.mp (one ∘ List.mem_cons.mpr)
    rw [splitLines, if_neg (Ne.symm hc), ih hline]

theorem splitLines_append (one : '\n' ∉ line) (rest : List Char) :
    splitLines (line ++ '\n' :: rest) = line :: splitLines rest := by
  induction line with
  | nil => rfl
  | cons c line ih =>
    obtain ⟨hc, hline⟩ := not_or.mp (one ∘ List.mem_cons.mpr)
    rw [List.cons_append, splitLines, if_neg (Ne.symm hc), ih hline]

/-- What is in front of the first line feed, and what is behind it. -/
theorem append_feed_inj {line' rest' : List Char} (one : '\n' ∉ line) (one' : '\n' ∉ line')
    (h : line ++ '\n' :: rest = line' ++ '\n' :: rest') : line = line' ∧ rest = rest' := by
  have hpieces := congrArg splitLines h
  rw [splitLines_append one, splitLines_append one'] at hpieces
  obtain rfl := (List.cons.inj hpieces).1
  exact ⟨rfl, (List.cons.inj (List.append_cancel_left h)).2⟩

/-! ### Lines -/

/-- **The lines of a text.** -/
inductive Lines : List Char → List (List Char) → Prop where
  | nil : Lines [] []
  /-- The last line may have no end. -/
  | last {line : List Char} (some : line ≠ []) (one : '\n' ∉ line) : Lines line [line]
  /-- A line ends with a line feed. -/
  | feed {line rest : List Char} {ls : List (List Char)} (one : '\n' ∉ line)
      (bare : line.getLast? ≠ some '\r') (after : Lines rest ls) :
      Lines (line ++ '\n' :: rest) (line :: ls)
  /-- A line ends with a carriage return and a line feed. -/
  | returned {line rest : List Char} {ls : List (List Char)} (one : '\n' ∉ line)
      (after : Lines rest ls) : Lines (line ++ '\r' :: '\n' :: rest) (line :: ls)

/-- Every text has lines. -/
theorem exists_lines (cs : List Char) : ∃ ls, Lines cs ls := by
  induction hk : cs.length using Nat.strong_induction_on generalizing cs with
  | _ k ih =>
    -- what is behind the first line feed is shorter
    by_cases hfeed : '\n' ∈ cs
    · obtain ⟨line, rest, rfl, one⟩ := List.eq_append_cons_of_mem hfeed
      obtain ⟨ls, hls⟩ := ih rest.length (by simp at hk; omega) rest rfl
      by_cases hreturn : line.getLast? = some '\r'
      · obtain ⟨line, rfl⟩ := List.getLast?_eq_some_iff.mp hreturn
        rw [List.append_assoc]
        exact ⟨_, .returned (fun h => one (List.mem_append_left _ h)) hls⟩
      · exact ⟨_, .feed one hreturn hls⟩
    · rcases eq_or_ne cs [] with rfl | hsome
      · exact ⟨_, .nil⟩
      · exact ⟨_, .last hsome hfeed⟩

/-- A line without a carriage return at its end. -/
def withoutReturn (line : List Char) : List Char :=
  if line.getLast? = some '\r' then line.dropLast else line

theorem Lines.of_notMem (h : Lines cs ls) (one : '\n' ∉ cs) :
    ls = if cs = [] then [] else [cs] := by
  cases h with
  | nil => rfl
  | last some => rw [if_neg some]
  | feed | returned => simp at one

theorem Lines.of_feed (h : Lines (line ++ '\n' :: rest) ls) (one : '\n' ∉ line) :
    ∃ ls', ls = withoutReturn line :: ls' ∧ Lines rest ls' := by
  generalize hcs : line ++ '\n' :: rest = cs at h
  cases h with
  | nil => simp at hcs
  | last _ one' => exact absurd (hcs ▸ List.mem_append_right _ List.mem_cons_self) one'
  | feed one' bare after =>
    obtain ⟨rfl, rfl⟩ := append_feed_inj one one' hcs
    exact ⟨_, by rw [withoutReturn, if_neg bare], after⟩
  | @returned line' _ _ one' after =>
    -- the carriage return belongs to what is in front of the line feed
    have hone : '\n' ∉ line' ++ ['\r'] := by simpa using one'
    rw [List.append_cons line'] at hcs
    obtain ⟨rfl, rfl⟩ := append_feed_inj one hone hcs
    exact ⟨_, by simp [withoutReturn], after⟩

/-- **A text has no other lines** than these. -/
theorem Lines.unique (h : Lines cs ls) (h' : Lines cs ls') : ls' = ls := by
  induction h generalizing ls' with
  | nil => exact (h'.of_notMem (by simp)).trans rfl
  | last some one => rw [h'.of_notMem one, if_neg some]
  | feed one bare after ih =>
    obtain ⟨ls, rfl, hrest⟩ := h'.of_feed one
    rw [ih hrest, withoutReturn, if_neg bare]
  | @returned line rest _ one after ih =>
    have hone : '\n' ∉ line ++ ['\r'] := by simpa using one
    rw [List.append_cons line] at h'
    obtain ⟨ls, rfl, hrest⟩ := h'.of_feed hone
    rw [ih hrest]
    simp [withoutReturn]

/-- **The reader reads the lines,** though it leaves carriage returns in them and finds an empty
one at the end. -/
theorem readLines_splitLines (h : Lines cs ls) (f : Feed) (n : ℕ) :
    readLines received f n (splitLines cs) = readLines received f n ls := by
  induction h generalizing f n with
  | nil => rfl
  | last _ one => rw [splitLines_of_notMem one]
  | feed one _ _ ih =>
    rw [splitLines_append one]
    simp only [readLines, ih]
  | @returned line rest _ one _ ih =>
    have hone : '\n' ∉ line ++ ['\r'] := by simpa using one
    rw [List.append_cons line, splitLines_append hone]
    have hblank : ∀ c ∈ ['\r'], isBlankChar c = true := List.forall_mem_singleton.mpr rfl
    simp only [readLines, ih, Text.trimChars_append hblank]

/-! ### Lines that count -/

/-- **`core` is held by a line** that counts: left of it without the white space at its ends, not
empty, and no comment. -/
structure Content (line core : List Char) : Prop extends Text.IsTrimmed line core where
  ne_nil : core ≠ []
  noComment : core.head? ≠ some '#'

theorem content_iff : Content line core ↔ core = trimChars line ∧ isIgnored core = false := by
  have hignored : isIgnored core = false ↔ core ≠ [] ∧ core.head? ≠ some '#' := by
    simp [isIgnored]
  rw [hignored, ← Text.isTrimmed_iff]
  exact ⟨fun h => ⟨h.toIsTrimmed, h.ne_nil, h.noComment⟩, fun h => ⟨h.1, h.2.1, h.2.2⟩⟩

/-- **Lines that hold events,** as far as they count. -/
inductive Reads (received : Time.Timestamp) : List (List Char) → List Event → Prop where
  | nil : Reads received [] []
  | skip {line : List Char} {ls : List (List Char)} {es : List Event}
      (idle : ∀ core, ¬Content line core) (after : Reads received ls es) :
      Reads received (line :: ls) es
  | event {line core : List Char} {ls : List (List Char)} {e : Event} {es : List Event}
      (content : Content line core) (decodes : Event.decode received (String.ofList core) = .ok e)
      (after : Reads received ls es) : Reads received (line :: ls) (e :: es)

/-- All lines that count can be decoded. -/
def Decodes (received : Time.Timestamp) (ls : List (List Char)) : Prop :=
  ∀ line ∈ ls, ∀ core, Content line core → ∃ e, Event.decode received (String.ofList core) = .ok e

/-- **The first line that counts and holds no event,** when lines are counted from `n`. -/
inductive Spoils (received : Time.Timestamp) (n : ℕ) : List (List Char) → FeedError → Prop where
  | intro {before after : List (List Char)} {line core : List Char} {cause : Json.DecodeError}
      (first : Decodes received before) (content : Content line core)
      (fails : Event.decode received (String.ofList core) = .error cause) :
      Spoils received n (before ++ line :: after) ⟨n + before.length, cause⟩

/-- A line is read before. -/
theorem Spoils.cons {e : FeedError} (h : Spoils received (n + 1) ls e)
    (decodes : ∀ core, Content line core →
      ∃ e, Event.decode received (String.ofList core) = .ok e) :
    Spoils received n (line :: ls) e := by
  cases h with
  | @intro before after bad core cause first content fails =>
    have hline : n + 1 + before.length = n + (line :: before).length := by
      rw [List.length_cons]
      omega
    rw [hline, ← List.cons_append]
    exact .intro (List.forall_mem_cons.mpr ⟨decodes, first⟩) content fails

/-- **Reading succeeds** with the events that the lines hold, behind those that were there. -/
theorem reads_of_readLines (h : readLines received f n ls = .ok f') :
    ∃ es, f'.events = f.events ++ es ∧ Reads received ls es := by
  induction ls generalizing f n with
  | nil =>
    obtain rfl := Except.ok.inj h
    exact ⟨[], (List.append_nil _).symm, .nil⟩
  | cons line ls ih =>
    rw [readLines] at h
    split at h
    next hignored =>
      obtain ⟨es, hes, hreads⟩ := ih h
      refine ⟨es, hes, .skip (fun core hcore => ?_) hreads⟩
      obtain ⟨rfl, hcounts⟩ := content_iff.mp hcore
      exact absurd (hignored.symm.trans hcounts) (by decide)
    next hcounts =>
      split at h
      next => cases h
      next e hdecode =>
        obtain ⟨es, hes, hreads⟩ := ih h
        refine ⟨e :: es, ?_, ?_⟩
        · rw [hes, push, List.append_assoc]
          rfl
        · exact .event (content_iff.mpr ⟨rfl, by simpa using hcounts⟩) hdecode hreads

theorem Reads.decodes (h : Reads received ls es) : Decodes received ls := by
  induction h with
  | nil => simp [Decodes]
  | skip idle _ ih =>
    exact List.forall_mem_cons.mpr ⟨fun core hcore => absurd hcore (idle core), ih⟩
  | @event _ _ _ e _ content decodes _ ih =>
    refine List.forall_mem_cons.mpr ⟨fun core hcore => ⟨e, ?_⟩, ih⟩
    rw [(content_iff.mp hcore).1, ← (content_iff.mp content).1]
    exact decodes

/-- **Reading fails** at the first line that counts and holds no event. -/
theorem spoils_of_readLines {e : FeedError} (h : readLines received f n ls = .error e) :
    Spoils received n ls e := by
  induction ls generalizing f n with
  | nil => cases h
  | cons line ls ih =>
    rw [readLines] at h
    split at h
    next hignored =>
      refine (ih h).cons fun core hcore => ?_
      obtain ⟨rfl, hcounts⟩ := content_iff.mp hcore
      exact absurd (hignored.symm.trans hcounts) (by decide)
    next hcounts =>
      split at h
      next cause hdecode =>
        obtain rfl := Except.error.inj h
        exact @Spoils.intro received n [] ls line _ cause (by simp [Decodes])
          (content_iff.mpr ⟨rfl, by simpa using hcounts⟩) hdecode
      next e' hdecode =>
        refine (ih h).cons fun core hcore => ⟨e', ?_⟩
        rw [(content_iff.mp hcore).1]
        exact hdecode

theorem Spoils.not_decodes {e : FeedError} (h : Spoils received n ls e) : ¬Decodes received ls := by
  cases h with
  | intro _ content fails =>
    intro hall
    obtain ⟨e, he⟩ := hall _ (List.mem_append_right _ List.mem_cons_self) _ content
    cases fails.symm.trans he

/-! ### What a text is loaded to -/

variable {m : MarketId} {s : Snapshot}

/-- **However far a feed is played,** the initial book of a market is its first snapshot. -/
theorem initialBook_eq_ok_iff {φ : Type} (r : Replay φ) :
    r.initialBook m = .ok s ↔ IsFirst r.feed.events m s := by
  rw [← initialBook?_eq_some_iff, Replay.initialBook]
  cases r.feed.initialBook? m <;> simp

theorem initialBook_eq_error_iff {φ : Type} {e : SourceError} (r : Replay φ) :
    r.initialBook m = .error e ↔ e = .unknownMarket m ∧ m ∉ r.feed.markets := by
  rw [← initialBook?_eq_none_iff, Replay.initialBook]
  cases r.feed.initialBook? m <;> simp [eq_comm]

/-- **What a text is loaded to.** Every text has its lines. It is a feed exactly when every line
that counts can be decoded, and then its events are what these lines hold, the markets with an
initial book are those with a snapshot, and the initial book of each is its first one, in whatever
way the feed is played; of the others there is none. Otherwise the error is that of the first line
that cannot be decoded, with the number of that line. -/
theorem loaded_of_text {φ : Type} (received : Time.Timestamp) (text : String) :
    ∃ ls, (∀ ls', Lines text.toList ls' ↔ ls' = ls) ∧
      ((∃ f, ofText received text = .ok f) ↔ Decodes received ls) ∧
      (∀ f, ofText received text = .ok f → Reads received ls f.events ∧
        f.markets.Pairwise (· < ·) ∧
        (∀ m, m ∈ f.markets ↔ ∃ s, .snapshot s ∈ f.events ∧ s.market = m) ∧
        ∀ (r : Replay φ) (m : MarketId), r.feed = f →
          (∀ s, r.initialBook m = .ok s ↔ IsFirst f.events m s) ∧
          ∀ e, r.initialBook m = .error e ↔ e = .unknownMarket m ∧ m ∉ f.markets) ∧
      ∀ e, ofText received text = .error e → Spoils received 1 ls e := by
  obtain ⟨ls, hls⟩ := exists_lines text.toList
  have hread : ofText received text = readLines received empty 1 ls :=
    readLines_splitLines hls empty 1
  refine ⟨ls, fun ls' => ⟨fun h => hls.unique h, fun h => h ▸ hls⟩, ?_⟩
  rw [hread]
  cases h : readLines received empty 1 ls with
  | ok f =>
    obtain ⟨es, hes, hreads⟩ := reads_of_readLines h
    obtain rfl : f.events = es := hes
    refine ⟨⟨fun _ => hreads.decodes, fun _ => ⟨f, rfl⟩⟩, fun f' hf => ?_, nofun⟩
    obtain rfl := Except.ok.inj hf
    exact ⟨hreads, ascending_markets _, fun m => mem_markets, fun r m hr =>
      ⟨fun s => hr ▸ initialBook_eq_ok_iff r, fun e => hr ▸ initialBook_eq_error_iff r⟩⟩
  | error e =>
    have hspoils := spoils_of_readLines h
    refine ⟨⟨nofun, fun hall => absurd hall hspoils.not_decodes⟩, nofun, fun e' he => ?_⟩
    exact Except.error.inj he ▸ hspoils

end Feed

end LiveBook
