import LiveBook.Proofs.Text.Reading
import LiveBook.Proofs.Time.Calendar
import LiveBook.Time.Timestamp

/-!
# Timestamps are read as they are written

What can be read is much more than what is written. Still everything that is read is a valid
timestamp (`LiveBook.Time.Timestamp.isValid_of_parse`), and a valid timestamp is read as it is
written: `LiveBook.Time.Timestamp.parse_text`.
-/

namespace LiveBook.Time

open Digits (EndsNumber IsNumeral endsNumber_of_head isDigit value padded)
open Number (tenTo twoTo)
open Text (trimStart isBlankChar)

variable {ds cs : List Char} {c : Char} {n : ℕ}

namespace Timestamp

/-- **A valid timestamp**: its day is one of the calendar, and there is a leap second only at the
end of a minute. -/
structure IsValid (t : Timestamp) : Prop where
  date : t.date.isValid = true
  nanoseconds : t.nanoseconds < 2000000000
  leap : 1000000000 ≤ t.nanoseconds → t.seconds % 60 = 59

instance (t : Timestamp) : Decidable t.IsValid :=
  decidable_of_iff (t.date.isValid = true ∧ t.nanoseconds < 2000000000 ∧
    (1000000000 ≤ t.nanoseconds → t.seconds % 60 = 59))
    ⟨fun ⟨h, h', h''⟩ => ⟨h, h', h''⟩, fun h => ⟨h.date, h.nanoseconds, h.leap⟩⟩

end Timestamp

/-! ### Reading what was written -/

theorem isBlankChar_of_isDigit (h : isDigit c = true) : isBlankChar c = false := by
  unfold isDigit Digits.digit? at h
  split at h
  next hc =>
    have hlow : '0'.toNat ≤ c.toNat := Char.le_def.mp hc.1
    have hhigh : c.toNat ≤ '9'.toNat := Char.le_def.mp hc.2
    have h0 : '0'.toNat = 48 := rfl
    have h9 : '9'.toNat = 57 := rfl
    simp only [isBlankChar, Bool.or_eq_false_iff, Bool.and_eq_false_iff, decide_eq_false_iff_not,
      beq_eq_false_iff_ne, ne_eq]
    omega
  next => cases h

theorem trimStart_numeral (hds : IsNumeral ds) (hne : ds ≠ []) (cs : List Char) :
    trimStart (ds ++ cs) = ds ++ cs := by
  obtain ⟨c, ds, rfl⟩ := List.exists_cons_of_ne_nil hne
  have hc := isBlankChar_of_isDigit (hds c List.mem_cons_self)
  simp [trimStart, hc]

theorem readNumber_append {width : Option ℕ} (hds : IsNumeral ds) (hne : ds ≠ [])
    (hwidth : ∀ w ∈ width, ds.length ≤ w) (hvalue : value ds < twoTo 63) (hcs : EndsNumber cs) :
    readNumber width (ds ++ cs) = .ok (value ds, cs) := by
  obtain ⟨c, ds, rfl⟩ := List.exists_cons_of_ne_nil hne
  have hrun : (c :: (ds ++ cs)).takeWhile isDigit = c :: ds := Digits.takeWhile_append hds hcs
  have hdrop : (c :: (ds ++ cs)).drop (c :: ds).length = cs := List.drop_left
  cases width with
  | none =>
    unfold readNumber
    simp only [List.cons_append, hrun, if_pos hvalue, hdrop]
  | some w =>
    have htake : (c :: ds).take w = c :: ds := List.take_of_length_le (hwidth w rfl)
    unfold readNumber
    simp only [List.cons_append, hrun, htake, if_pos hvalue, hdrop]

theorem padded_ne_nil {w : ℕ} (hw : 0 < w) (n : ℕ) : padded w n ≠ [] :=
  List.ne_nil_of_length_pos (hw.trans_le (Digits.le_length_padded w n))

/-- A number with zeros in front, of which all digits are read. -/
theorem readNumber_padded {width : Option ℕ} {w : ℕ} (hw : 0 < w)
    (hwidth : ∀ v ∈ width, (padded w n).length ≤ v) (hn : n < twoTo 63) (hcs : EndsNumber cs) :
    readNumber width (padded w n ++ cs) = .ok (n, cs) := by
  have h := readNumber_append (Digits.isNumeral_padded w n) (padded_ne_nil hw n) hwidth
    ((Digits.value_padded w n).trans_lt hn) hcs
  rwa [Digits.value_padded] at h

/-- **A field of two digits.** -/
theorem readField_padded {low high : ℕ} (hlow : low ≤ n) (hhigh : n ≤ high) (h : high < 100)
    (hcs : EndsNumber cs) : readField low high (padded 2 n ++ cs) = .ok (n, cs) := by
  have hn : n < 100 := hhigh.trans_lt h
  have hlength : (padded 2 n).length = 2 := Digits.length_padded (by decide) hn
  have hnumber : readNumber (some 2) (padded 2 n ++ cs) = .ok (n, cs) :=
    readNumber_padded (by decide) (by simp [hlength]) (hn.trans (by decide)) hcs
  rw [readField, trimStart_numeral (Digits.isNumeral_padded 2 n) (padded_ne_nil (by decide) n),
    hnumber]
  exact if_pos ⟨hlow, hhigh⟩

/-- The check that a year fits into 32 bits. -/
theorem year_fits {year : ℤ} (hmin : minYear ≤ year) (hmax : year ≤ maxYear) :
    -(twoTo 31 : ℤ) ≤ year ∧ year < (twoTo 31 : ℤ) := by
  have h31 : (twoTo 31 : ℤ) = 2147483648 := rfl
  unfold minYear at hmin
  unfold maxYear at hmax
  omega

/-- A year that was read as a whole number. -/
theorem readYear_of_readWhole {year : ℤ} {rest : List Char} (hmin : minYear ≤ year)
    (hmax : year ≤ maxYear) (h : readWhole cs = .ok (year, rest)) :
    readYear cs = .ok (year, rest) :=
  bind_eq_ok.mpr ⟨(year, rest), h, if_pos (year_fits hmin hmax)⟩

/-- A whole number without a sign. -/
theorem readWhole_unsigned {rest : List Char} (hds : IsNumeral ds) (hne : ds ≠ [])
    (h : readNumber (some 4) (ds ++ cs) = .ok (n, rest)) :
    readWhole (ds ++ cs) = .ok ((n : ℤ), rest) := by
  have htrim := trimStart_numeral hds hne cs
  obtain ⟨c, ds, rfl⟩ := List.exists_cons_of_ne_nil hne
  have hc := hds c List.mem_cons_self
  rw [readWhole, htrim]
  split
  next heq =>
    obtain ⟨rfl, -⟩ := List.cons.inj heq
    cases hc
  next heq =>
    obtain ⟨rfl, -⟩ := List.cons.inj heq
    cases hc
  next => exact bind_eq_ok.mpr ⟨(n, rest), h, rfl⟩

/-- A whole number behind a sign. -/
theorem readWhole_signed {rest : List Char} (minus : Bool)
    (h : readNumber none cs = .ok (n, rest)) :
    readWhole ((if minus then '-' else '+') :: cs) =
      .ok (if minus then -(n : ℤ) else n, rest) := by
  cases minus with
  | false => exact bind_eq_ok.mpr ⟨(n, rest), h, rfl⟩
  | true => exact bind_eq_ok.mpr ⟨(n, rest), h, rfl⟩

/-- **A year**, with a sign where four digits do not suffice. -/
theorem readYear_yearChars {year : ℤ} (hmin : minYear ≤ year) (hmax : year ≤ maxYear)
    (hcs : EndsNumber cs) : readYear (yearChars year ++ cs) = .ok (year, cs) := by
  apply readYear_of_readWhole hmin hmax
  have hsmall : year.natAbs < twoTo 63 := by
    have h63 : twoTo 63 = 9223372036854775808 := rfl
    unfold minYear at hmin
    unfold maxYear at hmax
    omega
  unfold yearChars
  split
  next h =>
    have hlength : (padded 4 year.toNat).length = 4 :=
      Digits.length_padded (by decide) (show year.toNat < 10000 by omega)
    have hnumber : readNumber (some 4) (padded 4 year.toNat ++ cs) = .ok (year.toNat, cs) :=
      readNumber_padded (by decide) (by simp [hlength]) (by omega) hcs
    have hread := readWhole_unsigned (Digits.isNumeral_padded 4 year.toNat)
      (padded_ne_nil (by decide) _) hnumber
    rwa [Int.toNat_of_nonneg h.1] at hread
  next h =>
    have hnumber : readNumber none (padded 4 year.natAbs ++ cs) = .ok (year.natAbs, cs) :=
      readNumber_padded (by decide) nofun hsmall hcs
    have hyear : (if decide (year < 0) then -(year.natAbs : ℤ) else year.natAbs) = year := by
      by_cases hneg : year < 0
      · simp only [hneg, decide_true, if_true]
        omega
      · simp only [hneg, decide_false, Bool.false_eq_true, if_false]
        omega
    have hread := readWhole_signed (decide (year < 0)) hnumber
    rw [hyear] at hread
    simpa only [decide_eq_true_eq, List.cons_append] using hread

/-- **A separator.** -/
theorem readMark_cons {mark : Char} (h : isBlankChar mark = false) (cs : List Char) :
    readMark mark (mark :: cs) = .ok cs := by
  simp [readMark, trimStart, h]

/-- Some digits behind the point, with those that are missing up to nine. -/
theorem readFraction_padded {w : ℕ} (hw : 0 < w ∧ w ≤ 9) (hn : n < tenTo w)
    (hcs : EndsNumber cs) :
    readFraction ('.' :: (padded w n ++ cs)) = .ok (n * tenTo (9 - w), cs) := by
  have hlength : (padded w n).length = w := Digits.length_padded hw.1 hn
  have hsmall : n < twoTo 63 := by
    refine hn.trans_le ((Nat.pow_le_pow_right (by decide) hw.2).trans ?_)
    decide
  have hnumber : readNumber (some 9) (padded w n ++ cs) = .ok (n, cs) :=
    readNumber_padded hw.1 (by simp [hlength, hw.2]) hsmall hcs
  have htaken : (padded w n ++ cs).length - cs.length = w := by
    rw [List.length_append, hlength]
    omega
  have hrest : cs.dropWhile isDigit = cs := by
    cases cs with
    | nil => rfl
    | cons c cs => simp [hcs c rfl]
  rw [readFraction, hnumber]
  change Except.ok (n * tenTo (9 - ((padded w n ++ cs).length - cs.length)),
    cs.dropWhile isDigit) = _
  rw [htaken, hrest]

/-- **A fraction of a second.** -/
theorem readFraction_fractionChars (ns : ℕ) :
    readFraction (fractionChars ns ++ ['Z']) = .ok (ns % 1000000000, ['Z']) := by
  have hends : EndsNumber ['Z'] := endsNumber_of_head rfl []
  have hlt : ns % 1000000000 < 1000000000 := Nat.mod_lt _ (by decide)
  unfold fractionChars
  dsimp only
  generalize ns % 1000000000 = k at hlt ⊢
  split
  next h =>
    rw [h]
    rfl
  next =>
    split
    next h =>
      rw [List.cons_append,
        readFraction_padded (by decide) (show k / 1000000 < 1000 by omega) hends]
      congr 2
      change k / 1000000 * 1000000 = k
      omega
    next =>
      split
      next h =>
        rw [List.cons_append,
          readFraction_padded (by decide) (show k / 1000 < 1000000 by omega) hends]
        congr 2
        change k / 1000 * 1000 = k
        omega
      next =>
        rw [List.cons_append, readFraction_padded (by decide) hlt hends]
        congr 2
        exact Nat.mul_one k

namespace Timestamp

variable {t : Timestamp}

theorem fractionChars_endsNumber (ns : ℕ) : EndsNumber (fractionChars ns ++ ['Z']) := by
  unfold fractionChars
  dsimp only
  split
  · exact endsNumber_of_head rfl _
  · split
    · exact endsNumber_of_head rfl _
    · split
      · exact endsNumber_of_head rfl _
      · exact endsNumber_of_head rfl _

/-- The seconds of the day, and the day. -/
theorem seconds_eq (t : Timestamp) :
    t.date.toDays * 86400 + t.secondOfDay = t.seconds ∧ t.secondOfDay < 86400 := by
  have hdays : t.date.toDays = t.seconds / 86400 := by
    rw [date, Date.toDays_ofDays, Int.fdiv_eq_ediv_of_nonneg _ (by decide)]
  have hsecond : t.secondOfDay = (t.seconds - t.seconds / 86400 * 86400).toNat := by
    rw [secondOfDay, Int.fdiv_eq_ediv_of_nonneg _ (by decide)]
  rw [hdays, hsecond]
  omega

/-- The parts of a valid timestamp make it up again. -/
theorem assemble_parts (h : t.IsValid) :
    assemble t.date (t.secondOfDay / 3600) (t.secondOfDay / 60 % 60)
      (t.secondOfDay % 60 + if 1000000000 ≤ t.nanoseconds then 1 else 0)
      (t.nanoseconds % 1000000000) 0 = .ok t := by
  obtain ⟨hseconds, hday⟩ := seconds_eq t
  have hnanoseconds := h.nanoseconds
  have hparts : (if t.secondOfDay % 60 + (if 1000000000 ≤ t.nanoseconds then 1 else 0) = 60 then
        (59, 1000000000)
      else (t.secondOfDay % 60 + (if 1000000000 ≤ t.nanoseconds then 1 else 0), 0)) =
      (t.secondOfDay % 60, t.nanoseconds - t.nanoseconds % 1000000000) := by
    by_cases hleap : 1000000000 ≤ t.nanoseconds
    · have h59 := h.leap hleap
      rw [if_pos hleap, if_pos (by omega)]
      exact Prod.ext (by dsimp only; omega) (by dsimp only; omega)
    · rw [if_neg hleap, if_neg (by omega)]
      exact Prod.ext rfl (by dsimp only; omega)
  have hseconds' : t.date.toDays * 86400 + (t.secondOfDay / 3600 : ℕ) * 3600 +
      (t.secondOfDay / 60 % 60 : ℕ) * 60 + (t.secondOfDay % 60 : ℕ) - 0 = t.seconds := by
    omega
  have hnanoseconds' : t.nanoseconds % 1000000000 +
      (t.nanoseconds - t.nanoseconds % 1000000000) = t.nanoseconds := by
    omega
  unfold assemble
  rw [hparts, h.date]
  dsimp only
  rw [hseconds', hnanoseconds', if_pos h.date]
  rfl

/-- **A valid timestamp is read as it is written.** -/
theorem parse_text (h : t.IsValid) : parse t.text = .ok t := by
  have hdate := h.date
  simp only [Date.isValid, Bool.and_eq_true, decide_eq_true_eq] at hdate
  obtain ⟨⟨⟨⟨⟨hmin, hmax⟩, hmonth⟩, hmonth'⟩, hday⟩, hday'⟩ := hdate
  have hday'' : t.date.day ≤ 31 := hday'.trans (daysInMonth_le _ _)
  obtain ⟨-, hsecond⟩ := seconds_eq t
  have hleap : (if 1000000000 ≤ t.nanoseconds then 1 else 0) ≤ 1 := by split <;> decide
  rw [parse, text, String.toList_ofList, chars]
  simp only [List.append_assoc, List.cons_append]
  -- part by part; behind each number stands a mark, so that it ends there
  refine bind_eq_ok.mpr ⟨_, readYear_yearChars hmin hmax (endsNumber_of_head rfl _), ?_⟩
  refine bind_eq_ok.mpr ⟨_, readMark_cons rfl _, ?_⟩
  refine bind_eq_ok.mpr ⟨_, readField_padded hmonth hmonth' (by decide)
    (endsNumber_of_head rfl _), ?_⟩
  refine bind_eq_ok.mpr ⟨_, readMark_cons rfl _, ?_⟩
  refine bind_eq_ok.mpr ⟨_, readField_padded hday hday'' (by decide)
    (endsNumber_of_head rfl _), ?_⟩
  refine bind_eq_ok.mpr ⟨_, rfl, ?_⟩
  refine bind_eq_ok.mpr ⟨_, readField_padded (Nat.zero_le _) (by omega) (by decide)
    (endsNumber_of_head rfl _), ?_⟩
  refine bind_eq_ok.mpr ⟨_, readMark_cons rfl _, ?_⟩
  refine bind_eq_ok.mpr ⟨_, readField_padded (Nat.zero_le _) (by omega) (by decide)
    (endsNumber_of_head rfl _), ?_⟩
  refine bind_eq_ok.mpr ⟨_, readMark_cons rfl _, ?_⟩
  refine bind_eq_ok.mpr ⟨_, readField_padded (Nat.zero_le _) (by omega) (by decide)
    (fractionChars_endsNumber _), ?_⟩
  refine bind_eq_ok.mpr ⟨_, readFraction_fractionChars _, ?_⟩
  refine bind_eq_ok.mpr ⟨(0, []), rfl, ?_⟩
  exact assemble_parts h

/-! ### What is read -/

/-- A number has no more digits than it may have, and as many have been taken away. -/
theorem readNumber_taken {width : ℕ} {rest : List Char}
    (h : readNumber (some width) cs = .ok (n, rest)) :
    cs.length - rest.length ≤ width ∧ n < tenTo (cs.length - rest.length) := by
  have hwidth : ((cs.takeWhile isDigit).take width).length ≤ width := List.length_take_le _ _
  have hlength : ((cs.takeWhile isDigit).take width).length ≤ cs.length :=
    (List.length_take_le' _ _).trans (List.takeWhile_prefix _).length_le
  have hlt := Digits.value_lt ((cs.takeWhile isDigit).take width)
  unfold readNumber at h
  dsimp only at h
  generalize (cs.takeWhile isDigit).take width = ds at hwidth hlength hlt h
  split at h
  next => cases h
  next => cases h
  next =>
    split at h
    next =>
      obtain ⟨rfl, rfl⟩ := Prod.mk.inj (Except.ok.inj h)
      have htaken : cs.length - (cs.drop ds.length).length = ds.length := by
        rw [List.length_drop]
        omega
      rw [htaken]
      exact ⟨hwidth, hlt⟩
    next => cases h

theorem readFraction_lt {rest : List Char} (h : readFraction cs = .ok (n, rest)) :
    n < 1000000000 := by
  unfold readFraction at h
  split at h
  next rest' =>
    obtain ⟨⟨m, after⟩, hm, h⟩ := bind_eq_ok.mp h
    obtain ⟨rfl, -⟩ := Prod.mk.inj (Except.ok.inj h)
    obtain ⟨hwidth, hlt⟩ := readNumber_taken hm
    calc m * tenTo (9 - (rest'.length - after.length))
      _ < tenTo (rest'.length - after.length) * tenTo (9 - (rest'.length - after.length)) :=
          Nat.mul_lt_mul_of_pos_right hlt (Nat.pow_pos (by decide))
      _ = tenTo 9 := by
          have hadd :=
            Nat.pow_add 10 (rest'.length - after.length) (9 - (rest'.length - after.length))
          rw [Nat.add_sub_cancel' hwidth] at hadd
          exact hadd.symm
      _ = 1000000000 := rfl
  next =>
    obtain ⟨rfl, -⟩ := Prod.mk.inj (Except.ok.inj h)
    decide

theorem readOffsetTime_minutes {rest : List Char} (h : readOffsetTime cs = .ok (n, rest)) :
    n % 60 = 0 := by
  obtain ⟨⟨⟨a, b⟩, rest'⟩, -, h⟩ := bind_eq_ok.mp h
  obtain ⟨⟨⟨c, d⟩, rest''⟩, -, h⟩ := bind_eq_ok.mp h
  dsimp only at h
  split at h
  next =>
    obtain ⟨rfl, -⟩ := Prod.mk.inj (Except.ok.inj h)
    omega
  next => cases h

/-- An offset is a number of minutes. -/
theorem readOffset_minutes {offset : ℤ} {rest : List Char}
    (h : readOffset cs = .ok (offset, rest)) : offset % 60 = 0 := by
  unfold readOffset at h
  split at h
  next => cases h
  next =>
    obtain ⟨rfl, -⟩ := Prod.mk.inj (Except.ok.inj h)
    rfl
  next =>
    obtain ⟨rfl, -⟩ := Prod.mk.inj (Except.ok.inj h)
    rfl
  next =>
    split at h
    next =>
      obtain ⟨rfl, -⟩ := Prod.mk.inj (Except.ok.inj h)
      rfl
    next =>
      split at h
      next =>
        obtain ⟨⟨n, rest'⟩, hn, h⟩ := bind_eq_ok.mp h
        obtain ⟨rfl, -⟩ := Prod.mk.inj (Except.ok.inj h)
        have hminutes := readOffsetTime_minutes hn
        omega
      next =>
        split at h
        next =>
          obtain ⟨⟨n, rest'⟩, hn, h⟩ := bind_eq_ok.mp h
          obtain ⟨rfl, -⟩ := Prod.mk.inj (Except.ok.inj h)
          have hminutes := readOffsetTime_minutes hn
          omega
        next => cases h

/-- The parts of a date and a time make up a valid timestamp or none. -/
theorem isValid_of_assemble {date : Date} {hour minute second nanoseconds : ℕ} {offset : ℤ}
    (hnanoseconds : nanoseconds < 1000000000) (hoffset : offset % 60 = 0)
    (h : assemble date hour minute second nanoseconds offset = .ok t) : t.IsValid := by
  unfold assemble at h
  split at h
  next => cases h
  next =>
    split at h
    next => cases h
    next =>
      by_cases hsecond : second = 60
      · rw [if_pos hsecond] at h
        dsimp only at h
        split at h
        next hdate =>
          obtain rfl := Except.ok.inj h
          exact ⟨hdate, by dsimp only; omega, fun _ => by dsimp only; omega⟩
        next => cases h
      · rw [if_neg hsecond] at h
        dsimp only at h
        split at h
        next hdate =>
          obtain rfl := Except.ok.inj h
          exact ⟨hdate, by dsimp only; omega, fun hleap => by dsimp only at hleap; omega⟩
        next => cases h

/-- **Everything that is read is a valid timestamp.** -/
theorem isValid_of_parse {s : String} (h : parse s = .ok t) : t.IsValid := by
  obtain ⟨⟨year, cs⟩, -, h⟩ := bind_eq_ok.mp h
  obtain ⟨cs, -, h⟩ := bind_eq_ok.mp h
  obtain ⟨⟨month, cs⟩, -, h⟩ := bind_eq_ok.mp h
  obtain ⟨cs, -, h⟩ := bind_eq_ok.mp h
  obtain ⟨⟨day, cs⟩, -, h⟩ := bind_eq_ok.mp h
  obtain ⟨cs, -, h⟩ := bind_eq_ok.mp h
  obtain ⟨⟨hour, cs⟩, -, h⟩ := bind_eq_ok.mp h
  obtain ⟨cs, -, h⟩ := bind_eq_ok.mp h
  obtain ⟨⟨minute, cs⟩, -, h⟩ := bind_eq_ok.mp h
  obtain ⟨cs, -, h⟩ := bind_eq_ok.mp h
  obtain ⟨⟨second, cs⟩, -, h⟩ := bind_eq_ok.mp h
  obtain ⟨⟨nanoseconds, cs⟩, hfraction, h⟩ := bind_eq_ok.mp h
  obtain ⟨⟨offset, cs⟩, hoffset, h⟩ := bind_eq_ok.mp h
  dsimp only at h
  split at h
  next => exact isValid_of_assemble (readFraction_lt hfraction) (readOffset_minutes hoffset) h
  next => cases h

end Timestamp

end LiveBook.Time
