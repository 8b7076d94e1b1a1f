import LiveBook.Decimal.Parse
import LiveBook.Proofs.Text.Reading

/-!
# Decimals are read as they are written

The written form of a decimal shows its sign and all its digits, those behind the point included
that are zero. Nothing of it is rounded when it is read: `LiveBook.Decimal.parse_text`. Only the sign
of a zero would be lost, and no text is read as such a decimal
(`LiveBook.Decimal.isNormal_of_parse`).
-/

namespace LiveBook.Decimal

open Digits (IsNumeral isDigit valueFrom)

variable {acc k : ℕ} {started : Bool} {ds cs : List Char} {c : Char}

/-! ### Reading digits -/

/-- **Digits before the point**, as long as they fit. -/
theorem scan_whole (hds : IsNumeral ds) (fits : valueFrom acc ds ≤ maxCoefficient)
    (cs : List Char) :
    scan acc none started (ds ++ cs) =
      scan (valueFrom acc ds) none (started || !ds.isEmpty) cs := by
  induction ds generalizing acc started with
  | nil => simp [valueFrom]
  | cons c ds ih =>
    obtain ⟨d, hd, -⟩ := Digits.digit?_of_isDigit (hds c List.mem_cons_self)
    have hcons : valueFrom acc (c :: ds) = valueFrom (acc * 10 + d) ds := by
      simp [valueFrom, hd]
    rw [hcons] at fits ⊢
    have hnext : acc * 10 + d ≤ maxCoefficient := (Digits.le_valueFrom _ _).trans fits
    have hscale : none ≠ some maxScale := (Option.some_ne_none maxScale).symm
    rw [List.cons_append, scan, if_neg hscale, hd]
    dsimp only
    rw [if_pos hnext, Option.map_none,
      ih (fun c hc => hds c (List.mem_cons_of_mem _ hc)) fits]
    simp

/-- **Digits behind the point**, as long as they fit and there is room for them. -/
theorem scan_fraction (hds : IsNumeral ds) (fits : valueFrom acc ds ≤ maxCoefficient)
    (room : k + ds.length ≤ maxScale) :
    scan acc (some k) true ds = .ok (valueFrom acc ds, k + ds.length) := by
  induction ds generalizing acc k with
  | nil => rfl
  | cons c ds ih =>
    obtain ⟨d, hd, -⟩ := Digits.digit?_of_isDigit (hds c List.mem_cons_self)
    have hcons : valueFrom acc (c :: ds) = valueFrom (acc * 10 + d) ds := by
      simp [valueFrom, hd]
    rw [hcons] at fits ⊢
    have hnext : acc * 10 + d ≤ maxCoefficient := (Digits.le_valueFrom _ _).trans fits
    rw [List.length_cons] at room ⊢
    have hk : some k ≠ some maxScale := by
      intro heq
      have := Option.some.inj heq
      omega
    rw [scan, if_neg hk, hd]
    dsimp only
    rw [if_pos hnext, Option.map_some,
      ih (fun c hc => hds c (List.mem_cons_of_mem _ hc)) fits (by omega)]
    congr 2
    omega

/-! ### The written form -/

/-- The digits of a decimal before and behind the point. -/
theorem chars_eq (d : Decimal) : ∃ whole fraction, whole ≠ [] ∧ IsNumeral (whole ++ fraction) ∧
    fraction.length = d.scale ∧ Digits.value (whole ++ fraction) = d.coefficient ∧
    d.chars = (if d.negative then ['-'] else []) ++
      (whole ++ (if d.scale = 0 then [] else '.' :: fraction)) := by
  let digits := Digits.padded (d.scale + 1) d.coefficient
  have hlength : d.scale + 1 ≤ digits.length := Digits.le_length_padded _ _
  have hdigits : digits.take (digits.length - d.scale) ++ digits.drop (digits.length - d.scale) =
      digits := List.take_append_drop _ _
  refine ⟨digits.take (digits.length - d.scale), digits.drop (digits.length - d.scale),
    ?_, ?_, ?_, ?_, ?_⟩
  · refine List.ne_nil_of_length_pos ?_
    rw [List.length_take]
    omega
  · rw [hdigits]
    exact Digits.isNumeral_padded _ _
  · rw [List.length_drop]
    omega
  · rw [hdigits]
    exact Digits.value_padded _ _
  · rw [chars, List.append_assoc]

/-- Its digits and its point are read as its coefficient and its scale. -/
theorem scan_chars (d : Decimal) {whole fraction : List Char} (hne : whole ≠ [])
    (hnumeral : IsNumeral (whole ++ fraction)) (hlength : fraction.length = d.scale)
    (hvalue : Digits.value (whole ++ fraction) = d.coefficient) :
    scan 0 none false (whole ++ (if d.scale = 0 then [] else '.' :: fraction)) =
      .ok (d.coefficient, d.scale) := by
  have hfraction : valueFrom (Digits.value whole) fraction = d.coefficient := by
    rw [← hvalue, Digits.value, Digits.value, Digits.valueFrom_append]
  have hwhole : valueFrom 0 whole ≤ maxCoefficient :=
    (Digits.le_valueFrom (Digits.value whole) fraction).trans (hfraction.trans_le d.coefficient_le)
  rw [scan_whole (fun c hc => hnumeral c (List.mem_append_left _ hc)) hwhole]
  have hstarted : (false || !whole.isEmpty) = true := by simp [hne]
  rw [hstarted]
  split
  next hscale =>
    obtain rfl := List.eq_nil_of_length_eq_zero (hlength.trans hscale)
    rw [← hfraction, hscale]
    rfl
  next hscale =>
    have hpoint : scan (valueFrom 0 whole) none true ('.' :: fraction) =
        scan (Digits.value whole) (some 0) true fraction := rfl
    rw [hpoint, scan_fraction (fun c hc => hnumeral c (List.mem_append_right _ hc))
      (hfraction.trans_le d.coefficient_le) (by have := d.scale_le; omega), hfraction, hlength,
      Nat.zero_add]

theorem build_self {d : Decimal} (h : d.IsNormal) :
    build d.negative d.coefficient d.scale = .ok d := by
  rw [build, if_neg (Nat.not_lt.mpr d.scale_le), h.ofParts?_self]

/-- A sign is taken off first. -/
theorem parsePlain_sign (negative : Bool) {c : Char} (hc : isDigit c = true) (cs : List Char) :
    parsePlain ((if negative then ['-'] else []) ++ c :: cs) = (do
      let (coefficient, scale) ← scan 0 none false (c :: cs)
      build negative coefficient scale) := by
  cases negative with
  | true => rfl
  | false =>
    have hminus : c ≠ '-' := by
      rintro rfl
      cases hc
    have hplus : c ≠ '+' := by
      rintro rfl
      cases hc
    unfold parsePlain
    simp [hminus, hplus]

/-- Nothing of it introduces an exponent. -/
theorem isExponentMark_chars (d : Decimal) : ∀ c ∈ d.chars, isExponentMark c = false := by
  intro c hc
  obtain ⟨whole, fraction, -, hnumeral, -, -, hchars⟩ := d.chars_eq
  have hcases : c = '-' ∨ c = '.' ∨ c ∈ whole ++ fraction := by
    rw [hchars] at hc
    split at hc <;> split at hc <;> grind
  rcases hcases with rfl | rfl | hdigit
  · rfl
  · rfl
  · have hdigit := hnumeral c hdigit
    have he : c ≠ 'e' := by
      rintro rfl
      cases hdigit
    have hE : c ≠ 'E' := by
      rintro rfl
      cases hdigit
    simp [isExponentMark, he, hE]

/-- **A decimal is read as it is written**, with its sign, its coefficient and its scale. -/
theorem parse_text {d : Decimal} (h : d.IsNormal) : parse d.text = .ok d := by
  have hplain : d.chars.takeWhile (!isExponentMark ·) = d.chars := by
    rw [List.takeWhile_eq_self_iff]
    intro c hc
    rw [d.isExponentMark_chars c hc]
    rfl
  obtain ⟨whole, fraction, hne, hnumeral, hlength, hvalue, hchars⟩ := d.chars_eq
  obtain ⟨c, whole, rfl⟩ := List.exists_cons_of_ne_nil hne
  have hc : isDigit c = true := hnumeral c (by simp)
  rw [parse, text, String.toList_ofList, hplain, List.drop_length]
  change parsePlain d.chars = .ok d
  rw [hchars, List.cons_append, parsePlain_sign d.negative hc, ← List.cons_append,
    d.scan_chars hne hnumeral hlength hvalue]
  exact build_self h

/-! ### What is read -/

theorem isNormal_of_build {n : Bool} {c s : ℕ} {d : Decimal} (h : build n c s = .ok d) :
    d.IsNormal := by
  unfold build at h
  split at h
  next => cases h
  next =>
    split at h
    next hparts =>
      obtain rfl := Except.ok.inj h
      exact isNormal_of_ofParts? hparts
    next => cases h

theorem isNormal_of_parsePlain {d : Decimal} (h : parsePlain cs = .ok d) : d.IsNormal := by
  unfold parsePlain at h
  split at h
  next negative digits _ =>
    dsimp only at h
    split at h
    next => cases h
    next =>
      obtain ⟨⟨coefficient, scale⟩, -, h⟩ := bind_eq_ok.mp h
      exact isNormal_of_build h

theorem isNormal_of_scaleUp {b d : Decimal} {e : ℕ} (h : b.scaleUp e = .ok d) : d.IsNormal := by
  unfold scaleUp at h
  split at h
  next => exact isNormal_of_build h
  next =>
    split at h
    next => cases h
    next => exact isNormal_of_build h

theorem isNormal_of_withExponent {b d : Decimal} (h : b.withExponent cs = .ok d) :
    d.IsNormal := by
  unfold withExponent at h
  split at h
  next =>
    split at h
    next =>
      split at h
      next => cases h
      next => exact isNormal_of_build h
    next => cases h
  next =>
    split at h
    next => exact isNormal_of_scaleUp h
    next => cases h

/-- **No text is read as a zero with a sign.** -/
theorem isNormal_of_parse {text : String} {d : Decimal} (h : parse text = .ok d) :
    d.IsNormal := by
  simp only [parse] at h
  split at h
  next => exact isNormal_of_parsePlain h
  next =>
    obtain ⟨b, -, h⟩ := bind_eq_ok.mp h
    exact isNormal_of_withExponent h

end LiveBook.Decimal
