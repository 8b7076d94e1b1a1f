import LiveBook.Json.Basic
import LiveBook.Json.Document
import LiveBook.Proofs.Text.Reading

/-!
# JSON is read as it is written

A value without floating numbers is written in one way and read in many. The reader takes each
string with its escapes, each whole number and each bracket of the written form for what it is, and
leaves what follows the value alone. As it gives up one unit of fuel where it takes at least one
character, the fuel that it gets for a text is enough: `LiveBook.Json.read_render`.
-/

namespace LiveBook.Json

open Digits (EndsNumber IsNumeral endsNumber_of_head isDigit)
open Number (twoTo)

/-! ### The document of a value -/

mutual

/-- The document that a value is. -/
def Value.document : Value → Document
  | .null => .null
  | .bool b => .bool b
  | .int i => .int i
  | .float x => if x.isFinite then .float x else .null
  | .string s => .string s
  | .array items => .array (itemDocuments items) none
  | .object members => .object (memberDocuments members) none

/-- The documents of the items of an array. -/
def itemDocuments : List Value → List Document
  | [] => []
  | v :: rest => v.document :: itemDocuments rest

/-- The documents of the members of an object. -/
def memberDocuments : List (String × Value) → List (String × Document)
  | [] => []
  | (k, v) :: rest => (k, v.document) :: memberDocuments rest

end

/-- **A plain value** has no floating numbers in it, and its whole numbers have 64 bits. -/
inductive Value.IsPlain : Value → Prop
  | null : IsPlain .null
  | bool (b : Bool) : IsPlain (.bool b)
  | int {i : ℤ} (low : -(twoTo 63 : ℤ) ≤ i) (high : i < (twoTo 64 : ℤ)) : IsPlain (.int i)
  | string (s : String) : IsPlain (.string s)
  | array {items : List Value} (h : ∀ v ∈ items, v.IsPlain) : IsPlain (.array items)
  | object {members : List (String × Value)} (h : ∀ m ∈ members, m.2.IsPlain) :
      IsPlain (.object members)

variable {fuel n : ℕ} {acc cs ds : List Char} {c : Char}

/-! ### Strings -/

theorem hexValue?_hexDigit : ∀ n < 16, hexValue? (hexDigit n) = some n := by decide

/-- The units of the control characters are characters by themselves. -/
theorem readUnit_control (h : c.toNat < 0x20) (cs : List Char) :
    readUnit ('0' :: '0' :: hexDigit (c.toNat / 16) :: hexDigit (c.toNat % 16) :: cs) =
      .ok (c, cs) := by
  have h0 : hexValue? '0' = some 0 := rfl
  have hunit : readHex ('0' :: '0' :: hexDigit (c.toNat / 16) :: hexDigit (c.toNat % 16) :: cs) =
      .ok (c.toNat, cs) := by
    simp only [readHex, h0, hexValue?_hexDigit (c.toNat / 16) (by omega),
      hexValue?_hexDigit (c.toNat % 16) (by omega)]
    congr 2
    omega
  rw [readUnit, hunit]
  change (if _ then _ else if _ then _ else _) = _
  rw [if_neg (by omega), if_neg (by omega), Char.ofNat_toNat]
  rfl

theorem readString_unit {rest : List Char} (h : readUnit cs = .ok (c, rest)) :
    readString (fuel + 1) acc ('\\' :: 'u' :: cs) = readString fuel (c :: acc) rest := by
  rw [readString, h]
  rfl

/-- A character that needs no escape. -/
theorem readString_bare (hquote : c ≠ '"') (hbackslash : c ≠ '\\') (h : 0x20 ≤ c.toNat) :
    readString (fuel + 1) acc (c :: cs) = readString fuel (c :: acc) cs := by
  rw [readString, if_neg (Nat.not_lt.mpr h)]
  · exact hquote
  · exact fun h _ => hbackslash h
  · exact fun _ h _ => hbackslash h
  · exact fun _ _ h _ => hbackslash h

/-- **A character is read as it is written**, escaped or not. -/
theorem readString_escapeChar (fuel : ℕ) (acc : List Char) (c : Char) (cs : List Char) :
    readString (fuel + 1) acc (escapeChar c ++ cs) = readString fuel (c :: acc) cs := by
  unfold escapeChar
  split
  case h_8 hquote hbackslash _ _ _ _ _ =>
    split
    next hcontrol => exact readString_unit (readUnit_control hcontrol cs)
    next hcontrol => exact readString_bare hquote hbackslash (Nat.not_lt.mp hcontrol)
  all_goals rfl

/-- **A string is read as it is written.** -/
theorem readString_escaped (acc s : List Char) (h : s.length < fuel) (cs : List Char) :
    readString fuel acc (s.flatMap escapeChar ++ '"' :: cs) =
      .ok (String.ofList (acc.reverse ++ s), cs) := by
  induction s generalizing fuel acc with
  | nil =>
    obtain ⟨fuel, rfl⟩ := Nat.exists_eq_succ_of_ne_zero (Nat.ne_zero_of_lt h)
    rw [List.append_nil]
    rfl
  | cons c s ih =>
    obtain ⟨fuel, rfl⟩ := Nat.exists_eq_succ_of_ne_zero (Nat.ne_zero_of_lt h)
    rw [List.flatMap_cons, List.append_assoc, readString_escapeChar,
      ih _ (Nat.lt_of_succ_lt_succ h), List.reverse_cons, List.append_assoc, List.singleton_append]

/-- The characters of a string between its quotes. -/
def quotedChars (s : String) : List Char := s.toList.flatMap escapeChar

theorem toList_quote (s : String) : (quote s).toList = '"' :: (quotedChars s ++ ['"']) :=
  String.toList_ofList

theorem length_le_quotedChars (s : String) : s.toList.length ≤ (quotedChars s).length := by
  unfold quotedChars
  induction s.toList with
  | nil => exact Nat.le_refl 0
  | cons c s ih =>
    have hc : 0 < (escapeChar c).length := by
      unfold escapeChar
      split
      case h_8 => split <;> exact Nat.succ_pos _
      all_goals exact Nat.succ_pos _
    rw [List.flatMap_cons, List.length_append, List.length_cons]
    omega

theorem readString_quotedChars (s : String) (h : (quotedChars s).length < fuel) (cs : List Char) :
    readString fuel [] (quotedChars s ++ '"' :: cs) = .ok (s, cs) := by
  have hread := readString_escaped [] s.toList ((length_le_quotedChars s).trans_lt h) cs
  rw [List.reverse_nil, List.nil_append, String.ofList_toList] at hread
  exact hread

/-! ### Whole numbers -/

/-- The value is over, and so is what holds it or another value follows. -/
def EndsValue (cs : List Char) : Prop := ∀ c ∈ cs.head?, c = ',' ∨ c = ']' ∨ c = '\x7d'

theorem EndsValue.endsNumber (h : EndsValue cs) : EndsNumber cs := by
  intro c hc
  rcases h c hc with rfl | rfl | rfl <;> rfl

theorem takeDigits_numeral {n : ℕ} (count : ℕ) (hds : IsNumeral ds)
    (h : Digits.valueFrom n ds < twoTo 64) (hcs : EndsNumber cs) :
    takeDigits n count (ds ++ cs) = (Digits.valueFrom n ds, count + ds.length, cs) := by
  induction ds generalizing n count with
  | nil =>
    cases cs with
    | nil => rfl
    | cons c cs =>
      have hc : Digits.digit? c = none := by simpa [isDigit] using hcs c rfl
      simp only [List.nil_append, takeDigits, hc]
      rfl
  | cons c ds ih =>
    obtain ⟨d, hd, -⟩ := Digits.digit?_of_isDigit (hds c List.mem_cons_self)
    have hcons : Digits.valueFrom n (c :: ds) = Digits.valueFrom (n * 10 + d) ds := by
      simp [Digits.valueFrom, hd]
    rw [hcons] at h ⊢
    have hnext : n * 10 + d < twoTo 64 := (Digits.le_valueFrom _ _).trans_lt h
    simp only [List.cons_append, takeDigits, hd, if_pos hnext]
    rw [ih (count + 1) (fun c hc => hds c (List.mem_cons_of_mem _ hc)) h, List.length_cons]
    congr 2
    omega

/-- Only zero is written with a zero in front. -/
theorem head_ofNat (h : 0 < n) : ∃ c ds, Digits.ofNat n = c :: ds ∧ c ≠ '0' := by
  induction n using Digits.ofNat.induct with
  | case1 n hn =>
    refine ⟨Digits.char n, [], by rw [Digits.ofNat, if_pos hn], ?_⟩
    have hchar : ∀ d < 10, 0 < d → Digits.char d ≠ '0' := by decide
    exact hchar n hn h
  | case2 n hn ih =>
    obtain ⟨c, ds, hds, hc⟩ := ih (by omega)
    exact ⟨c, ds ++ [Digits.char (n % 10)], by rw [Digits.ofNat, if_neg hn, hds]; rfl, hc⟩

/-- **All digits of a number are read.** -/
theorem readNumber_ofNat (negative : Bool) (h : n < twoTo 64) (hcs : EndsNumber cs) :
    readNumber negative (Digits.ofNat n ++ cs) = readAfterWhole negative n cs := by
  obtain rfl | hn := Nat.eq_zero_or_pos n
  · have hzero : Digits.ofNat 0 = ['0'] := by
      rw [Digits.ofNat]
      rfl
    have hhead : cs.head?.any isDigit = false := by
      cases cs with
      | nil => rfl
      | cons c cs => exact hcs c rfl
    rw [hzero, List.singleton_append]
    simp [readNumber, hhead]
  · have htake := takeDigits_numeral 0 (Digits.isNumeral_ofNat n)
      ((Digits.value_ofNat n).trans_lt h) hcs
    have hmore : cs.takeWhile isDigit = [] :=
      Digits.takeWhile_append (List.forall_mem_nil _) hcs
    obtain ⟨c, ds, hds, hc⟩ := head_ofNat hn
    have hdigit : isDigit c = true := Digits.isNumeral_ofNat n c (hds ▸ List.mem_cons_self)
    rw [show Digits.valueFrom 0 (Digits.ofNat n) = n from Digits.value_ofNat n] at htake
    rw [hds] at htake ⊢
    rw [List.cons_append] at htake ⊢
    simp [readNumber, hdigit, htake, hmore]

/-- **Whole numbers are read as they are written.** -/
theorem readNumber_natAbs {i : ℤ} (low : -(twoTo 63 : ℤ) ≤ i) (high : i < (twoTo 64 : ℤ))
    (hcs : EndsValue cs) :
    readNumber (decide (i < 0)) (Digits.ofNat i.natAbs ++ cs) = (.int i, some cs) := by
  have h63 : twoTo 63 = 9223372036854775808 := rfl
  have h64 : twoTo 64 = 18446744073709551616 := rfl
  have hafter (negative : Bool) : readAfterWhole negative i.natAbs cs =
      if !negative then (.int i.natAbs, some cs)
      else if i.natAbs = 0 ∨ twoTo 63 < i.natAbs then
        (.float (-i.natAbs.toUInt64.toFloat), some cs)
      else (.int (-i.natAbs), some cs) := by
    cases cs with
    | nil => rfl
    | cons c cs => rcases hcs c rfl with rfl | rfl | rfl <;> rfl
  rw [readNumber_ofNat _ (by omega) hcs.endsNumber, hafter]
  by_cases hi : i < 0
  · rw [decide_eq_true hi, if_neg (by decide), if_neg (by omega)]
    congr 2
    omega
  · rw [decide_eq_false hi, if_pos (by decide)]
    congr 2
    omega

/-! ### The characters of a value -/

/-- The characters of a value. -/
def Value.chars (v : Value) : List Char := v.render.toList

/-- The characters of a member of an object. -/
def memberChars (m : String × Value) : List Char :=
  '"' :: (quotedChars m.1 ++ '"' :: ':' :: m.2.chars)

/-- The parts, each behind a comma. -/
def tailChars (parts : List (List Char)) : List Char := parts.flatMap (',' :: ·)

theorem tailChars_cons (part : List Char) (parts : List (List Char)) :
    tailChars (part :: parts) = ',' :: (part ++ tailChars parts) := rfl

theorem length_memberChars (m : String × Value) :
    (memberChars m).length = (quotedChars m.1).length + m.2.chars.length + 3 := by
  simp only [memberChars, List.length_cons, List.length_append]
  omega

theorem memberChars_append (m : String × Value) (cs : List Char) :
    memberChars m ++ cs = '"' :: (quotedChars m.1 ++ '"' :: ':' :: (m.2.chars ++ cs)) := by
  simp [memberChars]

theorem toList_commaJoin (part : String) (parts : List String) :
    (commaJoin (part :: parts)).toList = part.toList ++ tailChars (parts.map String.toList) := by
  rw [commaJoin, String.toList_intercalate, List.map_cons]
  generalize part.toList = cs
  induction parts generalizing cs with
  | nil => simp [tailChars]
  | cons part parts ih =>
    rw [List.map_cons, List.intercalate_cons_cons, ih]
    simp [tailChars]

theorem renderItems_eq_map (items : List Value) : renderItems items = items.map Value.render := by
  induction items with
  | nil => rfl
  | cons v items ih => simp [renderItems, ih]

theorem map_renderMembers (members : List (String × Value)) :
    (renderMembers members).map String.toList = members.map memberChars := by
  induction members with
  | nil => rfl
  | cons m members ih => simp [renderMembers, ih, memberChars, toList_quote, Value.chars]

theorem Value.chars_int (i : ℤ) :
    (Value.int i).chars = (if i < 0 then ['-'] else []) ++ Digits.ofNat i.natAbs := by
  simp only [Value.chars, Value.render, Digits.intText, Digits.natText]
  split <;> simp

theorem Value.chars_string (s : String) :
    (Value.string s).chars = '"' :: (quotedChars s ++ ['"']) := by
  rw [Value.chars, Value.render, toList_quote]

theorem Value.chars_array (v : Value) (items : List Value) :
    (Value.array (v :: items)).chars =
      '[' :: (v.chars ++ (tailChars (items.map Value.chars) ++ [']'])) := by
  have hchars : (String.toList ∘ Value.render) = Value.chars := rfl
  rw [Value.chars, Value.render, String.toList_append, String.toList_append, renderItems,
    toList_commaJoin, renderItems_eq_map, List.map_map, hchars]
  simp [Value.chars]

theorem Value.chars_object (m : String × Value) (members : List (String × Value)) :
    (Value.object (m :: members)).chars =
      '\x7b' :: (memberChars m ++ (tailChars (members.map memberChars) ++ ['\x7d'])) := by
  simp only [Value.chars, Value.render, String.toList_append, renderMembers, toList_commaJoin,
    map_renderMembers]
  simp [memberChars, toList_quote, Value.chars]

/-! ### Values -/

/-- A value begins with its first character, which is no blank, no comma and no bracket at the end
of an array. -/
def StartsValue (c : Char) : Prop := isSpace c = false ∧ c ≠ ',' ∧ c ≠ ']'

instance (c : Char) : Decidable (StartsValue c) :=
  inferInstanceAs (Decidable (isSpace c = false ∧ c ≠ ',' ∧ c ≠ ']'))

theorem skipSpace_start (h : StartsValue c) (cs : List Char) : skipSpace (c :: cs) = c :: cs := by
  simp [skipSpace, h.1]

theorem ne_of_isDigit {d : Char} (h : isDigit c = true) (hd : isDigit d = false) : c ≠ d := by
  rintro rfl
  rw [h] at hd
  cases hd

theorem startsValue_of_isDigit (h : isDigit c = true) : StartsValue c := by
  refine ⟨?_, ne_of_isDigit h rfl, ne_of_isDigit h rfl⟩
  simp [isSpace, ne_of_isDigit (d := ' ') h rfl, ne_of_isDigit (d := '\n') h rfl,
    ne_of_isDigit (d := '\t') h rfl, ne_of_isDigit (d := '\r') h rfl]

/-- A digit is no other beginning of a value. -/
theorem readValue_digit (h : isDigit c = true) (cs : List Char) :
    readValue (fuel + 1) (c :: cs) = readNumber false (c :: cs) := by
  have hne (d : Char) (hd : isDigit d = false) : c ≠ d := ne_of_isDigit h hd
  simp [readValue, skipSpace_start (startsValue_of_isDigit h), h, hne 'n' rfl, hne 't' rfl,
    hne 'f' rfl, hne '"' rfl, hne '[' rfl, hne '\x7b' rfl, hne '-' rfl]

theorem Value.IsPlain.exists_start {v : Value} (h : v.IsPlain) :
    ∃ c cs, v.chars = c :: cs ∧ StartsValue c := by
  cases h with
  | null => exact ⟨'n', _, rfl, by decide⟩
  | bool b =>
    cases b with
    | false => exact ⟨'f', _, rfl, by decide⟩
    | true => exact ⟨'t', _, rfl, by decide⟩
  | @int i low high =>
    obtain ⟨c, ds, hds⟩ := List.exists_cons_of_ne_nil (Digits.ofNat_ne_nil i.natAbs)
    rw [Value.chars_int, hds]
    split
    · exact ⟨'-', _, rfl, by decide⟩
    · exact ⟨c, _, rfl, startsValue_of_isDigit (Digits.isNumeral_ofNat i.natAbs c (by simp [hds]))⟩
  | string s => exact ⟨_, _, Value.chars_string s, by decide⟩
  | @array items h =>
    cases items with
    | nil => exact ⟨'[', _, rfl, by decide⟩
    | cons v items => exact ⟨_, _, Value.chars_array v items, by decide⟩
  | @object members h =>
    cases members with
    | nil => exact ⟨'\x7b', _, rfl, by decide⟩
    | cons m members => exact ⟨_, _, Value.chars_object m members, by decide⟩

theorem endsValue_bracket (h : c = ']' ∨ c = '\x7d') (cs : List Char) : EndsValue (c :: cs) := by
  intro d hd
  obtain rfl := Option.some.inj hd
  exact .inr h

theorem endsValue_tailChars (parts : List (List Char)) (hcs : EndsValue cs) :
    EndsValue (tailChars parts ++ cs) := by
  cases parts with
  | nil => exact hcs
  | cons part parts =>
    intro c hc
    obtain rfl := Option.some.inj hc
    exact .inl rfl

/-- **The reader takes a value** and no more, if it gets two units of fuel for each character. -/
def Value.IsRead (v : Value) : Prop := ∀ fuel cs, 2 * v.chars.length ≤ fuel → EndsValue cs →
  readValue fuel (v.chars ++ cs) = (v.document, some cs)

/-- An item, also behind a comma. -/
theorem readItems_item {v : Value} (hplain : v.IsPlain) (hread : v.IsRead)
    (hfuel : 2 * v.chars.length ≤ fuel) (hcs : EndsValue cs) (first : Bool) :
    readItems (fuel + 1) first ((if first then [] else [',']) ++ (v.chars ++ cs)) =
      (v.document :: (readItems fuel false cs).1, (readItems fuel false cs).2) := by
  obtain ⟨c, ds, hv, hstart⟩ := hplain.exists_start
  have hvalue := hread fuel cs hfuel hcs
  rw [hv, List.cons_append] at hvalue ⊢
  cases first with
  | true => simp [readItems, skipSpace_start hstart, hstart.2.1, hstart.2.2, hvalue]
  | false =>
    have hcomma (cs : List Char) : skipSpace (',' :: cs) = ',' :: cs := rfl
    simp [readItems, hcomma, skipSpace_start hstart, hstart.2.2, hvalue]

/-- The items of an array that are left. A unit goes for each of them, another for the bracket. -/
theorem readItems_tail {items : List Value} (h : ∀ v ∈ items, v.IsPlain ∧ v.IsRead)
    (hfuel : 2 * (tailChars (items.map Value.chars)).length + 1 ≤ fuel) (cs : List Char) :
    readItems fuel false (tailChars (items.map Value.chars) ++ ']' :: cs) =
      (itemDocuments items, none, some cs) := by
  induction items generalizing fuel with
  | nil =>
    obtain ⟨fuel, rfl⟩ := Nat.exists_eq_add_of_le' (show 1 ≤ fuel by omega)
    rfl
  | cons v items ih =>
    obtain ⟨fuel, rfl⟩ := Nat.exists_eq_add_of_le' (show 1 ≤ fuel by omega)
    obtain ⟨hplain, hread⟩ := h v List.mem_cons_self
    rw [List.map_cons, tailChars_cons, List.length_cons, List.length_append] at hfuel
    have hitem := readItems_item hplain hread (show 2 * v.chars.length ≤ fuel by omega)
      (endsValue_tailChars (items.map Value.chars) (endsValue_bracket (.inl rfl) cs)) false
    rw [ih (fun w hw => h w (List.mem_cons_of_mem v hw)) (by omega)] at hitem
    rw [List.map_cons, tailChars_cons, List.cons_append, List.append_assoc]
    exact hitem

/-- A member, also behind a comma. -/
theorem readMembers_member {m : String × Value} (hread : m.2.IsRead)
    (hfuel : 2 * (memberChars m).length ≤ fuel) (hcs : EndsValue cs) (first : Bool) :
    readMembers (fuel + 1) first ((if first then [] else [',']) ++ (memberChars m ++ cs)) =
      ((m.1, m.2.document) :: (readMembers fuel false cs).1, (readMembers fuel false cs).2) := by
  rw [length_memberChars] at hfuel
  have hvalue := hread fuel cs (by omega) hcs
  have hkey := readString_quotedChars m.1 (show (quotedChars m.1).length < fuel by omega)
    (':' :: (m.2.chars ++ cs))
  have hquote (cs : List Char) : skipSpace ('"' :: cs) = '"' :: cs := rfl
  have hcolon (cs : List Char) : skipSpace (':' :: cs) = ':' :: cs := rfl
  rw [memberChars_append]
  cases first with
  | true => simp [readMembers, hquote, hkey, hcolon, hvalue]
  | false =>
    have hcomma (cs : List Char) : skipSpace (',' :: cs) = ',' :: cs := rfl
    simp [readMembers, hcomma, hquote, hkey, hcolon, hvalue]

/-- The members of an object that are left. -/
theorem readMembers_tail {members : List (String × Value)} (h : ∀ m ∈ members, m.2.IsRead)
    (hfuel : 2 * (tailChars (members.map memberChars)).length + 1 ≤ fuel) (cs : List Char) :
    readMembers fuel false (tailChars (members.map memberChars) ++ '\x7d' :: cs) =
      (memberDocuments members, none, some cs) := by
  induction members generalizing fuel with
  | nil =>
    obtain ⟨fuel, rfl⟩ := Nat.exists_eq_add_of_le' (show 1 ≤ fuel by omega)
    rfl
  | cons m members ih =>
    obtain ⟨fuel, rfl⟩ := Nat.exists_eq_add_of_le' (show 1 ≤ fuel by omega)
    rw [List.map_cons, tailChars_cons, List.length_cons, List.length_append] at hfuel
    have hmember := readMembers_member (h m List.mem_cons_self)
      (show 2 * (memberChars m).length ≤ fuel by omega)
      (endsValue_tailChars (members.map memberChars) (endsValue_bracket (.inr rfl) cs)) false
    rw [ih (fun w hw => h w (List.mem_cons_of_mem m hw)) (by omega)] at hmember
    rw [List.map_cons, tailChars_cons, List.cons_append, List.append_assoc]
    exact hmember

theorem isRead_string (s : String) : (Value.string s).IsRead := by
  intro fuel cs hfuel _
  rw [Value.chars_string, List.length_cons, List.length_append, List.length_singleton] at hfuel
  obtain ⟨fuel, rfl⟩ := Nat.exists_eq_add_of_le' (show 1 ≤ fuel by omega)
  have hread := readString_quotedChars s (show (quotedChars s).length < fuel by omega) cs
  have hquote : skipSpace ('"' :: (quotedChars s ++ '"' :: cs)) =
      '"' :: (quotedChars s ++ '"' :: cs) := rfl
  rw [Value.chars_string, List.cons_append, List.append_assoc, List.singleton_append]
  simp [readValue, hquote, hread, Value.document]

theorem isRead_int {i : ℤ} (low : -(twoTo 63 : ℤ) ≤ i) (high : i < (twoTo 64 : ℤ)) :
    (Value.int i).IsRead := by
  intro fuel cs hfuel hcs
  have hnumber := readNumber_natAbs low high hcs
  obtain ⟨c, ds, hds⟩ := List.exists_cons_of_ne_nil (Digits.ofNat_ne_nil i.natAbs)
  have hc : isDigit c = true := Digits.isNumeral_ofNat i.natAbs c (by simp [hds])
  rw [Value.chars_int] at hfuel ⊢
  rw [hds, List.cons_append] at hnumber
  rw [hds] at hfuel ⊢
  obtain ⟨fuel, rfl⟩ := Nat.exists_eq_add_of_le' (show 1 ≤ fuel by
    rw [List.length_append, List.length_cons] at hfuel
    omega)
  by_cases hi : i < 0
  · rw [decide_eq_true hi] at hnumber
    rw [if_pos hi]
    exact hnumber
  · rw [decide_eq_false hi] at hnumber
    rw [if_neg hi, List.nil_append, List.cons_append, readValue_digit hc]
    exact hnumber

theorem readValue_array (fuel : ℕ) (cs : List Char) :
    readValue (fuel + 1) ('[' :: cs) =
      (.array (readItems fuel true cs).1 (readItems fuel true cs).2.1,
        (readItems fuel true cs).2.2) := rfl

theorem isRead_array {items : List Value} (h : ∀ v ∈ items, v.IsPlain ∧ v.IsRead) :
    (Value.array items).IsRead := by
  intro fuel cs hfuel _
  cases items with
  | nil =>
    have hlength : (Value.array []).chars.length = 2 := rfl
    obtain ⟨fuel, rfl⟩ := Nat.exists_eq_add_of_le' (show 2 ≤ fuel by omega)
    rfl
  | cons v items =>
    rw [Value.chars_array, List.length_cons, List.length_append, List.length_append,
      List.length_singleton] at hfuel
    obtain ⟨fuel, rfl⟩ := Nat.exists_eq_add_of_le' (show 2 ≤ fuel by omega)
    obtain ⟨hplain, hread⟩ := h v List.mem_cons_self
    have hitems := readItems_item hplain hread (show 2 * v.chars.length ≤ fuel by omega)
      (endsValue_tailChars (items.map Value.chars) (endsValue_bracket (.inl rfl) cs)) true
    rw [readItems_tail (fun w hw => h w (List.mem_cons_of_mem v hw)) (by omega), if_pos rfl,
      List.nil_append] at hitems
    rw [Value.chars_array, List.cons_append, List.append_assoc, List.append_assoc,
      List.singleton_append, readValue_array, hitems]
    rfl

theorem readValue_object (fuel : ℕ) (cs : List Char) :
    readValue (fuel + 1) ('\x7b' :: cs) =
      (.object (readMembers fuel true cs).1 (readMembers fuel true cs).2.1,
        (readMembers fuel true cs).2.2) := rfl

theorem isRead_object {members : List (String × Value)} (h : ∀ m ∈ members, m.2.IsRead) :
    (Value.object members).IsRead := by
  intro fuel cs hfuel _
  cases members with
  | nil =>
    have hlength : (Value.object []).chars.length = 2 := rfl
    obtain ⟨fuel, rfl⟩ := Nat.exists_eq_add_of_le' (show 2 ≤ fuel by omega)
    rfl
  | cons m members =>
    rw [Value.chars_object, List.length_cons, List.length_append, List.length_append,
      List.length_singleton] at hfuel
    obtain ⟨fuel, rfl⟩ := Nat.exists_eq_add_of_le' (show 2 ≤ fuel by omega)
    have hmembers := readMembers_member (h m List.mem_cons_self)
      (show 2 * (memberChars m).length ≤ fuel by omega)
      (endsValue_tailChars (members.map memberChars) (endsValue_bracket (.inr rfl) cs)) true
    rw [readMembers_tail (fun w hw => h w (List.mem_cons_of_mem m hw)) (by omega), if_pos rfl,
      List.nil_append] at hmembers
    rw [Value.chars_object, List.cons_append, List.append_assoc, List.append_assoc,
      List.singleton_append, readValue_object, hmembers]
    rfl

/-- **The reader takes every plain value.** -/
theorem Value.IsPlain.isRead {v : Value} (h : v.IsPlain) : v.IsRead := by
  induction h with
  | null =>
    intro fuel cs hfuel _
    have hlength : Value.null.chars.length = 4 := rfl
    obtain ⟨fuel, rfl⟩ := Nat.exists_eq_add_of_le' (show 1 ≤ fuel by omega)
    rfl
  | bool b =>
    intro fuel cs hfuel _
    have hlength : 4 ≤ (Value.bool b).chars.length := by cases b <;> decide
    obtain ⟨fuel, rfl⟩ := Nat.exists_eq_add_of_le' (show 1 ≤ fuel by omega)
    cases b <;> rfl
  | int low high => exact isRead_int low high
  | string s => exact isRead_string s
  | array h ih => exact isRead_array fun v hv => ⟨h v hv, ih v hv⟩
  | object h ih => exact isRead_object ih

/-- **A plain value is read as it is written.** -/
theorem read_render {v : Value} (h : v.IsPlain) : read v.render = (v.document, false) := by
  have hread := h.isRead (2 * v.chars.length + 2) [] (Nat.le_add_right _ _) nofun
  rw [List.append_nil, Value.chars] at hread
  simp only [read, hread]
  rfl

end LiveBook.Json
