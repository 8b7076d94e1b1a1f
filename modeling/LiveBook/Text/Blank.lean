/-!
# Blank characters

A text is blank when it has nothing but white space in it, and white space is what
the Unicode property of that name says: twenty-five characters, among them the
no-break spaces and the separators of lines and paragraphs, but neither the
zero-width no-break space nor the separators below the space of ASCII.

* `LiveBook.Text.isBlankChar` – the property;
* `LiveBook.Text.trim` – a text without the white space at its two ends;
* `LiveBook.Text.isBlank` – whether nothing is left of it.
-/

namespace LiveBook.Text

/-- Whether a character is white space. -/
def isBlankChar (c : Char) : Bool :=
  let n := c.toNat
  (9 ≤ n && n ≤ 13) || n == 0x20 || n == 0x85 || n == 0xA0 || n == 0x1680 ||
    (0x2000 ≤ n && n ≤ 0x200A) || n == 0x2028 || n == 0x2029 || n == 0x202F ||
    n == 0x205F || n == 0x3000

/-- The characters without white space in front. -/
def trimStart (cs : List Char) : List Char := cs.dropWhile isBlankChar

/-- The characters without white space at either end. -/
def trimChars (cs : List Char) : List Char := (trimStart (trimStart cs).reverse).reverse

/-- The text without white space at either end. -/
def trim (s : String) : String := String.ofList (trimChars s.toList)

/-- Whether a text holds nothing but white space. -/
def isBlank (s : String) : Bool := (trimChars s.toList).isEmpty

/-- Every character that the standard library calls white space is one. -/
theorem isBlankChar_of_isWhitespace {c : Char} (h : c.isWhitespace = true) :
    isBlankChar c = true := by
  simp only [Char.isWhitespace, Bool.or_eq_true, decide_eq_true_eq] at h
  rcases h with ((rfl | rfl) | rfl) | rfl <;> decide

end LiveBook.Text
