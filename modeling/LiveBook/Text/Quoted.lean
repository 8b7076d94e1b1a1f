import LiveBook.Text.Blank
import LiveBook.Text.Visible

/-!
# Quoted texts

An error that shows a text shows it between quotes, with everything escaped that
would not be seen: the quote and the backslash themselves, tabs and ends of lines by
their letters, and every other invisible character by its code point.

`LiveBook.Text.quoted` is that form.
-/

namespace LiveBook.Text

/-- The hexadecimal digits of a number, most significant first. -/
def hexDigits (n : Nat) : List Char := Nat.toDigits 16 n

/-- The form of a character between quotes. -/
def quotedChar (c : Char) : List Char :=
  match c with
  | '"' => ['\\', '"']
  | '\\' => ['\\', '\\']
  | '\n' => ['\\', 'n']
  | '\r' => ['\\', 'r']
  | '\t' => ['\\', 't']
  | '\x00' => ['\\', '0']
  | _ =>
    if isVisible c then [c]
    else ['\\', 'u', '\x7b'] ++ hexDigits c.toNat ++ ['\x7d']

/-- A text between quotes, with its invisible characters escaped. -/
def quoted (s : String) : String :=
  String.ofList ('"' :: (s.toList.flatMap quotedChar ++ ['"']))

end LiveBook.Text
