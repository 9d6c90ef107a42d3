/-
The text of a JSON string literal.  Quotes, backslashes and control characters are
escaped, everything else stands for itself.
-/
import Wiiland.Lib.Text

namespace JsonText

def quote : Char := Char.ofNat 34

def backslash : Char := Char.ofNat 92

/-- The letter of a character with an escape of its own. -/
def letter (c : Char) : Option Char :=
  match c.toNat with
  | 8 => some 'b'
  | 9 => some 't'
  | 10 => some 'n'
  | 12 => some 'f'
  | 13 => some 'r'
  | 34 => some quote
  | 92 => some backslash
  | _ => none

def hexDigit (n : Nat) : Char := Nat.digitChar (n % 16)

def escapeChar (c : Char) : List Char :=
  match letter c with
  | some short => [backslash, short]
  | none =>
      if c.toNat < 32 then [backslash, 'u', '0', '0', hexDigit (c.toNat / 16), hexDigit c.toNat]
      else [c]

/-- What stands between the quotes of a literal. -/
def escape (text : List Char) : List Char := text.flatMap escapeChar

theorem escape_cons (c : Char) (text : List Char) :
    escape (c :: text) = escapeChar c ++ escape text := rfl

theorem utf8Size_hexDigit (n : Nat) : (hexDigit n).utf8Size = 1 := by
  have hdigits : ∀ digit < 16, (Nat.digitChar digit).utf8Size = 1 := by decide
  exact hdigits (n % 16) (Nat.mod_lt n (by decide))

theorem utf8Size_letter {c short : Char} (hletter : letter c = some short) :
    short.utf8Size = 1 := by
  rw [letter] at hletter
  split at hletter
  case h_8 => cases hletter
  all_goals
    cases hletter
    decide

theorem byteLength_escapeChar (c : Char) : Text.byteLength (escapeChar c) ≤ 6 := by
  have hslash : backslash.utf8Size = 1 := by decide
  rw [escapeChar]
  split
  · next short hletter =>
    simp only [Text.byteLength_cons, Text.byteLength_nil, hslash, utf8Size_letter hletter]
    decide
  · split
    · have hfixed : 'u'.utf8Size = 1 ∧ '0'.utf8Size = 1 := by decide
      simp only [Text.byteLength_cons, Text.byteLength_nil, hslash, hfixed, utf8Size_hexDigit]
      decide
    · have hsize := c.utf8Size_le_four
      simp only [Text.byteLength_cons, Text.byteLength_nil]
      omega

/-- Escaping makes at most six bytes of a character. -/
theorem byteLength_escape (text : List Char) :
    Text.byteLength (escape text) ≤ 6 * text.length := by
  induction text with
  | nil => exact Nat.le_refl 0
  | cons c text ih =>
      have hhead := byteLength_escapeChar c
      rw [escape_cons, Text.byteLength_append, List.length_cons]
      omega

end JsonText
