/-
Text from bytes that need not be UTF-8.  Well-formed bytes are their text; of other
bytes each maximal broken sequence becomes one replacement character.
-/
import Wiiland.Lib.Text

namespace LossyText

def replacement : Char := Char.ofNat 0xFFFD

def continues (byte : UInt8) : Bool := 0x80 ≤ byte && byte ≤ 0xBF

/-- The length of the sequence a byte leads, zero for a byte that leads none. -/
def width (first : UInt8) : Nat :=
  if first < 0x80 then 1
  else if 0xC2 ≤ first && first ≤ 0xDF then 2
  else if 0xE0 ≤ first && first ≤ 0xEF then 3
  else if 0xF0 ≤ first && first ≤ 0xF4 then 4
  else 0

/-- The second bytes that rule out overlong forms, surrogates and code points past
the last. -/
def second (first byte : UInt8) : Bool :=
  if first = 0xE0 then 0xA0 ≤ byte && byte ≤ 0xBF
  else if first = 0xED then 0x80 ≤ byte && byte ≤ 0x9F
  else if first = 0xF0 then 0x90 ≤ byte && byte ≤ 0xBF
  else if first = 0xF4 then 0x80 ≤ byte && byte ≤ 0x8F
  else continues byte

/-- The bytes that continue a sequence after its first byte. -/
def followers (first : UInt8) (rest : List UInt8) : List UInt8 :=
  match rest.take (width first - 1) with
  | [] => []
  | byte :: bytes => if second first byte then byte :: bytes.takeWhile continues else []

/-- One character for a whole sequence, and the replacement for a broken one. -/
def character (first : UInt8) (more : List UInt8) : Char :=
  if more.length + 1 = width first then
    ((Text.decode (first :: more)).bind List.head?).getD replacement
  else replacement

def replaceBroken : List UInt8 → List Char
  | [] => []
  | first :: rest =>
      let more := followers first rest
      character first more :: replaceBroken (rest.drop more.length)
termination_by bytes => bytes.length
decreasing_by
  rw [List.length_drop, List.length_cons]
  omega

def decode (bytes : List UInt8) : List Char :=
  match Text.decode bytes with
  | some text => text
  | none => replaceBroken bytes

theorem decode_encode (text : List Char) : decode (Text.encode text) = text := by
  rw [decode, Text.decode_encode]

theorem length_replaceBroken (bytes : List UInt8) :
    (replaceBroken bytes).length ≤ bytes.length := by
  induction bytes using replaceBroken.induct with
  | case1 => exact Nat.le_of_eq (congrArg List.length replaceBroken.eq_1)
  | case2 first rest more ih =>
      have hrest : (rest.drop (followers first rest).length).length ≤ rest.length :=
        (List.drop_sublist _ rest).length_le
      have htail := ih.trans hrest
      rw [replaceBroken, List.length_cons, List.length_cons]
      exact Nat.succ_le_succ htail

/-- There are no more characters than bytes. -/
theorem length_decode (bytes : List UInt8) : (decode bytes).length ≤ bytes.length := by
  rw [decode]
  split
  · next text htext =>
    rw [← Text.encode_of_decode htext, Text.length_encode]
    exact Text.length_le_byteLength text
  · exact length_replaceBroken bytes

end LossyText
