/-
Logical controller inputs shared by hardware adapters and the deterministic
engine.
-/
import Mathlib.Data.List.Basic
import Wiiland.Lib.BitSet

namespace Wiiland

/-- An axis of a motion sensor. -/
inductive Axis where
  | x
  | y
  | z

/-- A logical controller button. -/
inductive Button where
  | left | right | up | down
  | plus | minus | one | two
  | a | b | home | c | z | x | y
  | shoulderLeft | shoulderRight | triggerLeft | triggerRight
  | thumbLeft | thumbRight
  | strumBarUp | strumBarDown
  | fretFarUp | fretUp | fretMid | fretLow | fretFarLow
deriving DecidableEq, Repr

namespace Button

def all : List Button :=
  [.left, .right, .up, .down, .a, .b, .plus, .minus, .home, .one, .two, .x, .y,
    .shoulderLeft, .shoulderRight, .triggerLeft, .triggerRight, .thumbLeft,
    .thumbRight, .c, .z, .strumBarUp, .strumBarDown, .fretFarUp, .fretUp,
    .fretMid, .fretLow, .fretFarLow]

/-- Stable logical button number used by mapping and diagnostic contracts. -/
def code : Button → Nat
  | .left => 0
  | .right => 1
  | .up => 2
  | .down => 3
  | .plus => 6
  | .minus => 7
  | .one => 9
  | .two => 10
  | .a => 4
  | .b => 5
  | .home => 8
  | .c => 19
  | .z => 20
  | .x => 11
  | .y => 12
  | .shoulderLeft => 13
  | .shoulderRight => 14
  | .triggerLeft => 15
  | .triggerRight => 16
  | .thumbLeft => 17
  | .thumbRight => 18
  | .strumBarUp => 21
  | .strumBarDown => 22
  | .fretFarUp => 23
  | .fretUp => 24
  | .fretMid => 25
  | .fretLow => 26
  | .fretFarLow => 27

def fromCode (code : Nat) : Option Button := all[code]?

theorem mem_all (button : Button) : button ∈ all := by
  cases button <;> decide

/-- `ALL` lists the buttons in the order of their codes. -/
theorem fromCode_code (button : Button) : fromCode button.code = some button := by
  cases button <;> rfl

theorem code_injective : Function.Injective code := by
  intro first second hcode
  have hfrom := fromCode_code first
  rw [hcode, fromCode_code second] at hfrom
  exact (Option.some.inj hfrom).symm

theorem code_lt (button : Button) : button.code < 32 := by
  cases button <;> decide

end Button

/-- The state of a logical controller button. -/
inductive ButtonState where
  | released
  | pressed
  | repeated
deriving DecidableEq, Repr

/-- Linux-compatible released, pressed, or repeated value. -/
def ButtonState.value : ButtonState → Nat
  | .released => 0
  | .pressed => 1
  | .repeated => 2

/-- A decoded button transition. -/
structure ButtonEvent where
  button : Button
  state : ButtonState
deriving DecidableEq, Repr

/-- The independently removable interface that owns a button transition. -/
inductive InputSource where
  | core
  | nunchuk
  | classicController
  | proController
  | drums
  | guitar
deriving DecidableEq, Repr

def InputSource.all : List InputSource :=
  [.core, .nunchuk, .classicController, .proController, .drums, .guitar]

theorem InputSource.mem_all (source : InputSource) : source ∈ all := by
  cases source <;> decide

end Wiiland
