/-
Integer-only Wii input to virtual evdev mappings.  Values are processed with
wide intermediates and truncating division, as the source computes them.
-/
import Mathlib.Data.Vector.Defs
import Wiiland.Core.Input
import Wiiland.Lib.Wrap

namespace Wiiland

namespace Mapping

def virtualAxisMin : Int := -32768
def virtualAxisMax : Int := 32767
def virtualTriggerMax : Int := 1023
def wiimoteAccelAxisExtent : Int := 500
def nunchukStickAxisExtent : Int := 120
def classicStickAxisExtent : Int := 30
def classicTriggerMax : Int := 62
def proStickAxisExtent : Int := 1024
def rhythmStickNegativeExtent : Int := 32
def rhythmStickPositiveExtent : Int := 31
def drumPressureMax : Int := 7
def guitarWhammyNegativeExtent : Int := 16
def guitarWhammyPositiveExtent : Int := 15
def guitarFretMax : Int := 31
def motionPlusAxisExtent : Int := 16000

def btnSouth : Nat := 0x130
def btnEast : Nat := 0x131
def btnNorth : Nat := 0x133
def btnWest : Nat := 0x134
def btnTl : Nat := 0x136
def btnTr : Nat := 0x137
def btnTl2 : Nat := 0x138
def btnTr2 : Nat := 0x139
def btnSelect : Nat := 0x13a
def btnStart : Nat := 0x13b
def btnMode : Nat := 0x13c
def btnThumbl : Nat := 0x13d
def btnThumbr : Nat := 0x13e
def btnDpadLeft : Nat := 0x222
def btnDpadRight : Nat := 0x223
def btnDpadUp : Nat := 0x220
def btnDpadDown : Nat := 0x221
def btn1 : Nat := 0x101
def btn2 : Nat := 0x102
def btnC : Nat := 0x132
def btnZ : Nat := 0x135
def btnStrumBarUp : Nat := 0x229
def btnStrumBarDown : Nat := 0x22a
def btnFretFarUp : Nat := 0x224
def btnFretUp : Nat := 0x225
def btnFretMid : Nat := 0x226
def btnFretLow : Nat := 0x227
def btnFretFarLow : Nat := 0x228

def absX : Nat := 0
def absY : Nat := 1
def absZ : Nat := 2
def absRx : Nat := 3
def absRy : Nat := 4
def absRz : Nat := 5
def absThrottle : Nat := 6
def absRudder : Nat := 7
def absWheel : Nat := 8
def absGas : Nat := 9
def absBrake : Nat := 10
def absHat0x : Nat := 16
def absHat1x : Nat := 18
def absHat1y : Nat := 19
def absHat2x : Nat := 20
def absHat3x : Nat := 22
def absHat3y : Nat := 23
def absMisc : Nat := 40
def absPressure : Nat := 24
def absDistance : Nat := 25
def absTiltX : Nat := 26
def absTiltY : Nat := 27

def scaleSignedAxis (value negativeExtent positiveExtent : Int) : Int :=
  if negativeExtent ≤ 0 ∨ positiveExtent ≤ 0 then 0
  else if value ≤ -negativeExtent then virtualAxisMin
  else if positiveExtent ≤ value then virtualAxisMax
  else if value < 0 then
    Wrap.i32 ((value * -virtualAxisMin).tdiv negativeExtent)
  else Wrap.i32 ((value * virtualAxisMax).tdiv positiveExtent)

def scaleUnsignedAxis (value sourceMax targetMax : Int) : Int :=
  if sourceMax ≤ 0 ∨ targetMax < 0 ∨ value ≤ 0 then 0
  else if sourceMax ≤ value then targetMax
  else Wrap.i32 ((value * targetMax).tdiv sourceMax)

def mapButton : Button → Nat
  | .left => btnDpadLeft
  | .right => btnDpadRight
  | .up => btnDpadUp
  | .down => btnDpadDown
  | .a => btnSouth
  | .b => btnEast
  | .plus => btnStart
  | .minus => btnSelect
  | .home => btnMode
  | .one => btn1
  | .two => btn2
  | .x => btnNorth
  | .y => btnWest
  | .shoulderLeft => btnTl
  | .shoulderRight => btnTr
  | .triggerLeft => btnTl2
  | .triggerRight => btnTr2
  | .thumbLeft => btnThumbl
  | .thumbRight => btnThumbr
  | .c => btnC
  | .z => btnZ
  | .strumBarUp => btnStrumBarUp
  | .strumBarDown => btnStrumBarDown
  | .fretFarUp => btnFretFarUp
  | .fretUp => btnFretUp
  | .fretMid => btnFretMid
  | .fretLow => btnFretLow
  | .fretFarLow => btnFretFarLow

/-- Which button a virtual key code stands for.  It inverts `mapButton`, so two
buttons never share a code. -/
def buttonOfKey (code : Nat) : Option Button :=
  Button.all.find? fun button => mapButton button = code

theorem buttonOfKey_mapButton (button : Button) :
    buttonOfKey (mapButton button) = some button := by
  cases button <;> decide

theorem mapButton_of_buttonOfKey {code : Nat} {button : Button}
    (hcode : buttonOfKey code = some button) : mapButton button = code := by
  simpa using List.find?_some hcode

def drumsAbsCode (index : Nat) : Option Nat :=
  [absX, absRx, absRy, absZ, absRz, absHat3x, absHat3y, absMisc][index]?

def scaleDrumsPressure (index : Nat) (value : Int) : Int :=
  let max := if index = 1 ∨ index = 2 ∨ index = 5 then virtualAxisMax
    else virtualTriggerMax
  scaleUnsignedAxis value drumPressureMax max

structure Abs3 where
  x : Int
  y : Int
  z : Int
deriving DecidableEq, Repr

/-- The first logical slot of a motion payload. -/
def primary (values : Vector Abs3 8) : Abs3 := values[0]

structure MappedAxis where
  code : Nat
  value : Int
deriving DecidableEq, Repr

def mapXyz (value : Abs3) (codes : Nat × Nat × Nat) (extent : Int) :
    List MappedAxis :=
  [⟨codes.1, scaleSignedAxis value.x extent extent⟩,
    ⟨codes.2.1, scaleSignedAxis value.y extent extent⟩,
    ⟨codes.2.2, scaleSignedAxis value.z extent extent⟩]

inductive MotionKind where
  | accel
  | nunchuk
  | classic
  | pro
  | guitar
  | balance
  | motionPlus
  | drums
deriving DecidableEq, Repr

/-- The filled part of the source's nine-entry array and its `count`. -/
structure MappedMotion where
  axes : List MappedAxis := []
deriving DecidableEq, Repr

def MappedMotion.push (out : MappedMotion) (code : Nat) (value : Int) :
    MappedMotion :=
  if out.axes.length < 9 then ⟨out.axes ++ [⟨code, value⟩]⟩ else out

def MappedMotion.pushAll (out : MappedMotion) (axes : List MappedAxis) :
    MappedMotion :=
  axes.foldl (fun out axis => out.push axis.code axis.value) out

/-- Translate one absolute event payload.  `values` uses fixed logical slots;
only fields required by `kind` are read. -/
def mapMotion (kind : MotionKind) (values : Vector Abs3 8) : MappedMotion :=
  let out : MappedMotion := {}
  match kind with
  | .accel =>
      out.pushAll (mapXyz values[0] (absThrottle, absRudder, absWheel)
        wiimoteAccelAxisExtent)
  | .nunchuk =>
      let out := out.push absX (scaleSignedAxis values[0].x
        nunchukStickAxisExtent nunchukStickAxisExtent)
      let out := out.push absY (scaleSignedAxis values[0].y
        nunchukStickAxisExtent nunchukStickAxisExtent)
      out.pushAll (mapXyz values[1] (absHat1x, absHat1y, absHat2x)
        wiimoteAccelAxisExtent)
  | .classic | .pro =>
      let extent := if kind = .classic then classicStickAxisExtent
        else proStickAxisExtent
      let out := out.push absX (scaleSignedAxis values[0].x extent extent)
      let out := out.push absY (scaleSignedAxis values[0].y extent extent)
      let out := out.push absRx (scaleSignedAxis values[1].x extent extent)
      let out := out.push absRy (scaleSignedAxis values[1].y extent extent)
      if kind = .classic then
        let out := out.push absZ (scaleUnsignedAxis values[2].x
          classicTriggerMax virtualTriggerMax)
        out.push absRz (scaleUnsignedAxis values[2].y
          classicTriggerMax virtualTriggerMax)
      else out
  | .guitar =>
      let out := out.push absX (scaleSignedAxis values[0].x
        rhythmStickNegativeExtent rhythmStickPositiveExtent)
      let out := out.push absY (scaleSignedAxis values[0].y
        rhythmStickNegativeExtent rhythmStickPositiveExtent)
      let out := out.push absHat3x (scaleSignedAxis values[1].x
        guitarWhammyNegativeExtent guitarWhammyPositiveExtent)
      out.push absHat3y (scaleUnsignedAxis values[2].x
        guitarFretMax virtualTriggerMax)
  | .balance =>
      [absPressure, absDistance, absTiltX, absTiltY].zipIdx.foldl
        (fun out code => out.push code.1 (values[code.2]?.elim 0 Abs3.x)) out
  | .motionPlus =>
      out.pushAll (mapXyz values[0] (absGas, absBrake, absHat0x)
        motionPlusAxisExtent)
  | .drums =>
      let out := out.push absX (scaleSignedAxis values[0].x
        rhythmStickNegativeExtent rhythmStickPositiveExtent)
      let out := out.push absY (scaleSignedAxis values[0].y
        rhythmStickNegativeExtent rhythmStickPositiveExtent)
      (values.toList.zipIdx.drop 1).foldl
        (fun out value => out.push ((drumsAbsCode value.2).getD 0)
          (scaleDrumsPressure value.2 value.1.x)) out

end Mapping

end Wiiland
