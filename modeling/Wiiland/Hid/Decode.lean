/-
The evdev decoder: one state machine for each readable interface, with its axis
cache, its tracked key state and the recovery after a kernel buffer overrun.
-/
import Mathlib.Data.Vector.Defs
import Wiiland.Core.Input
import Wiiland.Lib.WordSet

namespace Wiiland

namespace Hid

open WordSet (Words)

structure Axis3 where
  x : Int := 0
  y : Int := 0
  z : Int := 0
deriving DecidableEq, Repr

/-- The kernel's `timeval`. -/
structure Timeval where
  sec : Int
  usec : Int
deriving DecidableEq, Repr

structure Timestamp where
  seconds : Int
  microseconds : Nat
deriving DecidableEq, Repr

def Timestamp.fromTimeval (time : Timeval) : Timestamp where
  seconds := time.sec
  microseconds :=
    min (if 0 ≤ time.usec ∧ time.usec < 0x100000000 then time.usec.toNat else 0)
      999999

/-- A raw Linux input event consumed by the decoder. -/
structure InputEvent where
  time : Timeval
  eventType : Nat
  code : Nat
  value : Int
deriving DecidableEq, Repr

inductive InterfaceKind where
  | core
  | accel
  | ir
  | motionPlus
  | nunchuk
  | classic
  | balanceBoard
  | pro
  | drums
  | guitar
deriving DecidableEq, Repr

inductive EventKind where
  | key (event : ButtonEvent)
  | accel (value : Axis3)
  | ir (points : Vector Axis3 4)
  | balanceBoard (sensors : Vector Axis3 4)
  | motionPlus (value : Axis3)
  | proControllerKey (event : ButtonEvent)
  | proControllerMove (sticks : Vector Axis3 2)
  | watch
  | classicControllerKey (event : ButtonEvent)
  | classicControllerMove (slots : Vector Axis3 3)
  | nunchukKey (event : ButtonEvent)
  | nunchukMove (slots : Vector Axis3 2)
  | drumsKey (event : ButtonEvent)
  | drumsMove (slots : Vector Axis3 8)
  | guitarKey (event : ButtonEvent)
  | guitarMove (slots : Vector Axis3 3)
  | gone
  | unknown (value : Nat)
deriving DecidableEq, Repr

structure Event where
  time : Timestamp
  kind : EventKind
deriving DecidableEq, Repr

def evSyn : Nat := 0
def evKey : Nat := 1
def evAbs : Nat := 3
def synReport : Nat := 0
def synDropped : Nat := 3

def keyLeft : Nat := 105
def keyRight : Nat := 106
def keyUp : Nat := 103
def keyDown : Nat := 108
def keyNext : Nat := 0x197
def keyPrevious : Nat := 0x19c
def btn1 : Nat := 0x101
def btn2 : Nat := 0x102
def btn3 : Nat := 0x103
def btn4 : Nat := 0x104
def btn5 : Nat := 0x105
def btnA : Nat := 0x130
def btnB : Nat := 0x131
def btnC : Nat := 0x132
def btnX : Nat := 0x133
def btnY : Nat := 0x134
def btnZ : Nat := 0x135
def btnTl : Nat := 0x136
def btnTr : Nat := 0x137
def btnTl2 : Nat := 0x138
def btnTr2 : Nat := 0x139
def btnSelect : Nat := 0x13a
def btnStart : Nat := 0x13b
def btnMode : Nat := 0x13c
def btnThumbl : Nat := 0x13d
def btnThumbr : Nat := 0x13e
def btnDpadUp : Nat := 0x220
def btnDpadDown : Nat := 0x221
def btnDpadLeft : Nat := 0x222
def btnDpadRight : Nat := 0x223
def btnEast : Nat := btnB
def btnSouth : Nat := btnA
def btnNorth : Nat := btnX
def btnWest : Nat := btnY

def absX : Nat := 0
def absY : Nat := 1
def absRx : Nat := 3
def absRy : Nat := 4
def absRz : Nat := 5
def absHat0x : Nat := 16
def absHat0y : Nat := 17
def absHat1x : Nat := 18
def absHat1y : Nat := 19
def absHat2x : Nat := 20
def absHat2y : Nat := 21
def absHat3x : Nat := 22
def absHat3y : Nat := 23

/-- A 64-bit sum clamped to the range of a 32-bit integer. -/
def clampI32 (value : Int) : Int := max (-0x80000000) (min value 0x7fffffff)

/-- Learned offsets, in hundredths, and the learning factor. -/
structure MotionPlusNormalizer where
  offsets : Axis3 := {}
  factor : Int := 0
deriving DecidableEq, Repr

def scaleOffset (value : Int) : Int := clampI32 (value * 100)

/-- The normalized reading and the offset it moves. -/
def normalizeAxis (value offset factor : Int) : Int × Int :=
  let normalized := clampI32 (value - offset.tdiv 100)
  (normalized,
    if normalized ≠ 0 then
      clampI32 (offset + if 0 < normalized then factor else -factor)
    else offset)

namespace MotionPlusNormalizer

def set (normalizer : MotionPlusNormalizer) (x y z factor : Int) :
    MotionPlusNormalizer :=
  { normalizer with
      offsets := ⟨scaleOffset x, scaleOffset y, scaleOffset z⟩
      factor := factor }

def values (normalizer : MotionPlusNormalizer) : Int × Int × Int × Int :=
  (normalizer.offsets.x.tdiv 100, normalizer.offsets.y.tdiv 100,
    normalizer.offsets.z.tdiv 100, normalizer.factor)

def normalize (normalizer : MotionPlusNormalizer) (value : Axis3) :
    Axis3 × MotionPlusNormalizer :=
  let x := normalizeAxis value.x normalizer.offsets.x normalizer.factor
  let y := normalizeAxis value.y normalizer.offsets.y normalizer.factor
  let z := normalizeAxis value.z normalizer.offsets.z normalizer.factor
  (⟨x.1, y.1, z.1⟩, { normalizer with offsets := ⟨x.2, y.2, z.2⟩ })

end MotionPlusNormalizer

/-- `KEY_MAX` is 0x2ff on Linux: 768 bits. -/
def keyWords : Nat := 12

/-- State needed to preserve deterministic `SYN_DROPPED` recovery ordering. -/
structure RecoveryState where
  keyState : Words keyWords 64 := WordSet.empty
  keyPending : Words keyWords 64 := WordSet.empty
  desynced : Bool := false
  keyResyncPending : Bool := false
  reportResyncPending : Bool := false
  resyncTime : Timeval := ⟨0, 0⟩

/-- The words of a key snapshot; missing words are zero. -/
def snapshotWords (keys : List (BitVec 64)) : Words keyWords 64 :=
  fun i => keys.getD i 0

namespace RecoveryState

def dropped (recovery : RecoveryState) : RecoveryState :=
  { recovery with desynced := true }

def initializeKeys (recovery : RecoveryState) (keys : List (BitVec 64)) :
    RecoveryState :=
  { recovery with
      keyPending := WordSet.empty
      keyState := snapshotWords keys
      desynced := false
      keyResyncPending := false
      reportResyncPending := false }

def seed (recovery : RecoveryState) (keys : List (BitVec 64)) (time : Timeval)
    (hasAbs : Bool) : RecoveryState :=
  let next := snapshotWords keys
  let pending := WordSet.symmDiff recovery.keyState next
  { keyState := next
    keyPending := pending
    keyResyncPending := (List.range keyWords).any fun i =>
      WordSet.wordAt pending i != 0
    resyncTime := time
    reportResyncPending := hasAbs
    desynced := false }

/-- The next pending key in code order; the flag falls when none is left. -/
def nextKey (recovery : RecoveryState) : Option InputEvent × RecoveryState :=
  if recovery.keyResyncPending then
    match WordSet.lowest recovery.keyPending with
    | some code =>
        (some
          { time := recovery.resyncTime
            eventType := evKey
            code := code
            value := if WordSet.mem recovery.keyState code then 1 else 0 },
          { recovery with
              keyPending := WordSet.erase recovery.keyPending code })
    | none => (none, { recovery with keyResyncPending := false })
  else (none, recovery)

def takeReport (recovery : RecoveryState) : Option InputEvent × RecoveryState :=
  if recovery.reportResyncPending then
    (some
      { time := recovery.resyncTime
        eventType := evSyn
        code := synReport
        value := 0 },
      { recovery with reportResyncPending := false })
  else (none, recovery)

def hasPending (recovery : RecoveryState) : Bool :=
  recovery.keyResyncPending || recovery.reportResyncPending

def remember (recovery : RecoveryState) (input : InputEvent) : RecoveryState :=
  if input.eventType ≠ evKey ∨ keyWords * 64 ≤ input.code ∨
      ¬(0 ≤ input.value ∧ input.value ≤ 2) then recovery
  else if input.value = 0 then
    { recovery with keyState := WordSet.erase recovery.keyState input.code }
  else { recovery with keyState := WordSet.insert recovery.keyState input.code }

end RecoveryState

def setX {n : Nat} (slots : Vector Axis3 n) (i : Nat) (value : Int) :
    Vector Axis3 n :=
  slots.mapIdx fun j slot => if j = i then { slot with x := value } else slot

def setY {n : Nat} (slots : Vector Axis3 n) (i : Nat) (value : Int) :
    Vector Axis3 n :=
  slots.mapIdx fun j slot => if j = i then { slot with y := value } else slot

def setZ {n : Nat} (slots : Vector Axis3 n) (i : Nat) (value : Int) :
    Vector Axis3 n :=
  slots.mapIdx fun j slot => if j = i then { slot with z := value } else slot

structure CacheState where
  accel : Axis3 := {}
  ir : Vector Axis3 4 := .replicate 4 ⟨1023, 1023, 0⟩
  motionPlus : Axis3 := {}
  nunchuk : Vector Axis3 2 := .replicate 2 {}
  classic : Vector Axis3 3 := .replicate 3 {}
  balanceBoard : Vector Axis3 4 := .replicate 4 {}
  pro : Vector Axis3 2 := .replicate 2 {}
  drums : Vector Axis3 8 := .replicate 8 {}
  guitar : Vector Axis3 3 := .replicate 3 {}
deriving DecidableEq, Repr

/-- The axis codes of an interface, in the order recovery queries them. -/
def absCodes : InterfaceKind → List Nat
  | .accel | .motionPlus => [absRx, absRy, absRz]
  | .ir => [absHat0x, absHat0y, absHat1x, absHat1y, absHat2x, absHat2y, absHat3x,
      absHat3y]
  | .nunchuk => [absHat0x, absHat0y, absRx, absRy, absRz]
  | .classic => [absHat1x, absHat1y, absHat2x, absHat2y, absHat3x, absHat3y]
  | .balanceBoard => [absHat0x, absHat0y, absHat1x, absHat1y]
  | .pro => [absX, absY, absRx, absRy]
  | .drums => [absX, absY, absHat2x, absHat2y, absHat0x, absHat1x, absHat0y,
      absHat3x, absHat3y]
  | .guitar => [absX, absY, absHat1x, absHat0x]
  | .core => []

def coreKeys : List (Nat × Button) :=
  [(keyLeft, .left), (keyRight, .right), (keyUp, .up), (keyDown, .down),
    (keyNext, .plus), (keyPrevious, .minus), (btn1, .one), (btn2, .two),
    (btnA, .a), (btnB, .b), (btnMode, .home)]

def mapCoreKey (c : Nat) : Option Button := coreKeys.lookup c

def nunchukKeys : List (Nat × Button) :=
  [(btnC, .c), (btnZ, .z)]

def mapNunchukKey (c : Nat) : Option Button := nunchukKeys.lookup c

def classicKeys : List (Nat × Button) :=
  [(btnA, .a), (btnB, .b), (btnX, .x), (btnY, .y), (keyNext, .plus),
    (keyPrevious, .minus), (btnMode, .home), (keyLeft, .left),
    (keyRight, .right), (keyUp, .up), (keyDown, .down), (btnTl, .shoulderLeft),
    (btnTr, .shoulderRight), (btnTl2, .triggerLeft),
    (btnTr2, .triggerRight)]

def mapClassicKey (c : Nat) : Option Button := classicKeys.lookup c

def proKeys : List (Nat × Button) :=
  [(btnEast, .a), (btnSouth, .b), (btnNorth, .x), (btnWest, .y),
    (btnStart, .plus), (btnSelect, .minus), (btnMode, .home),
    (btnDpadLeft, .left), (btnDpadRight, .right), (btnDpadUp, .up),
    (btnDpadDown, .down), (btnTl, .shoulderLeft), (btnTr, .shoulderRight),
    (btnTl2, .triggerLeft), (btnTr2, .triggerRight), (btnThumbl, .thumbLeft),
    (btnThumbr, .thumbRight)]

def mapProKey (c : Nat) : Option Button := proKeys.lookup c

def drumsKeys : List (Nat × Button) :=
  [(btnStart, .plus), (btnSelect, .minus)]

def mapDrumsKey (c : Nat) : Option Button := drumsKeys.lookup c

def guitarKeys : List (Nat × Button) :=
  [(btn1, .fretFarUp), (btn2, .fretUp), (btn3, .fretMid),
    (btn4, .fretLow), (btn5, .fretFarLow), (btnDpadUp, .strumBarUp),
    (btnDpadDown, .strumBarDown), (btnStart, .plus),
    (btnSelect, .minus)]

def mapGuitarKey (c : Nat) : Option Button := guitarKeys.lookup c

/-- The button of a key code on an interface. -/
def mapKey : InterfaceKind → Nat → Option Button
  | .core => mapCoreKey
  | .nunchuk => mapNunchukKey
  | .classic => mapClassicKey
  | .pro => mapProKey
  | .drums => mapDrumsKey
  | .guitar => mapGuitarKey
  | _ => fun _ => none

/-- The key event of an interface that has keys. -/
def keyKind (kind : InterfaceKind) (event : ButtonEvent) : Option EventKind :=
  match kind with
  | .core => some (.key event)
  | .nunchuk => some (.nunchukKey event)
  | .classic => some (.classicControllerKey event)
  | .pro => some (.proControllerKey event)
  | .drums => some (.drumsKey event)
  | .guitar => some (.guitarKey event)
  | _ => none

/-- The state a key value stands for. -/
def keyValueState (value : Int) : Option ButtonState :=
  if value = 0 then some .released
  else if value = 1 then some .pressed
  else if value = 2 then some .repeated
  else none

structure Decoder where
  interface : InterfaceKind
  cache : CacheState := {}
  recovery : RecoveryState := {}
  motionPlus : MotionPlusNormalizer := {}

namespace Decoder

def new (interface : InterfaceKind) : Decoder := { interface }

def updateAbs (decoder : Decoder) (code : Nat) (value : Int) : Decoder :=
  let cache := decoder.cache
  let cache : CacheState :=
    match decoder.interface with
    | .accel =>
        if code = absRx then { cache with accel.x := value }
        else if code = absRy then { cache with accel.y := value }
        else if code = absRz then { cache with accel.z := value }
        else cache
    | .motionPlus =>
        if code = absRx then { cache with motionPlus.x := value }
        else if code = absRy then { cache with motionPlus.y := value }
        else if code = absRz then { cache with motionPlus.z := value }
        else cache
    | .ir =>
        if code = absHat0x then { cache with ir := setX cache.ir 0 value }
        else if code = absHat0y then { cache with ir := setY cache.ir 0 value }
        else if code = absHat1x then { cache with ir := setX cache.ir 1 value }
        else if code = absHat1y then { cache with ir := setY cache.ir 1 value }
        else if code = absHat2x then { cache with ir := setX cache.ir 2 value }
        else if code = absHat2y then { cache with ir := setY cache.ir 2 value }
        else if code = absHat3x then { cache with ir := setX cache.ir 3 value }
        else if code = absHat3y then { cache with ir := setY cache.ir 3 value }
        else cache
    | .nunchuk =>
        if code = absHat0x then
          { cache with nunchuk := setX cache.nunchuk 0 value }
        else if code = absHat0y then
          { cache with nunchuk := setY cache.nunchuk 0 value }
        else if code = absRx then
          { cache with nunchuk := setX cache.nunchuk 1 value }
        else if code = absRy then
          { cache with nunchuk := setY cache.nunchuk 1 value }
        else if code = absRz then
          { cache with nunchuk := setZ cache.nunchuk 1 value }
        else cache
    | .classic =>
        if code = absHat1x then
          { cache with classic := setX cache.classic 0 value }
        else if code = absHat1y then
          { cache with classic := setY cache.classic 0 value }
        else if code = absHat2x then
          { cache with classic := setX cache.classic 1 value }
        else if code = absHat2y then
          { cache with classic := setY cache.classic 1 value }
        else if code = absHat3x then
          { cache with classic := setY cache.classic 2 value }
        else if code = absHat3y then
          { cache with classic := setX cache.classic 2 value }
        else cache
    | .balanceBoard =>
        if code = absHat0x then
          { cache with balanceBoard := setX cache.balanceBoard 0 value }
        else if code = absHat0y then
          { cache with balanceBoard := setX cache.balanceBoard 1 value }
        else if code = absHat1x then
          { cache with balanceBoard := setX cache.balanceBoard 2 value }
        else if code = absHat1y then
          { cache with balanceBoard := setX cache.balanceBoard 3 value }
        else cache
    | .pro =>
        if code = absX then { cache with pro := setX cache.pro 0 value }
        else if code = absY then { cache with pro := setY cache.pro 0 value }
        else if code = absRx then { cache with pro := setX cache.pro 1 value }
        else if code = absRy then { cache with pro := setY cache.pro 1 value }
        else cache
    | .drums =>
        if code = absX then { cache with drums := setX cache.drums 0 value }
        else if code = absY then { cache with drums := setY cache.drums 0 value }
        else if code = absHat2x then { cache with drums := setX cache.drums 1 value }
        else if code = absHat2y then { cache with drums := setX cache.drums 2 value }
        else if code = absHat0x then { cache with drums := setX cache.drums 3 value }
        else if code = absHat1x then { cache with drums := setX cache.drums 4 value }
        else if code = absHat0y then { cache with drums := setX cache.drums 5 value }
        else if code = absHat3x then { cache with drums := setX cache.drums 6 value }
        else if code = absHat3y then { cache with drums := setX cache.drums 7 value }
        else cache
    | .guitar =>
        if code = absX then { cache with guitar := setX cache.guitar 0 value }
        else if code = absY then { cache with guitar := setY cache.guitar 0 value }
        else if code = absHat1x then
          { cache with guitar := setX cache.guitar 1 value }
        else if code = absHat0x then
          { cache with guitar := setX cache.guitar 2 value }
        else cache
    | .core => cache
  { decoder with cache }

def updateAll (decoder : Decoder) (abs : List (Nat × Int)) : Decoder :=
  abs.foldl (fun decoder axis => decoder.updateAbs axis.1 axis.2) decoder

/-- The motion report of the cached axes; MotionPlus moves its offsets. -/
def report (decoder : Decoder) (time : Timeval) : Option Event × Decoder :=
  let event kind := some ⟨Timestamp.fromTimeval time, kind⟩
  match decoder.interface with
  | .accel => (event (.accel decoder.cache.accel), decoder)
  | .ir => (event (.ir decoder.cache.ir), decoder)
  | .motionPlus =>
      let (value, motionPlus) :=
        decoder.motionPlus.normalize decoder.cache.motionPlus
      (event (.motionPlus value), { decoder with motionPlus })
  | .nunchuk => (event (.nunchukMove decoder.cache.nunchuk), decoder)
  | .classic => (event (.classicControllerMove decoder.cache.classic), decoder)
  | .balanceBoard => (event (.balanceBoard decoder.cache.balanceBoard), decoder)
  | .pro => (event (.proControllerMove decoder.cache.pro), decoder)
  | .drums => (event (.drumsMove decoder.cache.drums), decoder)
  | .guitar => (event (.guitarMove decoder.cache.guitar), decoder)
  | .core => (none, decoder)

def decodeKey (decoder : Decoder) (input : InputEvent) : Option Event := do
  let button ← mapKey decoder.interface input.code
  let state ← keyValueState input.value
  let kind ← keyKind decoder.interface ⟨button, state⟩
  pure ⟨Timestamp.fromTimeval input.time, kind⟩

def push (decoder : Decoder) (input : InputEvent) : Option Event × Decoder :=
  if decoder.recovery.desynced then (none, decoder)
  else if input.eventType = evSyn ∧ input.code = synDropped then
    (none, { decoder with recovery := decoder.recovery.dropped })
  else if input.eventType = evKey then
    let decoder := { decoder with recovery := decoder.recovery.remember input }
    (decoder.decodeKey input, decoder)
  else if input.eventType = evAbs then
    (none, decoder.updateAbs input.code input.value)
  else if input.eventType = evSyn ∧ input.code = synReport then
    decoder.report input.time
  else (none, decoder)

def seedState (decoder : Decoder) (keys : List (BitVec 64))
    (abs : List (Nat × Int)) : Decoder :=
  let decoder := decoder.updateAll abs
  { decoder with recovery := decoder.recovery.initializeKeys keys }

def recover (decoder : Decoder) (keys : List (BitVec 64))
    (abs : List (Nat × Int)) (time : Timeval) : Decoder :=
  let decoder := decoder.updateAll abs
  { decoder with
      recovery := decoder.recovery.seed keys time
        (!(absCodes decoder.interface).isEmpty) }

/-- One recovered input: a pending key first, the report last. -/
def pushRecovered (decoder : Decoder) : Option Event × Decoder :=
  match decoder.recovery.nextKey with
  | (some input, recovery) =>
      let decoder := { decoder with recovery }
      (decoder.decodeKey input, decoder)
  | (none, recovery) =>
      match recovery.takeReport with
      | (some input, recovery) => { decoder with recovery }.report input.time
      | (none, recovery) => (none, { decoder with recovery })

end Decoder

end Hid

end Wiiland
