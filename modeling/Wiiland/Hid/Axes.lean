/-
The axes of a decoder by their kernel codes: what the cache holds, how a
recovered snapshot changes it, and what a motion report carries.
-/
import Mathlib.Data.List.Basic
import Wiiland.Hid.KeyView

namespace Wiiland

namespace Hid

def slotAt {n : Nat} (slots : Vector Axis3 n) (i : Nat) : Axis3 := slots[i]?.getD {}

theorem slotAt_setX {n : Nat} (slots : Vector Axis3 n) {i : Nat} (hi : i < n)
    (value : Int) (j : Nat) :
    slotAt (setX slots i value) j =
      if j = i then { slotAt slots j with x := value } else slotAt slots j := by
  unfold slotAt setX
  by_cases hj : j < n
  · by_cases hji : j = i <;> simp [hj, hji, hi]
  · have hji : j ≠ i := by omega
    simp [hj, hji]

theorem slotAt_setY {n : Nat} (slots : Vector Axis3 n) {i : Nat} (hi : i < n)
    (value : Int) (j : Nat) :
    slotAt (setY slots i value) j =
      if j = i then { slotAt slots j with y := value } else slotAt slots j := by
  unfold slotAt setY
  by_cases hj : j < n
  · by_cases hji : j = i <;> simp [hj, hji, hi]
  · have hji : j ≠ i := by omega
    simp [hj, hji]

theorem slotAt_setZ {n : Nat} (slots : Vector Axis3 n) {i : Nat} (hi : i < n)
    (value : Int) (j : Nat) :
    slotAt (setZ slots i value) j =
      if j = i then { slotAt slots j with z := value } else slotAt slots j := by
  unfold slotAt setZ
  by_cases hj : j < n
  · by_cases hji : j = i <;> simp [hj, hji, hi]
  · have hji : j ≠ i := by omega
    simp [hj, hji]

/-- The axes of a motion report, in the order recovery queries them. -/
def EventKind.axes : EventKind → List (Nat × Int)
  | .accel value | .motionPlus value =>
      [(absRx, value.x), (absRy, value.y), (absRz, value.z)]
  | .ir points =>
      [(absHat0x, (slotAt points 0).x), (absHat0y, (slotAt points 0).y),
        (absHat1x, (slotAt points 1).x), (absHat1y, (slotAt points 1).y),
        (absHat2x, (slotAt points 2).x), (absHat2y, (slotAt points 2).y),
        (absHat3x, (slotAt points 3).x), (absHat3y, (slotAt points 3).y)]
  | .nunchukMove slots =>
      [(absHat0x, (slotAt slots 0).x), (absHat0y, (slotAt slots 0).y),
        (absRx, (slotAt slots 1).x), (absRy, (slotAt slots 1).y),
        (absRz, (slotAt slots 1).z)]
  | .classicControllerMove slots =>
      [(absHat1x, (slotAt slots 0).x), (absHat1y, (slotAt slots 0).y),
        (absHat2x, (slotAt slots 1).x), (absHat2y, (slotAt slots 1).y),
        (absHat3x, (slotAt slots 2).y), (absHat3y, (slotAt slots 2).x)]
  | .balanceBoard sensors =>
      [(absHat0x, (slotAt sensors 0).x), (absHat0y, (slotAt sensors 1).x),
        (absHat1x, (slotAt sensors 2).x), (absHat1y, (slotAt sensors 3).x)]
  | .proControllerMove sticks =>
      [(absX, (slotAt sticks 0).x), (absY, (slotAt sticks 0).y),
        (absRx, (slotAt sticks 1).x), (absRy, (slotAt sticks 1).y)]
  | .drumsMove slots =>
      [(absX, (slotAt slots 0).x), (absY, (slotAt slots 0).y),
        (absHat2x, (slotAt slots 1).x), (absHat2y, (slotAt slots 2).x),
        (absHat0x, (slotAt slots 3).x), (absHat1x, (slotAt slots 4).x),
        (absHat0y, (slotAt slots 5).x), (absHat3x, (slotAt slots 6).x),
        (absHat3y, (slotAt slots 7).x)]
  | .guitarMove slots =>
      [(absX, (slotAt slots 0).x), (absY, (slotAt slots 0).y),
        (absHat1x, (slotAt slots 1).x), (absHat0x, (slotAt slots 2).x)]
  | _ => []

/-- The latest value of each axis: a listed one replaces the old one, and the
last listing of a code counts. -/
def recoveredAxes (axes abs : List (Nat × Int)) : List (Nat × Int) :=
  axes.map fun axis => (axis.1, (abs.reverse.lookup axis.1).getD axis.2)

theorem recoveredAxes_nil (axes : List (Nat × Int)) : recoveredAxes axes [] = axes := by
  simp [recoveredAxes]

theorem recoveredAxes_cons (axes : List (Nat × Int)) (axis : Nat × Int)
    (rest : List (Nat × Int)) :
    recoveredAxes axes (axis :: rest) =
      recoveredAxes (recoveredAxes axes [axis]) rest := by
  unfold recoveredAxes
  rw [List.map_map]
  apply List.map_congr_left
  intro held _
  simp only [List.reverse_cons, List.lookup_append, Function.comp_apply, List.reverse_nil,
    List.nil_append]
  cases rest.reverse.lookup held.1 <;> rfl

theorem recoveredAxes_single (axes : List (Nat × Int)) (code : Nat) (value : Int) :
    recoveredAxes axes [(code, value)] =
      axes.map fun axis => (axis.1, if code = axis.1 then value else axis.2) := by
  unfold recoveredAxes
  apply List.map_congr_left
  intro axis _
  rw [List.reverse_singleton, List.lookup_cons]
  by_cases hcode : code = axis.1
  · simp [hcode]
  · have hbeq : (axis.1 == code) = false := beq_false_of_ne (Ne.symm hcode)
    simp [hbeq, hcode]

/-- What a motion report shows of the cached axes: MotionPlus takes its learned
offsets off. -/
def carriedAxes (kind : InterfaceKind) (normalizer : MotionPlusNormalizer)
    (axes : List (Nat × Int)) : List (Nat × Int) :=
  match kind with
  | .motionPlus =>
      List.zipWith
        (fun axis offset => (axis.1, (normalizeAxis axis.2 offset normalizer.factor).1))
        axes [normalizer.offsets.x, normalizer.offsets.y, normalizer.offsets.z]
  | _ => axes

namespace Decoder

/-- The cache of the decoder's own interface, as a report without offsets. -/
def cached (decoder : Decoder) : EventKind :=
  match decoder.interface with
  | .accel => .accel decoder.cache.accel
  | .ir => .ir decoder.cache.ir
  | .motionPlus => .motionPlus decoder.cache.motionPlus
  | .nunchuk => .nunchukMove decoder.cache.nunchuk
  | .classic => .classicControllerMove decoder.cache.classic
  | .balanceBoard => .balanceBoard decoder.cache.balanceBoard
  | .pro => .proControllerMove decoder.cache.pro
  | .drums => .drumsMove decoder.cache.drums
  | .guitar => .guitarMove decoder.cache.guitar
  | .core => .watch

/-- The cached axes are the ones recovery queries. -/
theorem cached_codes (decoder : Decoder) :
    decoder.cached.axes.map Prod.fst = absCodes decoder.interface := by
  unfold cached
  cases decoder.interface <;> rfl

theorem updateAbs_unlisted {decoder : Decoder} {code : Nat}
    (hcode : code ∉ absCodes decoder.interface) (value : Int) :
    decoder.updateAbs code value = decoder := by
  rcases decoder with ⟨interface, cache, recovery, motionPlus⟩
  cases interface <;> simp only [absCodes, List.mem_cons, not_or] at hcode <;>
    simp [updateAbs, hcode]

theorem cached_updateAbs_listed (decoder : Decoder) (value : Int) :
    ∀ code ∈ absCodes decoder.interface,
      (decoder.updateAbs code value).cached.axes =
        decoder.cached.axes.map fun axis =>
          (axis.1, if code = axis.1 then value else axis.2) := by
  rcases decoder with ⟨interface, cache, recovery, motionPlus⟩
  cases interface <;>
    simp [absCodes, updateAbs, cached, EventKind.axes, slotAt_setX, slotAt_setY,
      slotAt_setZ, absX, absY, absRx, absRy, absRz, absHat0x, absHat0y, absHat1x,
      absHat1y, absHat2x, absHat2y, absHat3x, absHat3y]

/-- An absolute event moves the cached axis of its code and no other. -/
theorem cached_updateAbs (decoder : Decoder) (code : Nat) (value : Int) :
    (decoder.updateAbs code value).cached.axes =
      recoveredAxes decoder.cached.axes [(code, value)] := by
  rw [recoveredAxes_single]
  by_cases hcode : code ∈ absCodes decoder.interface
  · exact cached_updateAbs_listed decoder value code hcode
  · rw [updateAbs_unlisted hcode]
    rw [← cached_codes] at hcode
    have hother : ∀ axis ∈ decoder.cached.axes, code ≠ axis.1 := by
      rintro axis haxis rfl
      exact hcode (List.mem_map_of_mem haxis)
    conv_lhs => rw [← List.map_id decoder.cached.axes]
    apply List.map_congr_left
    intro axis haxis
    rw [if_neg (hother axis haxis)]
    rfl

theorem cached_updateAll (decoder : Decoder) (abs : List (Nat × Int)) :
    (decoder.updateAll abs).cached.axes = recoveredAxes decoder.cached.axes abs := by
  induction abs generalizing decoder with
  | nil => exact (recoveredAxes_nil _).symm
  | cons axis rest ih =>
      rw [recoveredAxes_cons, ← cached_updateAbs]
      exact ih (decoder.updateAbs axis.1 axis.2)

@[simp] theorem updateAll_motionPlus (decoder : Decoder) (abs : List (Nat × Int)) :
    (decoder.updateAll abs).motionPlus = decoder.motionPlus := by
  induction abs generalizing decoder with
  | nil => rfl
  | cons axis rest ih => exact ih (decoder.updateAbs axis.1 axis.2)

theorem report_isSome (decoder : Decoder) (time : Timeval) :
    (decoder.report time).1.isSome = !(absCodes decoder.interface).isEmpty := by
  unfold report
  cases decoder.interface <;> rfl

theorem report_codes {decoder : Decoder} {time : Timeval} {event : Event}
    (hreport : (decoder.report time).1 = some event) :
    event.kind.axes.map Prod.fst = absCodes decoder.interface := by
  rcases decoder with ⟨interface, cache, recovery, motionPlus⟩
  cases interface <;> cases hreport <;> rfl

/-- A report carries its time and the cached axes. -/
theorem report_axes {decoder : Decoder} {time : Timeval} {event : Event}
    (hreport : (decoder.report time).1 = some event) :
    event.time = Timestamp.fromTimeval time ∧
      event.kind.axes =
        carriedAxes decoder.interface decoder.motionPlus decoder.cached.axes := by
  rcases decoder with ⟨interface, cache, recovery, motionPlus⟩
  cases interface <;> cases hreport <;> exact ⟨rfl, rfl⟩

end Decoder

end Hid

end Wiiland
