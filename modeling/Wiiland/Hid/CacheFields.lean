/-
The fields of a decoder's axis cache, read and written one at a time.  Each axis
code of an interface has a field of its own.
-/
import Wiiland.Hid.Axes

namespace Wiiland

namespace Hid

inductive Coordinate where
  | x
  | y
  | z
deriving DecidableEq, Repr

def Axis3.coordinate (axis : Axis3) : Coordinate → Int
  | .x => axis.x
  | .y => axis.y
  | .z => axis.z

def Axis3.put (axis : Axis3) (coordinate : Coordinate) (value : Int) : Axis3 :=
  match coordinate with
  | .x => { axis with x := value }
  | .y => { axis with y := value }
  | .z => { axis with z := value }

theorem Axis3.coordinate_put (axis : Axis3) (coordinate other : Coordinate) (value : Int) :
    (axis.put coordinate value).coordinate other =
      if other = coordinate then value else axis.coordinate other := by
  cases coordinate <;> cases other <;> rfl

/-- A coordinate of one of the slots that an interface caches. -/
structure CacheField where
  kind : InterfaceKind
  slot : Nat
  coordinate : Coordinate
deriving DecidableEq, Repr

/-- The number of slots that an interface caches. -/
def slotCount : InterfaceKind → Nat
  | .core => 0
  | .accel | .motionPlus => 1
  | .nunchuk | .pro => 2
  | .classic | .guitar => 3
  | .ir | .balanceBoard => 4
  | .drums => 8

def putAt {n : Nat} (slots : Vector Axis3 n) (slot : Nat) (coordinate : Coordinate)
    (value : Int) : Vector Axis3 n :=
  match coordinate with
  | .x => setX slots slot value
  | .y => setY slots slot value
  | .z => setZ slots slot value

theorem slotAt_putAt {n : Nat} (slots : Vector Axis3 n) {slot : Nat} (hslot : slot < n)
    (coordinate : Coordinate) (value : Int) (other : Nat) :
    slotAt (putAt slots slot coordinate value) other =
      if other = slot then (slotAt slots other).put coordinate value
      else slotAt slots other := by
  cases coordinate
  · exact slotAt_setX slots hslot value other
  · exact slotAt_setY slots hslot value other
  · exact slotAt_setZ slots hslot value other

namespace CacheState

/-- A slot of an interface; those past the last are empty. -/
def slot (cache : CacheState) (kind : InterfaceKind) (i : Nat) : Axis3 :=
  match kind with
  | .core => {}
  | .accel => if i = 0 then cache.accel else {}
  | .ir => slotAt cache.ir i
  | .motionPlus => if i = 0 then cache.motionPlus else {}
  | .nunchuk => slotAt cache.nunchuk i
  | .classic => slotAt cache.classic i
  | .balanceBoard => slotAt cache.balanceBoard i
  | .pro => slotAt cache.pro i
  | .drums => slotAt cache.drums i
  | .guitar => slotAt cache.guitar i

def read (cache : CacheState) (field : CacheField) : Int :=
  (cache.slot field.kind field.slot).coordinate field.coordinate

def write (cache : CacheState) (field : CacheField) (value : Int) : CacheState :=
  match field.kind with
  | .core => cache
  | .accel => { cache with accel := cache.accel.put field.coordinate value }
  | .ir => { cache with ir := putAt cache.ir field.slot field.coordinate value }
  | .motionPlus =>
      { cache with motionPlus := cache.motionPlus.put field.coordinate value }
  | .nunchuk =>
      { cache with nunchuk := putAt cache.nunchuk field.slot field.coordinate value }
  | .classic =>
      { cache with classic := putAt cache.classic field.slot field.coordinate value }
  | .balanceBoard =>
      { cache with
          balanceBoard := putAt cache.balanceBoard field.slot field.coordinate value }
  | .pro => { cache with pro := putAt cache.pro field.slot field.coordinate value }
  | .drums => { cache with drums := putAt cache.drums field.slot field.coordinate value }
  | .guitar => { cache with guitar := putAt cache.guitar field.slot field.coordinate value }

theorem slot_write {field : CacheField} (hfield : field.slot < slotCount field.kind)
    (cache : CacheState) (value : Int) (kind : InterfaceKind) (i : Nat) :
    (cache.write field value).slot kind i =
      if kind = field.kind ∧ i = field.slot then
        (cache.slot kind i).put field.coordinate value
      else cache.slot kind i := by
  rcases field with ⟨own, at_, coordinate⟩
  by_cases hkind : kind = own
  · subst hkind
    cases kind <;> simp only [slotCount] at hfield <;>
      simp only [write, slot, slotAt_putAt _ hfield, true_and]
    · omega
    all_goals
      obtain rfl : at_ = 0 := by omega
      split <;> rfl
  · rw [if_neg (fun h => hkind h.1)]
    cases own <;> cases kind <;> first | rfl | exact absurd rfl hkind

theorem read_write {field : CacheField} (hfield : field.slot < slotCount field.kind)
    (cache : CacheState) (value : Int) (other : CacheField) :
    (cache.write field value).read other =
      if other = field then value else cache.read other := by
  rw [read, slot_write hfield, read]
  rcases field with ⟨kind, slot, coordinate⟩
  rcases other with ⟨otherKind, otherSlot, otherCoordinate⟩
  by_cases hslot : otherKind = kind ∧ otherSlot = slot
  · rw [if_pos hslot, Axis3.coordinate_put]
    simp [hslot]
  · rw [if_neg hslot, if_neg]
    rintro ⟨⟩
    exact hslot ⟨rfl, rfl⟩

end CacheState

/-- The field of each axis code of an interface, in the order of `absCodes`. -/
def axisFields : InterfaceKind → List (Nat × CacheField)
  | .core => []
  | .accel => [(absRx, ⟨.accel, 0, .x⟩), (absRy, ⟨.accel, 0, .y⟩),
      (absRz, ⟨.accel, 0, .z⟩)]
  | .motionPlus => [(absRx, ⟨.motionPlus, 0, .x⟩), (absRy, ⟨.motionPlus, 0, .y⟩),
      (absRz, ⟨.motionPlus, 0, .z⟩)]
  | .ir => [(absHat0x, ⟨.ir, 0, .x⟩), (absHat0y, ⟨.ir, 0, .y⟩),
      (absHat1x, ⟨.ir, 1, .x⟩), (absHat1y, ⟨.ir, 1, .y⟩),
      (absHat2x, ⟨.ir, 2, .x⟩), (absHat2y, ⟨.ir, 2, .y⟩),
      (absHat3x, ⟨.ir, 3, .x⟩), (absHat3y, ⟨.ir, 3, .y⟩)]
  | .nunchuk => [(absHat0x, ⟨.nunchuk, 0, .x⟩), (absHat0y, ⟨.nunchuk, 0, .y⟩),
      (absRx, ⟨.nunchuk, 1, .x⟩), (absRy, ⟨.nunchuk, 1, .y⟩),
      (absRz, ⟨.nunchuk, 1, .z⟩)]
  | .classic => [(absHat1x, ⟨.classic, 0, .x⟩), (absHat1y, ⟨.classic, 0, .y⟩),
      (absHat2x, ⟨.classic, 1, .x⟩), (absHat2y, ⟨.classic, 1, .y⟩),
      (absHat3x, ⟨.classic, 2, .y⟩), (absHat3y, ⟨.classic, 2, .x⟩)]
  | .balanceBoard => [(absHat0x, ⟨.balanceBoard, 0, .x⟩),
      (absHat0y, ⟨.balanceBoard, 1, .x⟩), (absHat1x, ⟨.balanceBoard, 2, .x⟩),
      (absHat1y, ⟨.balanceBoard, 3, .x⟩)]
  | .pro => [(absX, ⟨.pro, 0, .x⟩), (absY, ⟨.pro, 0, .y⟩), (absRx, ⟨.pro, 1, .x⟩),
      (absRy, ⟨.pro, 1, .y⟩)]
  | .drums => [(absX, ⟨.drums, 0, .x⟩), (absY, ⟨.drums, 0, .y⟩),
      (absHat2x, ⟨.drums, 1, .x⟩), (absHat2y, ⟨.drums, 2, .x⟩),
      (absHat0x, ⟨.drums, 3, .x⟩), (absHat1x, ⟨.drums, 4, .x⟩),
      (absHat0y, ⟨.drums, 5, .x⟩), (absHat3x, ⟨.drums, 6, .x⟩),
      (absHat3y, ⟨.drums, 7, .x⟩)]
  | .guitar => [(absX, ⟨.guitar, 0, .x⟩), (absY, ⟨.guitar, 0, .y⟩),
      (absHat1x, ⟨.guitar, 1, .x⟩), (absHat0x, ⟨.guitar, 2, .x⟩)]

theorem axisFields_codes (kind : InterfaceKind) :
    (axisFields kind).map Prod.fst = absCodes kind := by
  cases kind <;> rfl

theorem absCodes_nodup (kind : InterfaceKind) : (absCodes kind).Nodup := by
  cases kind <;> decide

theorem axisFields_distinct (kind : InterfaceKind) :
    ((axisFields kind).map Prod.snd).Nodup := by
  cases kind <;> decide

theorem axisFields_slot (kind : InterfaceKind) :
    ∀ entry ∈ axisFields kind,
      entry.2.kind = kind ∧ entry.2.slot < slotCount entry.2.kind := by
  cases kind <;> decide

namespace Decoder

/-- An axis event writes the field of its code. -/
theorem updateAbs_write (decoder : Decoder) (value : Int) :
    ∀ entry ∈ axisFields decoder.interface, decoder.updateAbs entry.1 value =
      { decoder with cache := decoder.cache.write entry.2 value } := by
  rcases decoder with ⟨interface, cache, recovery, motionPlus⟩
  cases interface <;>
    simp [axisFields, updateAbs, CacheState.write, putAt, Axis3.put, absX, absY, absRx,
      absRy, absRz, absHat0x, absHat0y, absHat1x, absHat1y, absHat2x, absHat2y, absHat3x,
      absHat3y]

/-- The cached axes are the fields of their codes. -/
theorem cached_fields (decoder : Decoder) :
    decoder.cached.axes = (axisFields decoder.interface).map fun entry =>
      (entry.1, decoder.cache.read entry.2) := by
  rcases decoder with ⟨interface, cache, recovery, motionPlus⟩
  cases interface <;> rfl

end Decoder

end Hid

end Wiiland
