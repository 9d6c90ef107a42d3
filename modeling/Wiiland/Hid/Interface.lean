/-
The readable interfaces of a controller: the mask each event comes from, and the
set of interfaces that are open.  What the kernel answers is a parameter.
-/
import Mathlib.Data.BitVec
import Wiiland.Hid.Decode

namespace Wiiland

namespace Hid

structure InterfaceMask where
  bits : BitVec 32
deriving DecidableEq, Repr

namespace InterfaceMask

def core : InterfaceMask := ⟨0x000001⟩
def accel : InterfaceMask := ⟨0x000002⟩
def ir : InterfaceMask := ⟨0x000004⟩
def motionPlus : InterfaceMask := ⟨0x000100⟩
def nunchuk : InterfaceMask := ⟨0x000200⟩
def classicController : InterfaceMask := ⟨0x000400⟩
def balanceBoard : InterfaceMask := ⟨0x000800⟩
def proController : InterfaceMask := ⟨0x001000⟩
def drums : InterfaceMask := ⟨0x002000⟩
def guitar : InterfaceMask := ⟨0x004000⟩
def all : InterfaceMask := ⟨0x007f07⟩
def empty : InterfaceMask := ⟨0⟩

def isEmpty (mask : InterfaceMask) : Bool := mask.bits == 0

def contains (mask other : InterfaceMask) : Bool :=
  mask.bits &&& other.bits == other.bits

def union (mask other : InterfaceMask) : InterfaceMask := ⟨mask.bits ||| other.bits⟩

def inter (mask other : InterfaceMask) : InterfaceMask := ⟨mask.bits &&& other.bits⟩

/-- `self & !other`. -/
def diff (mask other : InterfaceMask) : InterfaceMask := ⟨mask.bits &&& ~~~other.bits⟩

def has (mask : InterfaceMask) (i : Nat) : Bool := mask.bits.getLsbD i

@[ext] theorem ext {first second : InterfaceMask}
    (hhas : ∀ i, first.has i = second.has i) : first = second := by
  rcases first with ⟨first⟩
  rcases second with ⟨second⟩
  congr 1
  exact BitVec.eq_of_getLsbD_eq fun i _ => hhas i

@[simp] theorem has_empty (i : Nat) : empty.has i = false := by
  simp [has, empty]

@[simp] theorem has_union (mask other : InterfaceMask) (i : Nat) :
    (mask.union other).has i = (mask.has i || other.has i) :=
  BitVec.getLsbD_or

@[simp] theorem has_inter (mask other : InterfaceMask) (i : Nat) :
    (mask.inter other).has i = (mask.has i && other.has i) :=
  BitVec.getLsbD_and

theorem has_lt {mask : InterfaceMask} {i : Nat} (hhas : mask.has i = true) : i < 32 :=
  BitVec.lt_of_getLsbD hhas

@[simp] theorem has_diff (mask other : InterfaceMask) (i : Nat) :
    (mask.diff other).has i = (mask.has i && !other.has i) := by
  unfold has diff
  rw [BitVec.getLsbD_and, BitVec.getLsbD_not]
  cases hhas : mask.bits.getLsbD i with
  | false => rfl
  | true => simp [BitVec.lt_of_getLsbD hhas]

theorem isEmpty_iff (mask : InterfaceMask) :
    mask.isEmpty = true ↔ ∀ i, mask.has i = false := by
  rw [isEmpty, beq_iff_eq]
  constructor
  · intro hzero i
    rw [has, hzero]
    simp
  · intro hnone
    exact BitVec.eq_of_getLsbD_eq fun i _ => by
      exact (hnone i).trans (BitVec.getLsbD_zero).symm

theorem not_isEmpty_iff (mask : InterfaceMask) :
    mask.isEmpty = false ↔ ∃ i, mask.has i = true := by
  rw [← Bool.not_eq_true, isEmpty_iff, not_forall]
  simp only [Bool.not_eq_false]

theorem contains_iff (mask other : InterfaceMask) :
    mask.contains other = true ↔ ∀ i, other.has i = true → mask.has i = true := by
  rw [contains, beq_iff_eq]
  constructor
  · intro hsub i hhas
    have hbit := congrArg (fun bits => bits.getLsbD i) hsub
    rw [BitVec.getLsbD_and] at hbit
    rw [has] at hhas ⊢
    rw [hhas, Bool.and_true] at hbit
    exact hbit
  · intro hsub
    apply BitVec.eq_of_getLsbD_eq
    intro i _
    rw [BitVec.getLsbD_and]
    cases hhas : other.bits.getLsbD i with
    | false => exact Bool.and_false _
    | true =>
        rw [Bool.and_true]
        exact hsub i hhas

end InterfaceMask

/-- Readable interface that produced this report, absent for lifecycle events. -/
def EventKind.interface : EventKind → Option InterfaceMask
  | .key _ => some .core
  | .accel _ => some .accel
  | .ir _ => some .ir
  | .balanceBoard _ => some .balanceBoard
  | .motionPlus _ => some .motionPlus
  | .proControllerKey _ | .proControllerMove _ => some .proController
  | .classicControllerKey _ | .classicControllerMove _ => some .classicController
  | .nunchukKey _ | .nunchukMove _ => some .nunchuk
  | .drumsKey _ | .drumsMove _ => some .drums
  | .guitarKey _ | .guitarMove _ => some .guitar
  | .watch | .gone | .unknown _ => none

/-- The masks of the ten inputs, in the order of their slots. -/
def ifBits : List InterfaceMask :=
  [.core, .accel, .ir, .motionPlus, .nunchuk, .classicController, .balanceBoard,
    .proController, .drums, .guitar]

/-- The mask of one bit. -/
def position (k : Nat) : InterfaceMask := ⟨BitSet.single 32 k⟩

def ifPositions : List Nat := [0, 1, 2, 8, 9, 10, 11, 12, 13, 14]

theorem ifBits_eq : ifBits = ifPositions.map position := by
  decide

theorem position_has {k i : Nat} (hhas : (position k).has i = true) : k = i := by
  rw [InterfaceMask.has, position, BitSet.getLsbD_single, Bool.and_eq_true,
    decide_eq_true_eq, decide_eq_true_eq] at hhas
  exact hhas.2

/-- Every bit of `ALL` is one of the ten inputs. -/
theorem exists_position {i : Nat} (hall : InterfaceMask.all.has i = true) :
    ∃ k ∈ ifPositions, (position k).has i = true := by
  have hlt := InterfaceMask.has_lt hall
  have hcheck : ∀ j < 32, InterfaceMask.all.has j = true →
      j ∈ ifPositions ∧ (position j).has j = true := by
    decide
  exact ⟨i, hcheck i hlt hall⟩

/-- A negative error number. -/
structure Errno where
  code : Int
  negative : code < 0
deriving DecidableEq, Repr

/-- What trying to open one input comes to: nothing, or the error of the first
step that fails. -/
abbrev Attempts := InterfaceMask → Option Errno

/-- The descriptors a controller holds open. -/
structure Interface where
  opened : InterfaceMask
deriving DecidableEq, Repr

/-- The interfaces open in the end and the first error. -/
structure OpenError where
  opened : InterfaceMask
  error : Int
deriving DecidableEq, Repr

namespace Interface

/-- One input of the loop; `first` is zero until an attempt fails. -/
def openOne (requested : InterfaceMask) (attempts : Attempts)
    (state : InterfaceMask × Int) (bit : InterfaceMask) : InterfaceMask × Int :=
  if (requested.inter bit).isEmpty || !(state.1.inter bit).isEmpty then state
  else
    match attempts bit with
    | none => (state.1.union bit, state.2)
    | some error => (state.1, if state.2 = 0 then error.code else state.2)

def openAll (iface : Interface) (ifaces : InterfaceMask) (attempts : Attempts) :
    InterfaceMask × Int :=
  ifBits.foldl (openOne (ifaces.inter .all) attempts) (iface.opened, 0)

/-- Open the requested interfaces; each one is tried, and the first error is
reported with what is open. -/
def open_ (iface : Interface) (ifaces : InterfaceMask) (attempts : Attempts) :
    Except OpenError InterfaceMask × Interface :=
  let (opened, first) := iface.openAll ifaces attempts
  (if first ≠ 0 then .error ⟨opened, first⟩ else .ok opened, ⟨opened⟩)

/-- What is open after a call, whatever it returned. -/
def openedOf : Except OpenError InterfaceMask → InterfaceMask
  | .ok mask => mask
  | .error error => error.opened

theorem openedOf_open (iface : Interface) (ifaces : InterfaceMask) (attempts : Attempts) :
    openedOf (iface.open_ ifaces attempts).1 = (iface.openAll ifaces attempts).1 ∧
      (iface.open_ ifaces attempts).2.opened = (iface.openAll ifaces attempts).1 := by
  refine ⟨?_, rfl⟩
  simp only [open_]
  split <;> rfl

/-- A call that fails reports an error. -/
theorem open_eq_ok_iff (iface : Interface) (ifaces : InterfaceMask)
    (attempts : Attempts) :
    (∃ mask, (iface.open_ ifaces attempts).1 = .ok mask) ↔
      (iface.openAll ifaces attempts).2 = 0 := by
  simp only [open_]
  split
  · rename_i hfirst
    simp [hfirst]
  · rename_i hfirst
    simpa using hfirst

theorem openOne_mono (requested : InterfaceMask) (attempts : Attempts)
    (state : InterfaceMask × Int) (bit : InterfaceMask) {i : Nat}
    (hhas : state.1.has i = true) :
    (openOne requested attempts state bit).1.has i = true := by
  unfold openOne
  split
  · exact hhas
  · split
    · rw [InterfaceMask.has_union, hhas, Bool.true_or]
    · exact hhas

/-- The first error stays. -/
theorem openOne_failed (requested : InterfaceMask) (attempts : Attempts)
    {state : InterfaceMask × Int} (bit : InterfaceMask) (hfailed : state.2 ≠ 0) :
    (openOne requested attempts state bit).2 ≠ 0 := by
  unfold openOne
  split
  · exact hfailed
  · cases attempts bit with
    | none => exact hfailed
    | some error =>
        simp only
        exact hfailed

/-- Without an error a requested input is open afterwards. -/
theorem openOne_complete {requested : InterfaceMask} {attempts : Attempts}
    {state : InterfaceMask × Int} {k i : Nat}
    (hok : (openOne requested attempts state (position k)).2 = 0)
    (hrequested : requested.has i = true) (hbit : (position k).has i = true) :
    (openOne requested attempts state (position k)).1.has i = true := by
  obtain rfl := position_has hbit
  have hwanted : (requested.inter (position k)).isEmpty = false := by
    rw [InterfaceMask.not_isEmpty_iff]
    exact ⟨k, by rw [InterfaceMask.has_inter, hrequested, hbit]; rfl⟩
  unfold openOne at hok ⊢
  rw [hwanted, Bool.false_or] at hok ⊢
  split at hok
  · rename_i hopen
    rw [if_pos hopen]
    rw [Bool.not_eq_true', InterfaceMask.not_isEmpty_iff] at hopen
    obtain ⟨j, hj⟩ := hopen
    rw [InterfaceMask.has_inter, Bool.and_eq_true] at hj
    obtain rfl := position_has hj.2
    exact hj.1
  · rename_i hclosed
    rw [if_neg hclosed]
    cases hattempt : attempts (position k) with
    | none => rw [InterfaceMask.has_union, hbit, Bool.or_true]
    | some error =>
        rw [hattempt] at hok
        simp only at hok
        have hnegative := error.negative
        split at hok <;> omega

/-- Only requested inputs are opened. -/
theorem openOne_le {requested : InterfaceMask} {attempts : Attempts}
    {state : InterfaceMask × Int} {k i : Nat}
    (hhas : (openOne requested attempts state (position k)).1.has i = true) :
    state.1.has i = true ∨ requested.has i = true := by
  unfold openOne at hhas
  split at hhas
  · exact Or.inl hhas
  · rename_i hwanted
    split at hhas
    · rw [InterfaceMask.has_union, Bool.or_eq_true] at hhas
      rcases hhas with hopen | hbit
      · exact Or.inl hopen
      · right
        obtain rfl := position_has hbit
        rw [Bool.or_eq_true, not_or, Bool.not_eq_true, InterfaceMask.not_isEmpty_iff]
          at hwanted
        obtain ⟨j, hj⟩ := hwanted.1
        rw [InterfaceMask.has_inter, Bool.and_eq_true] at hj
        obtain rfl := position_has hj.2
        exact hj.1
    · exact Or.inl hhas

/-- A requested input whose attempt succeeds is open afterwards. -/
theorem openOne_granted {requested : InterfaceMask} {attempts : Attempts}
    (state : InterfaceMask × Int) {k : Nat} (hgranted : attempts (position k) = none)
    (hrequested : requested.has k = true) (hbit : (position k).has k = true) :
    (openOne requested attempts state (position k)).1.has k = true := by
  have hwanted : (requested.inter (position k)).isEmpty = false := by
    rw [InterfaceMask.not_isEmpty_iff]
    exact ⟨k, by rw [InterfaceMask.has_inter, hrequested, hbit]; rfl⟩
  unfold openOne
  rw [hwanted, Bool.false_or, hgranted]
  split
  · rename_i hopen
    rw [Bool.not_eq_true', InterfaceMask.not_isEmpty_iff] at hopen
    obtain ⟨j, hj⟩ := hopen
    rw [InterfaceMask.has_inter, Bool.and_eq_true] at hj
    obtain rfl := position_has hj.2
    exact hj.1
  · rw [InterfaceMask.has_union, hbit, Bool.or_true]

/-- The loop over any inputs: it only opens, only what is requested, and all of it
unless an attempt fails. -/
theorem foldl_openOne (requested : InterfaceMask) (attempts : Attempts)
    (positions : List Nat) (state : InterfaceMask × Int) :
    let last := (positions.map position).foldl (openOne requested attempts) state
    (∀ i, state.1.has i = true → last.1.has i = true) ∧
    (∀ i, last.1.has i = true → state.1.has i = true ∨ requested.has i = true) ∧
    (state.2 ≠ 0 → last.2 ≠ 0) ∧
    (last.2 = 0 → ∀ k ∈ positions, ∀ i, requested.has i = true →
      (position k).has i = true → last.1.has i = true) := by
  induction positions generalizing state with
  | nil =>
      exact ⟨fun i h => h, fun i h => Or.inl h, fun h => h,
        fun _ k hk => absurd hk List.not_mem_nil⟩
  | cons k rest ih =>
      obtain ⟨hmono, hle, hfailed, hcomplete⟩ :=
        ih (openOne requested attempts state (position k))
      refine ⟨fun i h => hmono i (openOne_mono _ _ _ _ h), fun i h => ?_,
        fun h => hfailed (openOne_failed _ _ _ h), fun hok j hj i hwanted hbit => ?_⟩
      · rcases hle i h with hone | hrequested
        · exact openOne_le hone
        · exact Or.inr hrequested
      · rcases List.mem_cons.mp hj with rfl | hrest
        · have hone : (openOne requested attempts state (position j)).2 = 0 := by
            by_contra hne
            exact hfailed hne hok
          exact hmono i (openOne_complete hone hwanted hbit)
        · exact hcomplete hok j hrest i hwanted hbit

/-- Opening closes nothing. -/
theorem openAll_mono (iface : Interface) (ifaces : InterfaceMask) (attempts : Attempts)
    {i : Nat} (hhas : iface.opened.has i = true) :
    (iface.openAll ifaces attempts).1.has i = true := by
  rw [openAll, ifBits_eq]
  exact (foldl_openOne _ attempts _ _).1 i hhas

/-- Nothing opens that was not asked for. -/
theorem openAll_le (iface : Interface) (ifaces : InterfaceMask) (attempts : Attempts)
    {i : Nat} (hhas : (iface.openAll ifaces attempts).1.has i = true) :
    iface.opened.has i = true ∨ ifaces.has i = true := by
  rw [openAll, ifBits_eq] at hhas
  refine ((foldl_openOne _ attempts _ _).2.1 i hhas).imp id fun hrequested => ?_
  rw [InterfaceMask.has_inter, Bool.and_eq_true] at hrequested
  exact hrequested.1

/-- Without an error everything asked for is open. -/
theorem openAll_complete (iface : Interface) (ifaces : InterfaceMask)
    (attempts : Attempts) (hok : (iface.openAll ifaces attempts).2 = 0) {i : Nat}
    (hasked : ifaces.has i = true) (hall : InterfaceMask.all.has i = true) :
    (iface.openAll ifaces attempts).1.has i = true := by
  obtain ⟨k, hk, hbit⟩ := exists_position hall
  rw [openAll, ifBits_eq] at hok ⊢
  refine (foldl_openOne _ attempts _ _).2.2.2 hok k hk i ?_ hbit
  rw [InterfaceMask.has_inter, hasked, hall]
  rfl

/-- Whatever becomes of the others, an input that is asked for and granted is open. -/
theorem openAll_granted (iface : Interface) {ifaces : InterfaceMask} {attempts : Attempts}
    {k : Nat} (hgranted : attempts (position k) = none) (hasked : ifaces.has k = true)
    (hall : InterfaceMask.all.has k = true) :
    (iface.openAll ifaces attempts).1.has k = true := by
  obtain ⟨j, hj, hbit⟩ := exists_position hall
  obtain rfl := position_has hbit
  obtain ⟨before, after, hsplit⟩ := List.append_of_mem hj
  rw [openAll, ifBits_eq, hsplit, List.map_append, List.map_cons, List.foldl_append,
    List.foldl_cons]
  refine (foldl_openOne _ attempts after _).1 j (openOne_granted _ hgranted ?_ hbit)
  rw [InterfaceMask.has_inter, hasked, hall]
  rfl

def close (iface : Interface) (ifaces : InterfaceMask) : Interface :=
  ⟨iface.opened.diff (ifaces.inter .all)⟩

end Interface

end Hid

end Wiiland
