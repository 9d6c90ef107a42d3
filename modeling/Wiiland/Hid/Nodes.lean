/-
The device nodes of a controller, as an enumeration of its child devices gives them.
An input device is named by the entry before its event node.
-/
import Wiiland.Hid.Interface
import Wiiland.Lib.LossyText
import Wiiland.Lib.UnixPath

namespace Wiiland

namespace Hid

open UnixPath (Path)

/-- The names the kernel gives the ten inputs. -/
def ifNames : List String :=
  ["Nintendo Wii Remote", "Nintendo Wii Remote Accelerometer", "Nintendo Wii Remote IR",
    "Nintendo Wii Remote Motion Plus", "Nintendo Wii Remote Nunchuk",
    "Nintendo Wii Remote Classic Controller", "Nintendo Wii Remote Balance Board",
    "Nintendo Wii Remote Pro Controller", "Nintendo Wii Remote Drums",
    "Nintendo Wii Remote Guitar"]

/-- The bytes of a literal. -/
def literal (text : String) : List UInt8 := Text.encode text.toList

/-- `IF_BITS[i]`. -/
def ifBit (i : Fin 10) : InterfaceMask := ifBits.getD i .empty

/-- The place of the bit of an input. -/
def ifPosition (i : Fin 10) : Nat := ifPositions.getD i 0

theorem ifBit_eq (i : Fin 10) : ifBit i = position (ifPosition i) := by
  revert i
  decide

theorem ifPosition_injective : Function.Injective ifPosition := by
  decide

theorem ifBit_self (i : Fin 10) : (ifBit i).has (ifPosition i) = true := by
  revert i
  decide

theorem ifBit_has {i : Fin 10} {k : Nat} (hhas : (ifBit i).has k = true) :
    ifPosition i = k := by
  rw [ifBit_eq] at hhas
  exact position_has hhas

theorem ifBit_other {i j : Fin 10} (hne : i ≠ j) : (ifBit i).has (ifPosition j) = false := by
  rw [← Bool.not_eq_true]
  intro hhas
  exact hne (ifPosition_injective (ifBit_has hhas))

theorem all_has (i : Fin 10) : InterfaceMask.all.has (ifPosition i) = true := by
  revert i
  decide

/-- A mask has the bit of an input when its intersection with the bit is not empty. -/
theorem inter_ifBit (mask : InterfaceMask) (i : Fin 10) :
    (mask.inter (ifBit i)).isEmpty = !mask.has (ifPosition i) := by
  cases hhas : mask.has (ifPosition i) with
  | true =>
      rw [Bool.not_true, InterfaceMask.not_isEmpty_iff]
      exact ⟨ifPosition i, by rw [InterfaceMask.has_inter, hhas, ifBit_self]; rfl⟩
  | false =>
      rw [Bool.not_false, InterfaceMask.isEmpty_iff]
      intro k
      rw [InterfaceMask.has_inter]
      cases hbit : (ifBit i).has k with
      | false => exact Bool.and_false _
      | true => rw [← ifBit_has hbit, hhas, Bool.false_and]

structure Nodes where
  nodes : Fin 10 → Option Path
  available : InterfaceMask
  leds : Fin 4 → Option Path
  battery : Option Path
deriving DecidableEq

def Nodes.default : Nodes where
  nodes := fun _ => none
  available := .empty
  leds := fun _ => none
  battery := none

/-- What udev says of a child device. -/
structure UdevChild where
  subsystem : Option (List UInt8)
  sysname : Option (List UInt8)
  name : Option (List UInt8)
  devnode : Option (List UInt8)
deriving DecidableEq

/-- An entry of the enumeration: its path, and the device when it can be opened. -/
structure UdevEntry where
  path : Option (List UInt8)
  device : Option UdevChild
deriving DecidableEq

def interfaceByName (name : List UInt8) : Option (Fin 10) :=
  (List.finRange 10).find? fun i => literal (ifNames.getD i "") = name

/-- `PathBuf::from` of the lossy text. -/
def lossyPath (bytes : List UInt8) : Path :=
  UnixPath.ofBytes (Text.encode (LossyText.decode bytes))

/-- The index that the last byte of a path stands for. -/
def ledIndex (path : List UInt8) : Option (Fin 4) :=
  match Text.decode path, path.getLast? with
  | some _, some last =>
      if 48 ≤ last.toNat ∧ last.toNat < 52 then some (Fin.ofNat 4 (last.toNat - 48)) else none
  | _, _ => none

/-- What one input entry does: a named device is remembered for the event node that
comes next. -/
def Nodes.input (prev : Option (Fin 10)) (nodes : Nodes) (child : UdevChild)
    (sysname : List UInt8) : Option (Fin 10) × Nodes :=
  if literal "input" <+: sysname then (child.name.bind interfaceByName, nodes)
  else if literal "event" <+: sysname then
    match prev, child.devnode with
    | some i, some node =>
        (none, { nodes with
          nodes := Function.update nodes.nodes i (some (lossyPath node))
          available := nodes.available.union (ifBit i) })
    | _, _ => (none, nodes)
  else (none, nodes)

/-- One entry of the enumeration. -/
def Nodes.entry (state : Option (Fin 10) × Nodes) (entry : UdevEntry) :
    Option (Fin 10) × Nodes :=
  match entry.path, entry.device with
  | some path, some child =>
      if child.subsystem = some (literal "input") then
        match child.sysname with
        | some sysname => state.2.input state.1 child sysname
        | none => state
      else if child.subsystem = some (literal "leds") then
        match ledIndex path with
        | some n => (state.1, { state.2 with
            leds := Function.update state.2.leds n
              (some ((lossyPath path).extend [literal "brightness"])) })
        | none => state
      else if child.subsystem = some (literal "power_supply") then
        (state.1, { state.2 with
          battery := some ((lossyPath path).extend [literal "capacity"]) })
      else state
  | _, _ => state

/-- Take the nodes from an enumeration; one that fails changes nothing. -/
def refreshNodes (old : Nodes) (scan : Except Int (List UdevEntry)) : Except Int Nodes :=
  match scan with
  | .error rc => .error rc
  | .ok entries =>
      .ok (entries.foldl Nodes.entry (none, { old with available := .empty })).2

/-- An available input has a node. -/
def Nodes.Sound (nodes : Nodes) : Prop :=
  ∀ i : Fin 10, nodes.available.has (ifPosition i) = true → (nodes.nodes i).isSome = true

theorem Nodes.Sound.clear (nodes : Nodes) :
    Nodes.Sound { nodes with available := .empty } := by
  intro i hhas
  rw [InterfaceMask.has_empty] at hhas
  exact absurd hhas Bool.false_ne_true

theorem Nodes.Sound.input {nodes : Nodes} (hsound : nodes.Sound) (prev : Option (Fin 10))
    (child : UdevChild) (sysname : List UInt8) :
    (nodes.input prev child sysname).2.Sound := by
  unfold Nodes.input
  split
  · exact hsound
  · split
    · split
      · rename_i i node hnode
        intro j hhas
        by_cases hsame : j = i
        · subst hsame
          simp
        · rw [InterfaceMask.has_union, ifBit_other (Ne.symm hsame), Bool.or_false] at hhas
          simp only [Function.update_of_ne hsame]
          exact hsound j hhas
      · exact hsound
    · exact hsound

theorem Nodes.Sound.entry {state : Option (Fin 10) × Nodes} (hsound : state.2.Sound)
    (entry : UdevEntry) : (Nodes.entry state entry).2.Sound := by
  unfold Nodes.entry
  split
  · split
    · split
      · exact hsound.input _ _ _
      · exact hsound
    · split
      · split
        · exact hsound
        · exact hsound
      · split
        · exact hsound
        · exact hsound
  · exact hsound

theorem refreshNodes_sound {old nodes : Nodes} {scan : Except Int (List UdevEntry)}
    (hrefresh : refreshNodes old scan = .ok nodes) : nodes.Sound := by
  cases scan with
  | error rc => cases hrefresh
  | ok entries =>
      cases hrefresh
      have hfold : ∀ state : Option (Fin 10) × Nodes, state.2.Sound →
          (entries.foldl Nodes.entry state).2.Sound := by
        intro state hstate
        induction entries generalizing state with
        | nil => exact hstate
        | cons entry rest ih => exact ih _ (hstate.entry entry)
      exact hfold _ (Nodes.Sound.clear old)

end Hid

end Wiiland
