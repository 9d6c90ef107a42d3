/-
The control center's log of a program's output.  Text is stored in blocks that end
at line ends or at the byte limit, and the oldest blocks are dropped.
-/
import Wiiland.Lib.TextCut
import Mathlib.Data.List.DropRight
import Mathlib.Algebra.BigOperators.Group.List.Basic
import Mathlib.Algebra.GroupWithZero.Nat

namespace Wiiland

namespace ControlCenter

open Text (byteLength)

def outputBlockLimit : Nat := 10000

def outputBlockByteLimit : Nat := 1024

structure OutputBuffer where
  blocks : List (List Char)
  bytes : Nat
deriving DecidableEq, Repr

/-- A subtraction of sizes; `none` where it refuses. -/
abbrev Subtraction := Nat → Nat → Option Nat

def saturatingSub : Subtraction := fun bytes size => some (bytes - size)

def checkedSub : Subtraction := fun bytes size =>
  if size ≤ bytes then some (bytes - size) else none

namespace OutputBuffer

def new : OutputBuffer := ⟨[], 0⟩

def pushBack (buffer : OutputBuffer) (block : List Char) : OutputBuffer :=
  ⟨buffer.blocks ++ [block], buffer.bytes + byteLength block⟩

/-- Cut the remainder of a line into blocks; `none` when the cuts do not come to an
end within the fuel or split a character. -/
def pushRemainder : Nat → OutputBuffer → List Char → Option OutputBuffer
  | _, buffer, [] => some buffer
  | 0, _, _ :: _ => none
  | fuel + 1, buffer, c :: remainder => do
      let stop := Text.floorBoundary (c :: remainder)
        (min (byteLength (c :: remainder)) outputBlockByteLimit)
      let block ← Text.takeBytes (c :: remainder) stop
      let rest ← Text.dropBytes (c :: remainder) stop
      pushRemainder fuel (buffer.pushBack block) rest

/-- Store the blocks of every line, with one cut a character allowed. -/
def pushLines : OutputBuffer → List (List Char) → Option OutputBuffer
  | buffer, [] => some buffer
  | buffer, line :: lines =>
      (pushRemainder line.length buffer line).bind fun buffer => pushLines buffer lines

/-- Drop the oldest blocks above the limit. -/
def evict (sub : Subtraction) : List (List Char) → Nat → Option OutputBuffer
  | [], bytes => some ⟨[], bytes⟩
  | old :: blocks, bytes =>
      if outputBlockLimit < (old :: blocks).length then
        (sub bytes (byteLength old)).bind fun bytes => evict sub blocks bytes
      else some ⟨old :: blocks, bytes⟩

def append (sub : Subtraction) (buffer : OutputBuffer) (text : List Char) :
    Option OutputBuffer :=
  if text = [] then some buffer
  else do
    let buffer ← buffer.pushLines (Lines.splitInclusive '\n' text)
    evict sub buffer.blocks buffer.bytes

def clear (_ : OutputBuffer) : OutputBuffer := ⟨[], 0⟩

def asText (buffer : OutputBuffer) : List Char :=
  buffer.blocks.foldl (fun s b => s ++ b) []

end OutputBuffer

/-- A call that changes the log. -/
inductive OutputCall where
  | append (text : List Char)
  | clear
deriving DecidableEq, Repr

/-- The log after some calls. -/
def runOutput (sub : Subtraction) : OutputBuffer → List OutputCall → Option OutputBuffer
  | buffer, [] => some buffer
  | buffer, .append text :: calls =>
      (buffer.append sub text).bind fun buffer => runOutput sub buffer calls
  | buffer, .clear :: calls => runOutput sub buffer.clear calls

/-- The blocks that the calls produce after the last clear. -/
def producedBlocks : List (List Char) → List OutputCall → Option (List (List Char))
  | blocks, [] => some blocks
  | blocks, .append text :: calls =>
      (OutputBuffer.new.pushLines (Lines.splitInclusive '\n' text)).bind fun buffer =>
        producedBlocks (blocks ++ buffer.blocks) calls
  | _, .clear :: calls => producedBlocks [] calls

/-- The texts appended after the last clear. -/
def appendedText : List Char → List OutputCall → List Char
  | log, [] => log
  | log, .append text :: calls => appendedText (log ++ text) calls
  | _, .clear :: calls => appendedText [] calls

/-- The buffer of some blocks with their sizes counted. -/
def OutputBuffer.counted (blocks : List (List Char)) : OutputBuffer :=
  ⟨blocks, (blocks.map byteLength).sum⟩

@[simp] theorem OutputBuffer.counted_blocks (blocks : List (List Char)) :
    (OutputBuffer.counted blocks).blocks = blocks := rfl

theorem OutputBuffer.counted_bytes (blocks : List (List Char)) :
    (OutputBuffer.counted blocks).bytes =
      ((OutputBuffer.counted blocks).blocks.map byteLength).sum := rfl

theorem runOutput_clear (sub : Subtraction) (buffer : OutputBuffer)
    (calls : List OutputCall) :
    runOutput sub buffer (.clear :: calls) =
      runOutput sub (OutputBuffer.counted []) calls := rfl

/-- A block as the log stores it. -/
def Block (block : List Char) : Prop :=
  block ≠ [] ∧ byteLength block ≤ outputBlockByteLimit

namespace OutputBuffer

theorem asText_flatten (buffer : OutputBuffer) :
    buffer.asText = buffer.blocks.flatten := by
  have hfold : ∀ (blocks : List (List Char)) (s : List Char),
      blocks.foldl (fun s b => s ++ b) s = s ++ blocks.flatten := by
    intro blocks
    induction blocks with
    | nil => simp
    | cons block blocks ih =>
        intro s
        rw [List.foldl_cons, ih, List.flatten_cons, List.append_assoc]
  exact hfold buffer.blocks []

theorem counted_append (blocks more : List (List Char)) :
    (⟨blocks ++ more, (counted blocks).bytes + (more.map byteLength).sum⟩ :
      OutputBuffer) = counted (blocks ++ more) := by
  rw [counted, counted, List.map_append, List.sum_append]

/-- The cuts of a remainder come to an end, and what they store does not depend on
what is already stored. -/
theorem pushRemainder_blocks (fuel : Nat) (remainder : List Char)
    (hfuel : remainder.length ≤ fuel) :
    ∃ blocks, blocks.flatten = remainder ∧ (∀ block ∈ blocks, Block block) ∧
      ∀ buffer : OutputBuffer, pushRemainder fuel buffer remainder =
        some ⟨buffer.blocks ++ blocks, buffer.bytes + (blocks.map byteLength).sum⟩ := by
  induction fuel generalizing remainder with
  | zero =>
      obtain rfl := List.length_eq_zero_iff.mp (Nat.le_zero.mp hfuel)
      exact ⟨[], rfl, by simp, fun buffer => by simp [pushRemainder]⟩
  | succ fuel ih =>
      cases remainder with
      | nil => exact ⟨[], rfl, by simp, fun buffer => by simp [pushRemainder]⟩
      | cons c remainder =>
          have hsize : c.utf8Size ≤ outputBlockByteLimit :=
            Nat.le_trans c.utf8Size_le_four (by decide)
          have hfits : c.utf8Size ≤
              min (byteLength (c :: remainder)) outputBlockByteLimit :=
            Nat.le_min.mpr ⟨Nat.le_add_right _ _, hsize⟩
          obtain ⟨before, after, hsplit, hstop⟩ :=
            @Text.exists_floorBoundary c remainder _ hfits
          have hshort : after.length ≤ fuel := by
            have hlength := congrArg List.length hsplit
            simp only [List.length_append, List.length_cons] at hlength hfuel
            omega
          obtain ⟨blocks, hflatten, hblocks, hpush⟩ := ih after hshort
          have hblock : Block (c :: before) := by
            refine ⟨List.cons_ne_nil c before, ?_⟩
            rw [hstop]
            exact Nat.le_trans (Text.floorBoundary_le _ _) (Nat.min_le_right _ _)
          refine ⟨(c :: before) :: blocks, ?_, ?_, fun buffer => ?_⟩
          · rw [List.flatten_cons, hflatten, hsplit]
          · exact List.forall_mem_cons.mpr ⟨hblock, hblocks⟩
          · rw [pushRemainder, ← hstop, hsplit, Text.takeBytes_append,
              Text.dropBytes_append]
            change pushRemainder fuel (buffer.pushBack (c :: before)) after = _
            rw [hpush, pushBack]
            simp [Nat.add_assoc]

theorem pushLines_blocks (lines : List (List Char)) :
    ∃ blocks, blocks.flatten = lines.flatten ∧ (∀ block ∈ blocks, Block block) ∧
      ∀ buffer : OutputBuffer, pushLines buffer lines =
        some ⟨buffer.blocks ++ blocks, buffer.bytes + (blocks.map byteLength).sum⟩ := by
  induction lines with
  | nil => exact ⟨[], rfl, by simp, fun buffer => by simp [pushLines]⟩
  | cons line lines ih =>
      obtain ⟨first, hfirst, hfirstBlocks, hpush⟩ :=
        pushRemainder_blocks line.length line (Nat.le_refl _)
      obtain ⟨blocks, hflatten, hblocks, hrest⟩ := ih
      refine ⟨first ++ blocks, ?_, ?_, fun buffer => ?_⟩
      · rw [List.flatten_append, hfirst, hflatten, List.flatten_cons]
      · exact List.forall_mem_append.mpr ⟨hfirstBlocks, hblocks⟩
      · rw [pushLines, hpush, Option.bind_some, hrest]
        simp [Nat.add_assoc]

/-- A text is stored whole, in blocks within the byte limit. -/
theorem pushLines_text (text : List Char) :
    ∃ blocks, blocks.flatten = text ∧ (∀ block ∈ blocks, Block block) ∧
      ∀ buffer : OutputBuffer,
        pushLines buffer (Lines.splitInclusive '\n' text) =
          some ⟨buffer.blocks ++ blocks,
            buffer.bytes + (blocks.map byteLength).sum⟩ := by
  obtain ⟨blocks, hflatten, hblocks, hpush⟩ :=
    pushLines_blocks (Lines.splitInclusive '\n' text)
  rw [Text.splitInclusive_flatten] at hflatten
  exact ⟨blocks, hflatten, hblocks, hpush⟩

end OutputBuffer

/-- A subtraction that is exact where nothing has to saturate. -/
def Subtraction.Exact (sub : Subtraction) : Prop :=
  ∀ bytes size, size ≤ bytes → sub bytes size = some (bytes - size)

theorem saturatingSub_exact : saturatingSub.Exact := fun _ _ _ => rfl

theorem checkedSub_exact : checkedSub.Exact := fun _ _ hle => if_pos hle

/-- Dropping the oldest entries before or after more entries arrive is the same. -/
theorem rtake_append_rtake {A : Type*} (limit : Nat) (old more : List A) :
    (old.rtake limit ++ more).rtake limit = (old ++ more).rtake limit := by
  rw [List.rtake_eq_reverse_take_reverse, List.rtake_eq_reverse_take_reverse,
    List.rtake_eq_reverse_take_reverse, List.reverse_append, List.reverse_append,
    List.reverse_reverse, List.take_append, List.take_append, List.take_take]
  congr 3
  omega

theorem rtake_suffix {A : Type*} (limit : Nat) (list : List A) :
    list.rtake limit <:+ list := List.drop_suffix _ list

theorem rtake_eq_self {A : Type*} {limit : Nat} {list : List A}
    (hlength : list.length ≤ limit) : list.rtake limit = list := by
  rw [List.rtake, Nat.sub_eq_zero_of_le hlength, List.drop_zero]

/-- Eviction keeps the newest blocks and their count, with no subtraction below
zero. -/
theorem evict_counted {sub : Subtraction} (hsub : sub.Exact) (blocks : List (List Char)) :
    OutputBuffer.evict sub blocks (OutputBuffer.counted blocks).bytes =
      some (OutputBuffer.counted (blocks.rtake outputBlockLimit)) := by
  induction blocks with
  | nil => rfl
  | cons old blocks ih =>
      rw [OutputBuffer.evict]
      have hbytes : (OutputBuffer.counted (old :: blocks)).bytes =
          byteLength old + (OutputBuffer.counted blocks).bytes := List.sum_cons
      split
      · rename_i hover
        have hdrop : (old :: blocks).rtake outputBlockLimit =
            blocks.rtake outputBlockLimit := by
          rw [List.length_cons] at hover
          rw [List.rtake, List.rtake, List.length_cons,
            Nat.succ_sub (Nat.le_of_lt_succ hover), List.drop_succ_cons]
        rw [hbytes, hsub _ _ (Nat.le_add_right _ _), Nat.add_sub_cancel_left, hdrop]
        exact ih
      · rename_i hfits
        rw [rtake_eq_self (Nat.le_of_not_lt hfits)]
        rfl

/-- One append keeps the newest of the blocks stored before and the new ones. -/
theorem append_counted {sub : Subtraction} (hsub : sub.Exact) (text : List Char) :
    ∃ more, more.flatten = text ∧ (∀ block ∈ more, Block block) ∧
      OutputBuffer.new.pushLines (Lines.splitInclusive '\n' text) =
        some (OutputBuffer.counted more) ∧
      ∀ blocks : List (List Char), (OutputBuffer.counted blocks).append sub text =
        some (OutputBuffer.counted
          (if text = [] then blocks else (blocks ++ more).rtake outputBlockLimit)) := by
  obtain ⟨more, hflatten, hmore, hpush⟩ := OutputBuffer.pushLines_text text
  refine ⟨more, hflatten, hmore, ?_, fun blocks => ?_⟩
  · rw [hpush]
    simp [OutputBuffer.new, OutputBuffer.counted]
  · rw [OutputBuffer.append]
    split
    · rfl
    · have hcounted := OutputBuffer.counted_append blocks more
      rw [hpush, Option.bind_eq_bind, Option.bind_some, OutputBuffer.counted_blocks,
        hcounted]
      exact evict_counted hsub (blocks ++ more)

/-- The log is the newest of the blocks produced since the last clear. -/
theorem runOutput_produced {sub : Subtraction} (hsub : sub.Exact)
    (calls : List OutputCall) :
    ∀ blocks : List (List Char), (∀ block ∈ blocks, Block block) →
      ∃ produced, producedBlocks blocks calls = some produced ∧
        (∀ block ∈ produced, Block block) ∧
        produced.flatten = appendedText blocks.flatten calls ∧
        runOutput sub (OutputBuffer.counted (blocks.rtake outputBlockLimit)) calls =
          some (OutputBuffer.counted (produced.rtake outputBlockLimit)) := by
  induction calls with
  | nil => exact fun blocks hblocks => ⟨blocks, rfl, hblocks, rfl, rfl⟩
  | cons call calls ih =>
      intro blocks hblocks
      cases call with
      | clear =>
          obtain ⟨produced, hproduced, hvalid, htext, hrun⟩ := ih [] (by simp)
          rw [List.rtake_nil] at hrun
          refine ⟨produced, hproduced, hvalid, htext, ?_⟩
          rw [runOutput_clear]
          exact hrun
      | append text =>
          obtain ⟨more, hflatten, hmore, hpush, happend⟩ := append_counted hsub text
          obtain ⟨produced, hproduced, hvalid, htext, hrun⟩ :=
            ih (blocks ++ more) (List.forall_mem_append.mpr ⟨hblocks, hmore⟩)
          refine ⟨produced, ?_, hvalid, ?_, ?_⟩
          · rw [producedBlocks, hpush]
            exact hproduced
          · rw [htext, List.flatten_append, hflatten]
            rfl
          · rw [runOutput, happend, Option.bind_some, ← hrun, rtake_append_rtake]
            split
            · rename_i hempty
              rw [hempty] at hflatten
              have hnone : more = [] := by
                refine List.eq_nil_iff_forall_not_mem.mpr fun block hblock => ?_
                exact (hmore block hblock).1 (List.flatten_eq_nil_iff.mp hflatten block hblock)
              rw [hnone, List.append_nil]
            · rfl

/-- The log keeps a faithful tail of what was appended since the last clear: every
call returns, no subtraction saturates, and the limits hold. -/
theorem runOutput_tail (calls : List OutputCall) :
    ∃ buffer produced, runOutput saturatingSub OutputBuffer.new calls = some buffer ∧
      runOutput checkedSub OutputBuffer.new calls = some buffer ∧
      producedBlocks [] calls = some produced ∧
      (∀ block ∈ buffer.blocks,
        block ≠ [] ∧ byteLength block ≤ outputBlockByteLimit) ∧
      buffer.blocks.length ≤ outputBlockLimit ∧
      buffer.bytes = (buffer.blocks.map byteLength).sum ∧
      buffer.asText <:+ appendedText [] calls ∧
      (produced.length ≤ outputBlockLimit → buffer.asText = appendedText [] calls) := by
  obtain ⟨produced, hproduced, hvalid, htext, hrun⟩ :=
    runOutput_produced saturatingSub_exact calls [] (by simp)
  obtain ⟨again, hagain, _, _, hchecked⟩ :=
    runOutput_produced checkedSub_exact calls [] (by simp)
  rw [hproduced] at hagain
  obtain rfl := Option.some.inj hagain
  have hsuffix := rtake_suffix outputBlockLimit produced
  have hkept : ∀ block ∈ produced.rtake outputBlockLimit, Block block :=
    fun block hblock => hvalid block (hsuffix.subset hblock)
  rw [List.rtake_nil] at hrun hchecked
  refine ⟨OutputBuffer.counted (produced.rtake outputBlockLimit), produced, hrun,
    hchecked, hproduced, ?_, ?_, OutputBuffer.counted_bytes _, ?_, fun hfew => ?_⟩
  · rw [OutputBuffer.counted_blocks]
    exact hkept
  · rw [OutputBuffer.counted_blocks, List.rtake, List.length_drop]
    omega
  · obtain ⟨dropped, hdropped⟩ := hsuffix
    rw [OutputBuffer.asText_flatten, OutputBuffer.counted_blocks]
    refine ⟨dropped.flatten, ?_⟩
    rw [← List.flatten_append, hdropped, htext]
    rfl
  · rw [OutputBuffer.asText_flatten, OutputBuffer.counted_blocks, rtake_eq_self hfew,
      htext]
    rfl

end ControlCenter

end Wiiland
