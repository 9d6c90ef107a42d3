/-
Finite sets of numbers kept as an array of machine words.  The member scan
takes the first nonzero word and its lowest bit, and visits the members of the
set in increasing order.
-/
import Mathlib.Logic.Function.Basic
import Wiiland.Lib.BitSet

namespace WordSet

variable {n w : Nat}

/-- An array of `n` words of `w` bits. -/
abbrev Words (n w : Nat) := Fin n → BitVec w

def empty : Words n w := fun _ => 0

/-- The word at an index, zero past the end. -/
def wordAt (words : Words n w) (i : Nat) : BitVec w :=
  if h : i < n then words ⟨i, h⟩ else 0

/-- Bit `k % w` of word `k / w`. -/
def mem (words : Words n w) (k : Nat) : Bool :=
  (wordAt words (k / w)).getLsbD (k % w)

def setWord (words : Words n w) (i : Nat) (word : BitVec w) : Words n w :=
  if h : i < n then Function.update words ⟨i, h⟩ word else words

def insert (words : Words n w) (k : Nat) : Words n w :=
  setWord words (k / w) (wordAt words (k / w) ||| BitSet.single w (k % w))

def erase (words : Words n w) (k : Nat) : Words n w :=
  setWord words (k / w) (wordAt words (k / w) &&& ~~~BitSet.single w (k % w))

/-- The numbers in exactly one of two sets. -/
def symmDiff (first second : Words n w) : Words n w :=
  fun i => first i ^^^ second i

/-- The members in increasing order. -/
def members (words : Words n w) : List Nat := (List.range (n * w)).filter (mem words)

/-- The scan: the first nonzero word and its trailing zeros. -/
def lowest (words : Words n w) : Option Nat :=
  ((List.range n).find? fun i => wordAt words i != 0).map fun i =>
    i * w + (wordAt words i).ctz.toNat

theorem wordAt_setWord (words : Words n w) {i : Nat} (hi : i < n)
    (word : BitVec w) (j : Nat) :
    wordAt (setWord words i word) j = if j = i then word else wordAt words j := by
  by_cases hj : j < n
  · by_cases hji : j = i
    · subst hji
      simp [wordAt, setWord, hj]
    · simp [wordAt, setWord, hi, hj, hji]
  · have hji : j ≠ i := by omega
    simp [wordAt, hj, hji]

@[simp] theorem mem_empty (k : Nat) : mem (empty : Words n w) k = false := by
  unfold mem wordAt empty
  split <;> simp

theorem wordAt_symmDiff (first second : Words n w) (i : Nat) :
    wordAt (symmDiff first second) i = wordAt first i ^^^ wordAt second i := by
  unfold wordAt symmDiff
  split
  · rfl
  · simp

theorem mem_symmDiff (first second : Words n w) (k : Nat) :
    mem (symmDiff first second) k = (mem first k != mem second k) := by
  rw [mem, wordAt_symmDiff, BitVec.getLsbD_xor, mem, mem]

/-- A number is determined by its word and its bit. -/
theorem index_eq_iff {j k : Nat} : j / w = k / w ∧ j % w = k % w ↔ j = k := by
  constructor
  · rintro ⟨hdiv, hmod⟩
    rw [← Nat.div_add_mod j w, hdiv, hmod, Nat.div_add_mod]
  · rintro rfl
    exact ⟨rfl, rfl⟩

theorem mem_insert (words : Words n w) {k : Nat} (hw : 0 < w) (hk : k / w < n)
    (j : Nat) : mem (insert words k) j = (mem words j || decide (j = k)) := by
  have hbit : j % w < w := Nat.mod_lt j hw
  rw [mem, insert, wordAt_setWord words hk]
  by_cases hdiv : j / w = k / w
  · rw [if_pos hdiv, BitSet.getLsbD_insert, ← hdiv, ← mem]
    have hiff : (k % w = j % w) ↔ j = k := by
      rw [← @index_eq_iff w j k]
      exact ⟨fun h => ⟨hdiv, h.symm⟩, fun h => h.2.symm⟩
    simp [hbit, hiff]
  · have hne : j ≠ k := fun h => hdiv (by rw [h])
    rw [if_neg hdiv, ← mem]
    simp [hne]

theorem mem_erase (words : Words n w) {k : Nat} (hk : k / w < n) (j : Nat) :
    mem (erase words k) j = (mem words j && !decide (j = k)) := by
  rw [mem, erase, wordAt_setWord words hk]
  by_cases hdiv : j / w = k / w
  · rw [if_pos hdiv, BitSet.getLsbD_erase, ← hdiv, ← mem]
    have hiff : (k % w = j % w) ↔ j = k := by
      rw [← @index_eq_iff w j k]
      exact ⟨fun h => ⟨hdiv, h.symm⟩, fun h => h.2.symm⟩
    simp [hiff]
  · have hne : j ≠ k := fun h => hdiv (by rw [h])
    rw [if_neg hdiv, ← mem]
    simp [hne]

theorem lt_of_mem {words : Words n w} {k : Nat} (hmem : mem words k = true) :
    k < n * w := by
  have hw : 0 < w := by
    by_contra hzero
    have hnil : w = 0 := by omega
    subst hnil
    rw [mem, BitVec.getLsbD_of_ge _ _ (Nat.zero_le _)] at hmem
    exact absurd hmem Bool.false_ne_true
  have hdiv : k / w < n := by
    by_contra hge
    rw [mem, wordAt, dif_neg hge] at hmem
    simp at hmem
  exact (Nat.div_lt_iff_lt_mul hw).mp hdiv

/-- The scan fails on the empty set only. -/
theorem eq_empty_of_lowest_eq_none {words : Words n w} (hnone : lowest words = none) :
    words = empty := by
  rw [lowest, Option.map_eq_none_iff, List.find?_range_eq_none] at hnone
  funext i
  have hzero := hnone i i.isLt
  simp only [Bool.not_eq_true', bne_eq_false_iff_eq] at hzero
  rw [wordAt, dif_pos i.isLt] at hzero
  exact hzero

/-- The scan finds the least member. -/
theorem lowest_spec {words : Words n w} {k : Nat} (hsome : lowest words = some k) :
    mem words k = true ∧ ∀ j < k, mem words j = false := by
  rw [lowest, Option.map_eq_some_iff] at hsome
  obtain ⟨i, hfind, rfl⟩ := hsome
  rw [List.find?_range_eq_some] at hfind
  obtain ⟨hword, hi, hbefore⟩ := hfind
  rw [bne_iff_ne] at hword
  have hbit : (wordAt words i).ctz.toNat < w := by
    have hlt := BitVec.lt_def.mp (BitVec.ctz_lt_iff_ne_zero.mpr hword)
    have hmod : (BitVec.ofNat w w).toNat ≤ w := by
      rw [BitVec.toNat_ofNat]
      exact Nat.mod_le _ _
    exact Nat.lt_of_lt_of_le hlt hmod
  have hw : 0 < w := by omega
  have hdiv : (i * w + (wordAt words i).ctz.toNat) / w = i := by
    rw [Nat.mul_comm, Nat.mul_add_div hw, Nat.div_eq_of_lt hbit, Nat.add_zero]
  have hmod : (i * w + (wordAt words i).ctz.toNat) % w =
      (wordAt words i).ctz.toNat := by
    rw [Nat.mul_comm, Nat.mul_add_mod, Nat.mod_eq_of_lt hbit]
  constructor
  · rw [mem, hdiv, hmod]
    exact BitVec.getLsbD_true_ctz_of_ne_zero hword
  · intro j hj
    have hjdiv : j / w ≤ i := by
      rw [← hdiv]
      exact Nat.div_le_div_right (Nat.le_of_lt hj)
    rcases Nat.lt_or_eq_of_le hjdiv with hlt | heq
    · have hzero := hbefore (j / w) hlt
      simp only [Bool.not_eq_true', bne_eq_false_iff_eq] at hzero
      rw [mem, hzero]
      simp
    · rw [mem, heq]
      apply BitVec.getLsbD_false_of_lt_ctz
      have hsplit := Nat.div_add_mod j w
      rw [heq, Nat.mul_comm] at hsplit
      omega

theorem members_empty : members (empty : Words n w) = [] := by
  rw [members, List.filter_eq_nil_iff]
  intro k _
  rw [mem_empty]
  exact Bool.false_ne_true

theorem filter_range_eq_cons {p : Nat → Bool} {k bound : Nat} (hk : k < bound)
    (hp : p k = true) (hleast : ∀ j < k, p j = false) :
    (List.range bound).filter p =
      k :: (List.range bound).filter fun j => p j && !decide (j = k) := by
  induction bound with
  | zero => omega
  | succ bound ih =>
      rw [List.range_succ, List.filter_append, List.filter_append]
      by_cases hlast : k = bound
      · subst hlast
        have hnone : (List.range k).filter p = [] := by
          rw [List.filter_eq_nil_iff]
          intro j hj
          rw [hleast j (List.mem_range.mp hj)]
          exact Bool.false_ne_true
        have hnone' : (List.range k).filter
            (fun j => p j && !decide (j = k)) = [] := by
          rw [List.filter_eq_nil_iff]
          intro j hj
          rw [hleast j (List.mem_range.mp hj)]
          exact Bool.false_ne_true
        rw [hnone, hnone']
        simp [hp]
      · have hlt : k < bound := by omega
        have hne : ¬bound = k := fun h => hlast h.symm
        rw [ih hlt]
        simp [List.filter_singleton, hne]

/-- The scan and an erasure enumerate the members in increasing order. -/
theorem members_eq_cons {words : Words n w} {k : Nat}
    (hsome : lowest words = some k) :
    members words = k :: members (erase words k) := by
  obtain ⟨hmem, hleast⟩ := lowest_spec hsome
  have hk := lt_of_mem hmem
  have hw : 0 < w := Nat.pos_of_lt_mul_left hk
  have hdiv : k / w < n := (Nat.div_lt_iff_lt_mul hw).mpr hk
  have herase : (fun j => mem words j && !decide (j = k)) = mem (erase words k) := by
    funext j
    rw [mem_erase words hdiv]
  rw [members, filter_range_eq_cons hk hmem hleast, herase, members]

end WordSet
