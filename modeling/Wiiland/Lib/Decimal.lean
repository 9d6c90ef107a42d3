/-
Decimal numerals of machine integers: a reader with an optional sign and a
range check, and a writer it inverts.
-/
import Mathlib.Data.List.Basic

namespace Decimal

/-- A nonempty run of decimal digits. -/
def digits (text : List Char) : Option Nat :=
  if text ≠ [] ∧ text.all Char.isDigit then some (Nat.ofDigitChars 10 text 0)
  else none

/-- A 64-bit signed numeral: an optional sign, then digits, then the range. -/
def readI64 (text : List Char) : Option Int :=
  match text with
  | '-' :: rest =>
      (digits rest).bind fun n => if n ≤ 0x8000000000000000 then some (-(n : Int)) else none
  | '+' :: rest =>
      (digits rest).bind fun n => if n < 0x8000000000000000 then some (n : Int) else none
  | rest =>
      (digits rest).bind fun n => if n < 0x8000000000000000 then some (n : Int) else none

/-- The canonical numeral. -/
def write (n : Int) : List Char :=
  match n with
  | .ofNat n => Nat.toDigits 10 n
  | .negSucc n => '-' :: Nat.toDigits 10 (n + 1)

theorem digits_toDigits (n : Nat) : digits (Nat.toDigits 10 n) = some n := by
  have hall : (Nat.toDigits 10 n).all Char.isDigit = true := by
    rw [List.all_eq_true]
    intro c hc
    exact Nat.isDigit_of_mem_toDigits (by decide) (by decide) hc
  rw [digits, if_pos ⟨Nat.toDigits_ne_nil, hall⟩, Nat.ofDigitChars_ten_toDigits]

theorem isDigit_or_minus_of_mem_write {n : Int} {c : Char} (hc : c ∈ write n) :
    c.isDigit = true ∨ c = '-' := by
  cases n with
  | ofNat n =>
      exact .inl (Nat.isDigit_of_mem_toDigits (by decide) (by decide) hc)
  | negSucc n =>
      rcases List.mem_cons.mp hc with hminus | hdigit
      · exact .inr hminus
      · exact .inl (Nat.isDigit_of_mem_toDigits (by decide) (by decide) hdigit)

theorem isDigit_iff_toNat (c : Char) :
    c.isDigit = true ↔ 48 ≤ c.toNat ∧ c.toNat ≤ 57 := by
  unfold Char.isDigit
  simp only [ge_iff_le, Bool.and_eq_true, decide_eq_true_eq,
    UInt32.le_iff_toNat_le]
  exact Iff.rfl

/-- Every character of a numeral lies between the sign and the last digit. -/
theorem toNat_of_mem_write {n : Int} {c : Char} (hc : c ∈ write n) :
    45 ≤ c.toNat ∧ c.toNat ≤ 57 := by
  rcases isDigit_or_minus_of_mem_write hc with hdigit | rfl
  · obtain ⟨hlow, hhigh⟩ := (isDigit_iff_toNat c).mp hdigit
    omega
  · decide

theorem length_write_le {n : Int} (hmin : -100000 < n) (hmax : n < 100000) :
    (write n).length ≤ 6 := by
  have hdigits : ∀ n : Nat, n < 100000 → (Nat.toDigits 10 n).length ≤ 5 :=
    fun n hn => (Nat.length_toDigits_le_iff (by decide) (by decide)).mpr hn
  cases n with
  | ofNat n =>
      rw [Int.ofNat_eq_natCast] at hmax
      exact Nat.le_succ_of_le (hdigits n (by omega))
  | negSucc n => exact Nat.succ_le_succ (hdigits (n + 1) (by omega))

theorem readI64_of_unsigned {text : List Char}
    (htext : ∀ c ∈ text, c.isDigit = true) :
    readI64 text = (digits text).bind fun n =>
      if n < 0x8000000000000000 then some (n : Int) else none := by
  unfold readI64
  split
  · exact absurd (htext '-' List.mem_cons_self) (by decide)
  · exact absurd (htext '+' List.mem_cons_self) (by decide)
  · rfl

/-- The reader inverts the writer on the machine range. -/
theorem readI64_write {n : Int} (hmin : -0x8000000000000000 ≤ n) (hmax : n < 0x8000000000000000) :
    readI64 (write n) = some n := by
  cases n with
  | ofNat n =>
      have hfit : n < 0x8000000000000000 := by
        have hcast : ((n : Nat) : Int) < 0x8000000000000000 := hmax
        omega
      rw [write, readI64_of_unsigned, digits_toDigits, Option.bind_some,
        if_pos hfit]
      · rfl
      · intro c hc
        exact Nat.isDigit_of_mem_toDigits (by decide) (by decide) hc
  | negSucc n =>
      have hfit : n + 1 ≤ 0x8000000000000000 := by omega
      rw [write, readI64, digits_toDigits, Option.bind_some, if_pos hfit]
      rfl

/-- What the reader makes of a canonical numeral is its number. -/
theorem eq_of_readI64_write {n m : Int} (hread : readI64 (write n) = some m) : m = n := by
  cases n with
  | ofNat n =>
      rw [write, readI64_of_unsigned (fun c hc => Nat.isDigit_of_mem_toDigits (by decide)
        (by decide) hc), digits_toDigits, Option.bind_some] at hread
      split at hread
      · exact (Option.some.inj hread).symm
      · cases hread
  | negSucc n =>
      rw [write, readI64, digits_toDigits, Option.bind_some] at hread
      split at hread
      · exact (Option.some.inj hread).symm
      · cases hread

end Decimal
