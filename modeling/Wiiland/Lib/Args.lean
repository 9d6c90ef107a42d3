/-
Argument lists read option by option.  An option stands alone or takes the word
after it; two readers of one list that differ in which options take a word lose
each other only at a word they classify differently.
-/
import Mathlib.Data.List.Basic

namespace Args

universe u v w

/-- What a reader does at an option.  One that takes the next word is told when
there is none. -/
inductive Arm (W : Type u) (S : Type v) (E : Type w) where
  | plain (set : S → Except E S)
  | valued (set : Option W → S → Except E S)

variable {W : Type u} {S : Type v} {E : Type w}

def Arm.takes : Arm W S E → Bool
  | .plain _ => false
  | .valued _ => true

def takesValue (arm : W → Arm W S E) (word : W) : Bool := (arm word).takes

/-- Read the list from its start, stopping at the first error. -/
def run (arm : W → Arm W S E) : List W → S → Except E S
  | [], state => .ok state
  | word :: rest, state =>
      match arm word with
      | .plain set => (set state).bind fun state => run arm rest state
      | .valued set =>
          match rest with
          | [] => set none state
          | value :: rest => (set (some value) state).bind fun state => run arm rest state

/-- An option with its place in the list and the word it takes. -/
structure Reading (W : Type u) where
  place : Nat
  word : W
  value : Option W
deriving DecidableEq, Repr

/-- The options of a list whose first word stands at `place`. -/
def readings (takes : W → Bool) (place : Nat) : List W → List (Reading W)
  | [] => []
  | word :: rest =>
      if takes word then
        match rest with
        | [] => [⟨place, word, none⟩]
        | value :: rest => ⟨place, word, some value⟩ :: readings takes (place + 2) rest
      else ⟨place, word, none⟩ :: readings takes (place + 1) rest

section Readings

variable {takes : W → Bool} {word : W}

theorem readings_plain (htakes : takes word = false) (place : Nat) (rest : List W) :
    readings takes place (word :: rest) =
      ⟨place, word, none⟩ :: readings takes (place + 1) rest := by
  cases rest with
  | nil => simp [readings, htakes]
  | cons value rest => simp [readings, htakes]

theorem readings_last (htakes : takes word = true) (place : Nat) :
    readings takes place [word] = [⟨place, word, none⟩] := by
  simp [readings, htakes]

theorem readings_valued (htakes : takes word = true) (place : Nat) (value : W)
    (rest : List W) :
    readings takes place (word :: value :: rest) =
      ⟨place, word, some value⟩ :: readings takes (place + 2) rest := by
  simp [readings, htakes]

/-- The words of a list, an option at a time. -/
theorem readings_induction (takes : W → Bool) {motive : List W → Prop} (nil : motive [])
    (plain : ∀ word rest, takes word = false → motive rest → motive (word :: rest))
    (last : ∀ word, takes word = true → motive [word])
    (valued : ∀ word value rest, takes word = true → motive rest →
      motive (word :: value :: rest)) (words : List W) : motive words := by
  have hall : ∀ words : List W, motive words ∧ ∀ word, motive (word :: words) := by
    intro words
    induction words with
    | nil =>
        refine ⟨nil, fun word => ?_⟩
        cases htakes : takes word with
        | false => exact plain word [] htakes nil
        | true => exact last word htakes
    | cons value rest ih =>
        refine ⟨ih.2 value, fun word => ?_⟩
        cases htakes : takes word with
        | false => exact plain word (value :: rest) htakes (ih.2 value)
        | true => exact valued word value rest htakes ih.1
  exact (hall words).1

theorem le_place {words : List W} {place : Nat} {reading : Reading W}
    (hreading : reading ∈ readings takes place words) : place ≤ reading.place := by
  induction words using readings_induction takes generalizing place with
  | nil => cases hreading
  | plain word rest htakes ih =>
      rw [readings_plain htakes] at hreading
      rcases List.mem_cons.mp hreading with rfl | hrest
      · exact Nat.le_refl _
      · exact Nat.le_of_succ_le (ih hrest)
  | last word htakes =>
      rw [readings_last htakes, List.mem_singleton] at hreading
      exact Nat.le_of_eq (congrArg Reading.place hreading).symm
  | valued word value rest htakes ih =>
      rw [readings_valued htakes] at hreading
      rcases List.mem_cons.mp hreading with rfl | hrest
      · exact Nat.le_refl _
      · have hlater := ih hrest
        omega

/-- Only an option that takes a word has one. -/
theorem takes_of_value {words : List W} {place : Nat} {reading : Reading W}
    (hreading : reading ∈ readings takes place words) (hvalue : reading.value ≠ none) :
    takes reading.word = true := by
  induction words using readings_induction takes generalizing place with
  | nil => cases hreading
  | plain word rest htakes ih =>
      rw [readings_plain htakes] at hreading
      rcases List.mem_cons.mp hreading with rfl | hrest
      · exact absurd rfl hvalue
      · exact ih hrest
  | last word htakes =>
      rw [readings_last htakes, List.mem_singleton] at hreading
      rw [hreading] at hvalue
      exact absurd rfl hvalue
  | valued word value rest htakes ih =>
      rw [readings_valued htakes] at hreading
      rcases List.mem_cons.mp hreading with rfl | hrest
      · exact htakes
      · exact ih hrest

/-- The readings of the marked words. -/
def marked (mark takes : W → Bool) (place : Nat) (words : List W) : List (Reading W) :=
  (readings takes place words).filter fun reading => mark reading.word

/-- A reader that knows the marked options only agrees with one that knows them
all exactly when no unmarked option takes a marked word. -/
theorem marked_eq_iff {mark narrow wide : W → Bool}
    (hnarrow : ∀ word, narrow word = (mark word && wide word)) (words : List W)
    (place : Nat) :
    marked mark narrow place words = marked mark wide place words ↔
      ∀ reading ∈ readings wide place words, mark reading.word = false →
        ∀ value ∈ reading.value, mark value = false := by
  induction words using readings_induction wide generalizing place with
  | nil => simp [marked, readings]
  | plain word rest hwide ih =>
      have hsame : narrow word = false := by rw [hnarrow, hwide, Bool.and_false]
      have hstep := ih (place + 1)
      rw [marked, marked] at hstep
      rw [marked, marked, readings_plain hsame, readings_plain hwide,
        List.forall_mem_cons]
      cases hmark : mark word with
      | true => simp [hmark, hstep]
      | false => simp [hmark, hstep]
  | last word hwide =>
      rw [marked, marked, readings_last hwide]
      cases hmark : mark word with
      | true =>
          have hsame : narrow word = true := by rw [hnarrow, hmark, hwide]; rfl
          simp [readings_last hsame]
      | false =>
          have hsame : narrow word = false := by rw [hnarrow, hmark, Bool.false_and]
          simp [readings, hsame, hmark]
  | valued word value rest hwide ih =>
      have hstep := ih (place + 2)
      rw [marked, marked] at hstep
      rw [marked, marked, readings_valued hwide, List.forall_mem_cons]
      cases hmark : mark word with
      | true =>
          have hsame : narrow word = true := by rw [hnarrow, hmark, hwide]; rfl
          simp [readings_valued hsame, hmark, hstep]
      | false =>
          have hsame : narrow word = false := by rw [hnarrow, hmark, Bool.false_and]
          rw [readings_plain hsame]
          cases hvalue : mark value with
          | false =>
              have hskip : narrow value = false := by rw [hnarrow, hvalue, Bool.false_and]
              simp [readings_plain hskip, hmark, hvalue, hstep]
          | true =>
              -- The narrow reader takes the value for an option of its own.
              have hhead : ∃ reading ∈ (readings narrow (place + 1) (value :: rest)).filter
                  (fun reading => mark reading.word), reading.place = place + 1 := by
                cases htakes : narrow value with
                | false => simp [readings_plain htakes, hvalue]
                | true =>
                    cases rest with
                    | nil => simp [readings_last htakes, hvalue]
                    | cons next rest => simp [readings_valued htakes, hvalue]
              obtain ⟨reading, hreading, hplace⟩ := hhead
              constructor
              · intro heq
                simp only [List.filter_cons, hmark, if_false, Bool.false_eq_true] at heq
                rw [heq] at hreading
                have hlate := le_place (List.mem_of_mem_filter hreading)
                omega
              · intro hnone
                have hfree := hnone.1 rfl value rfl
                rw [hvalue] at hfree
                cases hfree

end Readings

theorem bind_eq_ok {first : Except E S} {next : S → Except E S} {final : S} :
    first.bind next = .ok final ↔ ∃ state, first = .ok state ∧ next state = .ok final := by
  cases first with
  | error e => simp [Except.bind]
  | ok state => simp [Except.bind]

/-- What one option does with the word it takes. -/
def Arm.apply : Arm W S E → Option W → S → Except E S
  | .plain set, _, state => set state
  | .valued set, value, state => set value state

section Run

variable {arm : W → Arm W S E} {word value : W} {rest words : List W} {state final : S}

theorem run_plain (htakes : takesValue arm word = false)
    (hok : run arm (word :: rest) state = .ok final) :
    ∃ next, (arm word).apply none state = .ok next ∧ run arm rest next = .ok final := by
  cases harm : arm word with
  | plain set =>
      simp only [run, harm] at hok
      exact bind_eq_ok.mp hok
  | valued set => simp [takesValue, harm, Arm.takes] at htakes

theorem run_last (hok : run arm [word] state = .ok final) :
    (arm word).apply none state = .ok final := by
  cases harm : arm word with
  | plain set =>
      simp only [run, harm] at hok
      obtain ⟨next, hset, hdone⟩ := bind_eq_ok.mp hok
      cases hdone
      exact hset
  | valued set =>
      simp only [run, harm] at hok
      exact hok

theorem run_valued (htakes : takesValue arm word = true)
    (hok : run arm (word :: value :: rest) state = .ok final) :
    ∃ next, (arm word).apply (some value) state = .ok next ∧
      run arm rest next = .ok final := by
  cases harm : arm word with
  | plain set => simp [takesValue, harm, Arm.takes] at htakes
  | valued set =>
      simp only [run, harm] at hok
      exact bind_eq_ok.mp hok

/-- A successful run does each option in its turn: what every option keeps, the run
keeps. -/
theorem run_keeps {P : S → Prop}
    (hkeeps : ∀ word value state next, P state →
      (arm word).apply value state = .ok next → P next)
    (hstart : P state) (hok : run arm words state = .ok final) : P final := by
  induction words using readings_induction (takesValue arm) generalizing state with
  | nil =>
      cases hok
      exact hstart
  | plain word rest htakes ih =>
      obtain ⟨next, hset, hrest⟩ := run_plain htakes hok
      exact ih (hkeeps word none state next hstart hset) hrest
  | last word htakes => exact hkeeps word none state final hstart (run_last hok)
  | valued word value rest htakes ih =>
      obtain ⟨next, hset, hrest⟩ := run_valued htakes hok
      exact ih (hkeeps word (some value) state next hstart hset) hrest

/-- Every option of a successful run was accepted. -/
theorem run_accepts (hok : run arm words state = .ok final) {place : Nat}
    {reading : Reading W} (hreading : reading ∈ readings (takesValue arm) place words) :
    ∃ before after, (arm reading.word).apply reading.value before = .ok after := by
  induction words using readings_induction (takesValue arm) generalizing state place with
  | nil => cases hreading
  | plain word rest htakes ih =>
      rw [readings_plain htakes] at hreading
      obtain ⟨next, hset, hrest⟩ := run_plain htakes hok
      rcases List.mem_cons.mp hreading with rfl | hlater
      · exact ⟨state, next, hset⟩
      · exact ih hrest hlater
  | last word htakes =>
      rw [readings_last htakes, List.mem_singleton] at hreading
      subst hreading
      exact ⟨state, final, run_last hok⟩
  | valued word value rest htakes ih =>
      rw [readings_valued htakes] at hreading
      obtain ⟨next, hset, hrest⟩ := run_valued htakes hok
      rcases List.mem_cons.mp hreading with rfl | hlater
      · exact ⟨state, next, hset⟩
      · exact ih hrest hlater

/-- A part of the state that each option updates by its word alone. -/
theorem run_folds {A : Type*} (part : S → A) (update : A → W → A)
    (hupdate : ∀ word value state next,
      (arm word).apply value state = .ok next → part next = update (part state) word)
    (hok : run arm words state = .ok final) (place : Nat) :
    part final =
      ((readings (takesValue arm) place words).map Reading.word).foldl update
        (part state) := by
  induction words using readings_induction (takesValue arm) generalizing state place with
  | nil =>
      cases hok
      rfl
  | plain word rest htakes ih =>
      obtain ⟨next, hset, hrest⟩ := run_plain htakes hok
      rw [readings_plain htakes, List.map_cons, List.foldl_cons,
        ← hupdate word none state next hset]
      exact ih hrest (place + 1)
  | last word htakes =>
      rw [readings_last htakes]
      exact hupdate word none state final (run_last hok)
  | valued word value rest htakes ih =>
      obtain ⟨next, hset, hrest⟩ := run_valued htakes hok
      rw [readings_valued htakes, List.map_cons, List.foldl_cons,
        ← hupdate word (some value) state next hset]
      exact ih hrest (place + 2)

end Run

end Args
