/-
Programs that call a system which others are using too.  Before each call, and after
the last, any number of the others' actions may take place.
-/
import Mathlib.Logic.Relation

namespace Interference

variable {Call : Type} {Answer : Call → Type} {State α β ε : Type}

/-- A program by its calls: what it does next depends on the answer alone. -/
inductive Prog (Call : Type) (Answer : Call → Type) (α : Type) where
  | done (result : α)
  | call (request : Call) (next : Answer request → Prog Call Answer α)

namespace Prog

/-- Run one program and go on with its result. -/
def bind : Prog Call Answer α → (α → Prog Call Answer β) → Prog Call Answer β
  | done result, rest => rest result
  | call request next, rest => call request fun answer => (next answer).bind rest

instance : Monad (Prog Call Answer) where
  pure := done
  bind := bind

/-- One call and nothing else. -/
def perform (request : Call) : Prog Call Answer (Answer request) := call request done

/-- Every call of the program, whatever it is answered, is of the given kind. -/
def Within (kind : Call → Prop) : Prog Call Answer α → Prop
  | done _ => True
  | call request next => kind request ∧ ∀ answer, (next answer).Within kind

end Prog

/-- The result of a fallible program as a value. -/
def attempt (program : ExceptT ε (Prog Call Answer) α) :
    ExceptT ε (Prog Call Answer) (Except ε α) :=
  Prog.bind program fun result => .done (.ok result)

/-- What the others may do, and what the system may answer to a call. -/
structure System (Call : Type) (Answer : Call → Type) (State : Type) where
  others : State → State → Prop
  answers : State → (request : Call) → Answer request → State → Prop

/-- A call with its answer and the states around it. -/
structure Event (Call : Type) (Answer : Call → Type) (State : Type) where
  before : State
  request : Call
  answer : Answer request
  after : State

/-- The runs of a program: the calls it made, its result and the last state. -/
inductive Runs (system : System Call Answer State) {α : Type} :
    Prog Call Answer α → State → List (Event Call Answer State) → α → State → Prop
  | done {result : α} {state after : State}
      (hothers : Relation.ReflTransGen system.others state after) :
      Runs system (.done result) state [] result after
  | call {request : Call} {next : Answer request → Prog Call Answer α}
      {state before middle after : State} {answer : Answer request}
      {log : List (Event Call Answer State)} {result : α}
      (hothers : Relation.ReflTransGen system.others state before)
      (hanswers : system.answers before request answer middle)
      (hruns : Runs system (next answer) middle log result after) :
      Runs system (.call request next) state (⟨before, request, answer, middle⟩ :: log)
        result after

variable {system : System Call Answer State} {state after : State}
  {log : List (Event Call Answer State)}

theorem Runs.after_others {program : Prog Call Answer α} {earlier : State} {result : α}
    (hruns : Runs system program state log result after)
    (hothers : Relation.ReflTransGen system.others earlier state) :
    Runs system program earlier log result after := by
  cases hruns with
  | done hlater => exact .done (hothers.trans hlater)
  | call hlater hanswers hrest => exact .call (hothers.trans hlater) hanswers hrest

theorem Runs.before_others {program : Prog Call Answer α} {later : State} {result : α}
    (hruns : Runs system program state log result after)
    (hothers : Relation.ReflTransGen system.others after later) :
    Runs system program state log result later := by
  induction hruns with
  | done hearlier => exact .done (hearlier.trans hothers)
  | call hearlier hanswers _ ih => exact .call hearlier hanswers (ih hothers)

theorem runs_done {value result : α} :
    Runs system (.done value) state log result after ↔
      log = [] ∧ result = value ∧ Relation.ReflTransGen system.others state after := by
  constructor
  · intro hruns
    cases hruns with
    | done hothers => exact ⟨rfl, rfl, hothers⟩
  · rintro ⟨rfl, rfl, hothers⟩
    exact .done hothers

theorem runs_bind {program : Prog Call Answer α} {rest : α → Prog Call Answer β} {result : β} :
    Runs system (program.bind rest) state log result after ↔
      ∃ value middle first second, Runs system program state first value middle ∧
        Runs system (rest value) middle second result after ∧ log = first ++ second := by
  constructor
  · intro hruns
    induction program generalizing state log with
    | done value =>
        exact ⟨value, state, [], log, .done .refl, hruns, rfl⟩
    | call request next ih =>
        cases hruns with
        | @call _ _ _ before reached _ answer tail _ hothers hanswers hrest =>
            obtain ⟨value, middle, first, second, hfirst, hsecond, rfl⟩ := ih answer hrest
            exact ⟨value, middle, _ :: first, second, .call hothers hanswers hfirst,
              hsecond, rfl⟩
  · rintro ⟨value, middle, first, second, hfirst, hsecond, rfl⟩
    induction hfirst with
    | done hothers => exact hsecond.after_others hothers
    | call hothers hanswers _ ih => exact .call hothers hanswers (ih hsecond)

theorem runs_perform {request : Call} {answer : Answer request} :
    Runs system (.perform request) state log answer after ↔
      ∃ before middle, Relation.ReflTransGen system.others state before ∧
        system.answers before request answer middle ∧
        Relation.ReflTransGen system.others middle after ∧
        log = [⟨before, request, answer, middle⟩] := by
  constructor
  · intro hruns
    cases hruns with
    | @call _ _ _ before middle _ answer tail _ hothers hanswers hrest =>
        obtain ⟨rfl, rfl, hlater⟩ := runs_done.mp hrest
        exact ⟨before, middle, hothers, hanswers, hlater, rfl⟩
  · rintro ⟨before, middle, hothers, hanswers, hlater, rfl⟩
    exact .call hothers hanswers (.done hlater)

section fallible

variable {program : ExceptT ε (Prog Call Answer) α}

theorem runs_pure {value : α} {result : Except ε α} :
    Runs system (pure value : ExceptT ε (Prog Call Answer) α) state log result after ↔
      log = [] ∧ result = .ok value ∧ Relation.ReflTransGen system.others state after :=
  runs_done

theorem runs_throw {error : ε} {result : Except ε α} :
    Runs system (throw error : ExceptT ε (Prog Call Answer) α) state log result after ↔
      log = [] ∧ result = .error error ∧ Relation.ReflTransGen system.others state after :=
  runs_done

/-- A fallible program goes on only when its first part succeeds. -/
theorem runs_andThen {rest : α → ExceptT ε (Prog Call Answer) β} {result : Except ε β} :
    Runs system (program >>= rest : ExceptT ε (Prog Call Answer) β) state log result after ↔
      (∃ value middle first second, Runs system program state first (.ok value) middle ∧
        Runs system (rest value) middle second result after ∧ log = first ++ second) ∨
      ∃ error, Runs system program state log (.error error) after ∧ result = .error error := by
  constructor
  · intro hruns
    obtain ⟨value, middle, first, second, hfirst, hsecond, rfl⟩ := runs_bind.mp hruns
    cases value with
    | ok value => exact .inl ⟨value, middle, first, second, hfirst, hsecond, rfl⟩
    | error error =>
        obtain ⟨rfl, rfl, hothers⟩ := runs_done.mp hsecond
        rw [List.append_nil]
        exact .inr ⟨error, hfirst.before_others hothers, rfl⟩
  · rintro (⟨value, middle, first, second, hfirst, hsecond, rfl⟩ | ⟨error, hfirst, rfl⟩)
    · exact runs_bind.mpr ⟨.ok value, middle, first, second, hfirst, hsecond, rfl⟩
    · exact runs_bind.mpr
        ⟨.error error, after, log, [], hfirst, .done .refl, (List.append_nil log).symm⟩

theorem runs_attempt {result : Except ε (Except ε α)} :
    Runs system (attempt program) state log result after ↔
      ∃ value, Runs system program state log value after ∧ result = .ok value := by
  constructor
  · intro hruns
    obtain ⟨value, middle, first, second, hfirst, hsecond, rfl⟩ := runs_bind.mp hruns
    obtain ⟨rfl, rfl, hothers⟩ := runs_done.mp hsecond
    rw [List.append_nil]
    exact ⟨value, hfirst.before_others hothers, rfl⟩
  · rintro ⟨value, hfirst, rfl⟩
    exact runs_bind.mpr
      ⟨value, after, log, [], hfirst, .done .refl, (List.append_nil log).symm⟩

end fallible

section within

variable {kind : Call → Prop}

theorem within_bind {program : Prog Call Answer α} {rest : α → Prog Call Answer β}
    (hprogram : program.Within kind) (hrest : ∀ value, (rest value).Within kind) :
    (program.bind rest).Within kind := by
  induction program with
  | done value => exact hrest value
  | call request next ih => exact ⟨hprogram.1, fun answer => ih answer (hprogram.2 answer)⟩

theorem within_perform {request : Call} (hkind : kind request) :
    (Prog.perform request : Prog Call Answer (Answer request)).Within kind :=
  ⟨hkind, fun _ => trivial⟩

theorem within_pure {value : α} :
    Prog.Within kind (pure value : ExceptT ε (Prog Call Answer) α) := trivial

theorem within_throw {error : ε} :
    Prog.Within kind (throw error : ExceptT ε (Prog Call Answer) α) := trivial

theorem within_andThen {program : ExceptT ε (Prog Call Answer) α}
    {rest : α → ExceptT ε (Prog Call Answer) β}
    (hprogram : Prog.Within kind program) (hrest : ∀ value, Prog.Within kind (rest value)) :
    Prog.Within kind (program >>= rest : ExceptT ε (Prog Call Answer) β) := by
  refine within_bind hprogram fun value => ?_
  cases value with
  | ok value => exact hrest value
  | error error => trivial

theorem within_attempt {program : ExceptT ε (Prog Call Answer) α}
    (hprogram : Prog.Within kind program) : Prog.Within kind (attempt program) :=
  within_bind hprogram fun _ => trivial

theorem Runs.within {program : Prog Call Answer α} {result : α}
    (hruns : Runs system program state log result after) (hwithin : program.Within kind) :
    ∀ event ∈ log, kind event.request := by
  induction hruns with
  | done _ => simp
  | call _ _ _ ih =>
      intro event hevent
      rcases List.mem_cons.mp hevent with rfl | hevent
      · exact hwithin.1
      · exact ih (hwithin.2 _) event hevent

end within

/-- What holds of every event and of those before it. -/
def Each {Event : Type} (property : List Event → Event → Prop) (log : List Event) : Prop :=
  ∀ before event after, log = before ++ event :: after → property before event

theorem each_append {Event : Type} {property : List Event → Event → Prop}
    {first second : List Event} :
    Each property (first ++ second) ↔
      Each property first ∧ Each (fun before => property (first ++ before)) second := by
  constructor
  · intro heach
    refine ⟨fun before event after hfirst => heach before event (after ++ second) ?_,
      fun before event after hsecond => heach (first ++ before) event after ?_⟩
    · rw [hfirst, List.append_assoc, List.cons_append]
    · rw [hsecond, List.append_assoc]
  · rintro ⟨hfirst, hsecond⟩ before event after hlog
    rcases List.append_eq_append_iff.mp hlog with
      ⟨between, hbefore, hrest⟩ | ⟨between, hbefore, hrest⟩
    · rw [hbefore]
      exact hsecond between event after hrest
    · cases between with
      | nil =>
          rw [List.append_nil] at hbefore
          rw [List.nil_append] at hrest
          rw [← hbefore, ← List.append_nil first]
          exact hsecond [] event after hrest.symm
      | cons head tail =>
          rw [List.cons_append, List.cons.injEq] at hrest
          obtain ⟨rfl, hrest⟩ := hrest
          exact hfirst before event tail hbefore

theorem each_of_forall {Event : Type} {property : List Event → Event → Prop}
    {log : List Event} (hforall : ∀ before, ∀ event ∈ log, property before event) :
    Each property log := by
  rintro before event after rfl
  exact hforall before event (by simp)

end Interference
