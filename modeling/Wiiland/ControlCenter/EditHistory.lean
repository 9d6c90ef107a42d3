/-
Runs of the control center: edits, path changes and the beginnings and ends of
transactions in any order.  No background task undoes an edit it has not seen.
-/
import Wiiland.ControlCenter.ConfigModel
import Mathlib.Data.List.Induction

namespace Wiiland

namespace ControlCenter

/-- A model with what has been done to it: how many changes of the document there were,
how many transactions were begun, which of them have ended, and the model and the
number of changes at the beginning of the last one of each kind. -/
structure History where
  model : ConfigModel
  changes : Nat := 0
  begins : Nat := 0
  begun : List Transaction := []
  ended : List Transaction := []
  opened : Option (ConfigModel × Nat) := none
  calibrating : Option ConfigModel := none

/-- Anything the user or a worker does; a completion may be any value. -/
inductive Step where
  | edit (config : Config)
  | setDaemonPath (path : String)
  | setPath (path : UnixPath.Path)
  | beginLoad
  | beginSave
  | finish (completion : Completion)
  | beginCalibration
  | finishCalibration (transaction : CalibrationTransaction)
  | completeCalibration (transaction : CalibrationTransaction) (deviceOwned : Bool)
      (result : Option CalibrationResult)

namespace History

/-- A load captures nothing, a save the rendered configuration. -/
def begin (history : History) (kind : TransactionKind) (captured : List UInt8) : History :=
  match history.model.begin kind captured with
  | (none, model) => { history with model := model }
  | (some transaction, model) =>
      { history with
        model := model
        begins := history.begins + 1
        begun := history.begun ++ [transaction]
        opened := some (history.model, history.changes) }

def step (history : History) : Step → History
  | .edit config =>
      { history with
        model := history.model.edit config
        changes := history.changes + 1 }
  | .setDaemonPath path =>
      { history with
        model := history.model.setDaemonPath path
        changes := history.changes + 1 }
  | .setPath path =>
      { history with
        model := history.model.setPath path
        changes := if history.model.configPath ≠ path then history.changes + 1
          else history.changes }
  | .beginLoad => history.begin .load []
  | .beginSave => history.begin .save history.model.render
  | .finish completion =>
      { history with
        model := (history.model.finish completion).2
        ended := if history.model.owns completion then
            history.ended ++ history.model.transaction.toList
          else history.ended }
  | .beginCalibration =>
      match history.model.beginCalibration with
      | (none, model) => { history with model := model }
      | (some _, model) =>
          { history with
            model := model
            begins := history.begins + 1
            calibrating := some history.model }
  | .finishCalibration transaction =>
      { history with model := (history.model.finishCalibration transaction).2 }
  | .completeCalibration transaction deviceOwned result =>
      { history with
        model := (history.model.completeCalibration transaction deviceOwned result).2
        changes :=
          if (history.model.completeCalibration transaction deviceOwned result).1 then
            history.changes + 1
          else history.changes }

def run (path : UnixPath.Path) (steps : List Step) : History :=
  steps.foldl step { model := { configPath := path } }

/-- The active transaction was begun on the remembered model and after all that have
ended, and the document is as it was unless a change has been counted since. -/
structure Opened (history : History) (active : Transaction) (base : ConfigModel)
    (count number : Nat) : Prop where
  opened : history.opened = some (base, count)
  revision : active.revision = UInt64.ofNat count
  target : active.target = base.configPath
  captured : active.kind = .save → active.captured = base.render
  counted : count ≤ history.changes
  same : count = history.changes →
    history.model.config = base.config ∧ history.model.configPath = base.configPath
  id : active.id = UInt64.ofNat number
  numbered : number ≤ history.begins
  later : ∀ old ∈ history.ended, ∃ earlier < number, old.id = UInt64.ofNat earlier

/-- The active calibration carries what the remembered model had. -/
structure Calibrating (history : History) (active : CalibrationTransaction)
    (base : ConfigModel) : Prop where
  calibrating : history.calibrating = some base
  revision : active.revision = base.revision
  target : active.target = base.configPath
  daemonProgram : active.daemonProgram = base.daemonProgram
  captured : active.captured = base.config

structure Tracked (history : History) : Prop where
  revision : history.model.revision = UInt64.ofNat history.changes
  ids : history.model.nextTransaction = UInt64.ofNat history.begins
  begun : history.begun = history.ended ++ history.model.transaction.toList
  ended : ∀ old ∈ history.ended, ∃ number ≤ history.begins, old.id = UInt64.ofNat number
  active : ∀ active, history.model.transaction = some active →
    ∃ base count number, Opened history active base count number
  calibration : ∀ active, history.model.calibrationTransaction = some active →
    ∃ base, Calibrating history active base

theorem ofNat_succ (n : Nat) : UInt64.ofNat n + 1 = UInt64.ofNat (n + 1) := by
  rw [UInt64.ofNat_add]
  rfl

theorem ofNat_inj {m n : Nat} (hm : m < 18446744073709551616) (hn : n < 18446744073709551616)
    (hsame : UInt64.ofNat m = UInt64.ofNat n) : m = n := by
  have htoNat := congrArg UInt64.toNat hsame
  rwa [UInt64.toNat_ofNat_of_lt' hm, UInt64.toNat_ofNat_of_lt' hn] at htoNat

namespace Tracked

variable {history : History}

/-- A change of the document: one more is counted, and the transactions stay. -/
theorem changed (htracked : Tracked history) {model : ConfigModel}
    (hrevision : model.revision = history.model.revision + 1)
    (hids : model.nextTransaction = history.model.nextTransaction)
    (htransaction : model.transaction = history.model.transaction)
    (hcalibration : ∀ active, model.calibrationTransaction = some active →
      history.model.calibrationTransaction = some active) :
    Tracked { history with model := model, changes := history.changes + 1 } := by
  refine ⟨?_, hids.trans htracked.ids, ?_, htracked.ended, fun active hactive => ?_,
    fun active hactive => ?_⟩
  · rw [hrevision, htracked.revision, ofNat_succ]
  · rw [htransaction]
    exact htracked.begun
  · obtain ⟨base, count, number, hopened⟩ := htracked.active active (htransaction ▸ hactive)
    exact ⟨base, count, number, hopened.opened, hopened.revision, hopened.target,
      hopened.captured, Nat.le_succ_of_le hopened.counted,
      fun hsame => absurd hopened.counted (by rw [hsame]; exact Nat.not_succ_le_self _),
      hopened.id, hopened.numbered, hopened.later⟩
  · obtain ⟨base, hbase⟩ := htracked.calibration active (hcalibration active hactive)
    exact ⟨base, hbase.calibrating, hbase.revision, hbase.target, hbase.daemonProgram,
      hbase.captured⟩

/-- The end of a transaction, whatever it did to the configuration. -/
theorem closed (htracked : Tracked history) {model : ConfigModel} {active : Transaction}
    (hactive : history.model.transaction = some active)
    (hrevision : model.revision = history.model.revision)
    (hids : model.nextTransaction = history.model.nextTransaction)
    (htransaction : model.transaction = none)
    (hcalibration : model.calibrationTransaction = history.model.calibrationTransaction) :
    Tracked { history with
      model := model
      ended := history.ended ++ history.model.transaction.toList } := by
  refine ⟨hrevision.trans htracked.revision, hids.trans htracked.ids, ?_, ?_,
    fun other hother => ?_, fun calibration hactive => ?_⟩
  · rw [htransaction, Option.toList_none, List.append_nil]
    exact htracked.begun
  · obtain ⟨_, _, number, hopened⟩ := htracked.active active hactive
    rw [hactive, Option.toList_some, List.forall_mem_append, List.forall_mem_singleton]
    exact ⟨htracked.ended, number, hopened.numbered, hopened.id⟩
  · rw [htransaction] at hother
    cases hother
  · obtain ⟨base, hbase⟩ := htracked.calibration calibration (hcalibration ▸ hactive)
    exact ⟨base, hbase.calibrating, hbase.revision, hbase.target, hbase.daemonProgram,
      hbase.captured⟩

theorem finish (htracked : Tracked history) (completion : Completion) :
    Tracked (history.step (.finish completion)) := by
  have hfinished := history.model.finished_finish completion
  rw [step]
  rcases hfinish : history.model.finish completion with ⟨outcome, later⟩
  rw [hfinish] at hfinished
  cases hfinished with
  | foreign hforeign =>
      rw [hforeign]
      exact htracked
  | loaded active config hactive howned hkind hcurrent =>
      rw [howned]
      exact htracked.closed hactive rfl rfl rfl rfl
  | saved active hactive howned hkind hcurrent =>
      rw [howned]
      exact htracked.closed hactive rfl rfl rfl rfl
  | superseded active hactive howned hchanged =>
      rw [howned]
      exact htracked.closed hactive rfl rfl rfl rfl
  | failed active hactive howned =>
      rw [howned]
      exact htracked.closed hactive rfl rfl rfl rfl

theorem begin (htracked : Tracked history) {kind : TransactionKind} {captured : List UInt8}
    (hcaptured : kind = .save → captured = history.model.render) :
    Tracked (history.begin kind captured) := by
  cases hactive : history.model.transaction with
  | some active =>
      have hbegin : history.model.begin kind captured = (none, history.model) := by
        rw [ConfigModel.begin, hactive]
      rw [History.begin, hbegin]
      exact htracked
  | none =>
      have hbegun := htracked.begun
      rw [hactive, Option.toList_none, List.append_nil] at hbegun
      rw [History.begin, ConfigModel.begin, hactive]
      refine ⟨htracked.revision, ?_, ?_, fun old hold => ?_, fun active hbegins => ?_,
        fun active hcalibration => ?_⟩
      · rw [← ofNat_succ, htracked.ids]
      · rw [hbegun]
        rfl
      · obtain ⟨number, hnumber, hid⟩ := htracked.ended old hold
        exact ⟨number, Nat.le_succ_of_le hnumber, hid⟩
      · obtain rfl := Option.some.inj hbegins
        refine ⟨history.model, history.changes, history.begins + 1, rfl, htracked.revision,
          rfl, hcaptured, Nat.le_refl _, fun _ => ⟨rfl, rfl⟩, ?_, Nat.le_refl _,
          fun old hold => ?_⟩
        · rw [htracked.ids, ofNat_succ]
        · obtain ⟨number, hnumber, hid⟩ := htracked.ended old hold
          exact ⟨number, Nat.lt_succ_of_le hnumber, hid⟩
      · obtain ⟨base, hbase⟩ := htracked.calibration active hcalibration
        exact ⟨base, hbase.calibrating, hbase.revision, hbase.target, hbase.daemonProgram,
          hbase.captured⟩

theorem beginCalibration (htracked : Tracked history) :
    Tracked (history.step .beginCalibration) := by
  cases hactive : history.model.calibrationTransaction with
  | some active =>
      have hbegin : history.model.beginCalibration = (none, history.model) := by
        rw [ConfigModel.beginCalibration, hactive]
      rw [step, hbegin]
      exact htracked
  | none =>
      rw [step, ConfigModel.beginCalibration, hactive]
      refine ⟨htracked.revision, ?_, htracked.begun, fun old hold => ?_,
        fun active hbegins => ?_, fun active hcalibration => ?_⟩
      · rw [← ofNat_succ, htracked.ids]
      · obtain ⟨number, hnumber, hid⟩ := htracked.ended old hold
        exact ⟨number, Nat.le_succ_of_le hnumber, hid⟩
      · obtain ⟨base, count, number, hopened⟩ := htracked.active active hbegins
        exact ⟨base, count, number, hopened.opened, hopened.revision, hopened.target,
          hopened.captured, hopened.counted, hopened.same, hopened.id,
          Nat.le_succ_of_le hopened.numbered, hopened.later⟩
      · obtain rfl := Option.some.inj hcalibration
        exact ⟨history.model, rfl, rfl, rfl, rfl, rfl⟩

/-- The end of a calibration leaves the document alone. -/
theorem finishCalibration (htracked : Tracked history)
    (transaction : CalibrationTransaction) :
    Tracked (history.step (.finishCalibration transaction)) := by
  rw [step]
  rcases history.model.finishCalibration_cases transaction with hkept | ⟨_, htaken⟩
  · rw [hkept]
    exact htracked
  · rw [htaken]
    refine ⟨htracked.revision, htracked.ids, htracked.begun, htracked.ended,
      fun active hactive => ?_, fun active hactive => by cases hactive⟩
    obtain ⟨base, count, number, hopened⟩ := htracked.active active hactive
    exact ⟨base, count, number, hopened.opened, hopened.revision, hopened.target,
      hopened.captured, hopened.counted, hopened.same, hopened.id, hopened.numbered,
      hopened.later⟩

theorem completeCalibration (htracked : Tracked history)
    (transaction : CalibrationTransaction) (deviceOwned : Bool)
    (result : Option CalibrationResult) :
    Tracked (history.step (.completeCalibration transaction deviceOwned result)) := by
  have hfinished := htracked.finishCalibration transaction
  rw [step] at hfinished
  rw [step]
  rcases hfinish : history.model.finishCalibration transaction with ⟨owned, later⟩
  rw [hfinish] at hfinished
  cases result with
  | none =>
      rw [ConfigModel.completeCalibration, hfinish]
      exact hfinished
  | some value =>
      rw [ConfigModel.completeCalibration, hfinish]
      simp only
      split
      · exact hfinished
      · exact hfinished.changed rfl rfl rfl fun _ hactive => hactive

theorem setPath (htracked : Tracked history) (path : UnixPath.Path) :
    Tracked (history.step (.setPath path)) := by
  rw [step, ConfigModel.setPath]
  by_cases hsame : history.model.configPath ≠ path
  · rw [if_pos hsame, if_pos hsame]
    exact htracked.changed rfl rfl rfl fun _ hactive => hactive
  · rw [if_neg hsame, if_neg hsame]
    exact htracked

theorem step (htracked : Tracked history) (next : Step) : Tracked (history.step next) := by
  cases next with
  | edit config => exact htracked.changed rfl rfl rfl fun _ hactive => hactive
  | setDaemonPath path => exact htracked.changed rfl rfl rfl fun _ hactive => hactive
  | setPath path => exact htracked.setPath path
  | beginLoad => exact htracked.begin fun hkind => by cases hkind
  | beginSave => exact htracked.begin fun _ => rfl
  | finish completion => exact htracked.finish completion
  | beginCalibration => exact htracked.beginCalibration
  | finishCalibration transaction => exact htracked.finishCalibration transaction
  | completeCalibration transaction deviceOwned result =>
      exact htracked.completeCalibration transaction deviceOwned result

end Tracked

theorem tracked_run (path : UnixPath.Path) (steps : List Step) : Tracked (run path steps) := by
  induction steps using List.reverseRecOn with
  | nil =>
      exact ⟨rfl, rfl, rfl, fun _ hold => absurd hold List.not_mem_nil,
        fun _ hactive => (by cases hactive), fun _ hactive => (by cases hactive)⟩
  | append_singleton steps next ih =>
      rw [run, List.foldl_concat, ← run]
      exact ih.step next

/-- Nothing has changed the document since the last load or save began on `base`. -/
def UnchangedSince (history : History) (base : ConfigModel) : Prop :=
  history.opened = some (base, history.changes) ∧
    history.model.config = base.config ∧ history.model.configPath = base.configPath

/-- What the control center promises of a state it has reached. -/
structure KeepsEdits (history : History) : Prop where
  /-- A completion that is not applied changes neither the configuration nor the flag. -/
  unapplied : ∀ completion, (history.model.finish completion).1 ≠ .applied →
    (history.model.finish completion).2.config = history.model.config ∧
      (history.model.finish completion).2.dirty = history.model.dirty
  /-- A foreign completion changes nothing at all. -/
  foreign : ∀ completion, history.model.owns completion = false →
    history.model.finish completion = (.stale, history.model)
  /-- A completion of a transaction that has ended is foreign. -/
  stale : ∀ old ∈ history.ended, ∀ result,
    history.model.owns (Completion.new old result) = false
  /-- A load replaces the configuration only on an unchanged document. -/
  load : ∀ completion, (history.model.finish completion).1 = .applied →
    completion.kind = .load → ∃ base, UnchangedSince history base
  /-- A save is applied only when what it captured is what the document renders to. -/
  save : ∀ completion, (history.model.finish completion).1 = .applied →
    completion.kind = .save → ∃ active, history.model.transaction = some active ∧
      history.model.render = active.captured ∧ history.model.configPath = active.target ∧
      (history.model.finish completion).2.config = history.model.config
  /-- Of the loads and saves begun only the active one has not ended. -/
  single : history.begun = history.ended ++ history.model.transaction.toList
  busy : history.model.transaction ≠ none → ∀ kind captured,
    history.model.begin kind captured = (none, history.model)
  calibrating : history.model.calibrationTransaction ≠ none →
    history.model.beginCalibration = (none, history.model)
  /-- A calibration is accepted only on the document and the program it began with. -/
  calibration : ∀ transaction, (history.model.finishCalibration transaction).1 = true →
    ∃ base, history.calibrating = some base ∧ history.model.revision = base.revision ∧
      history.model.configPath = base.configPath ∧
      history.model.daemonProgram = base.daemonProgram ∧
      history.model.config = base.config

theorem Tracked.unchangedSince {history : History} (htracked : Tracked history)
    (hchanges : history.changes < 18446744073709551616) {active : Transaction}
    (hactive : history.model.transaction = some active)
    (hcurrent : history.model.Current active) :
    ∃ base, UnchangedSince history base ∧
      (active.kind = .save → active.captured = base.render) := by
  obtain ⟨base, count, number, hopened⟩ := htracked.active active hactive
  have hrevision := hcurrent.1
  rw [htracked.revision, hopened.revision] at hrevision
  have hcount : count = history.changes :=
    (ofNat_inj hchanges (Nat.lt_of_le_of_lt hopened.counted hchanges) hrevision).symm
  subst hcount
  exact ⟨base, ⟨hopened.opened, hopened.same rfl⟩, hopened.captured⟩

/-- In every run whose counters do not wrap, no background task overwrites an edit it
has not seen or marks it as saved. -/
theorem run_keepsEdits (path : UnixPath.Path) (steps : List Step)
    (hchanges : (run path steps).changes < 18446744073709551616)
    (hbegins : (run path steps).begins < 18446744073709551616) :
    KeepsEdits (run path steps) := by
  have htracked := tracked_run path steps
  generalize run path steps = history at hchanges hbegins htracked ⊢
  refine ⟨fun completion hunapplied => ?_, fun completion hforeign => ?_,
    fun old hold result => ?_, fun completion happlied hkind => ?_,
    fun completion happlied hkind => ?_, htracked.begun, fun hbusy kind captured => ?_,
    fun hbusy => ?_, fun transaction haccepted => ?_⟩
  · have hfinished := history.model.finished_finish completion
    generalize history.model.finish completion = outcome at hfinished hunapplied ⊢
    cases hfinished with
    | loaded => exact absurd rfl hunapplied
    | saved => exact absurd rfl hunapplied
    | _ => exact ⟨rfl, rfl⟩
  · have hfinished := history.model.finished_finish completion
    generalize history.model.finish completion = outcome at hfinished ⊢
    cases hfinished with
    | foreign => rfl
    | loaded active config hactive howned => rw [hforeign] at howned; cases howned
    | saved active hactive howned => rw [hforeign] at howned; cases howned
    | superseded active hactive howned => rw [hforeign] at howned; cases howned
    | failed active hactive howned => rw [hforeign] at howned; cases howned
  · rw [← Bool.not_eq_true, ConfigModel.owns_eq_true]
    rintro ⟨active, hactive, hid, _⟩
    obtain ⟨base, count, number, hopened⟩ := htracked.active active hactive
    obtain ⟨earlier, hearlier, hold⟩ := hopened.later old hold
    rw [hopened.id, Completion.new, hold] at hid
    have hnumber := Nat.lt_of_le_of_lt hopened.numbered hbegins
    have hsame := ofNat_inj hnumber (Nat.lt_trans hearlier hnumber) hid
    omega
  · have hfinished := history.model.finished_finish completion
    generalize history.model.finish completion = outcome at hfinished happlied ⊢
    cases hfinished with
    | loaded active config hactive howned hload hcurrent =>
        obtain ⟨base, hbase, _⟩ := htracked.unchangedSince hchanges hactive hcurrent
        exact ⟨base, hbase⟩
    | saved active hactive howned hsave hcurrent =>
        obtain ⟨other, hother, _, hsame, _⟩ := ConfigModel.owns_eq_true.mp howned
        rw [hactive] at hother
        rw [Option.some.inj hother, hsame, hkind] at hsave
        cases hsave
    | _ => cases happlied
  · have hfinished := history.model.finished_finish completion
    generalize history.model.finish completion = outcome at hfinished happlied ⊢
    cases hfinished with
    | saved active hactive howned hsave hcurrent =>
        obtain ⟨base, hbase, hcaptured⟩ := htracked.unchangedSince hchanges hactive hcurrent
        refine ⟨active, hactive, ?_, hcurrent.2, rfl⟩
        rw [hcaptured hsave, ConfigModel.render, hbase.2.1, ConfigModel.render]
    | loaded active config hactive howned hload hcurrent =>
        obtain ⟨other, hother, _, hsame, _⟩ := ConfigModel.owns_eq_true.mp howned
        rw [hactive] at hother
        rw [Option.some.inj hother, hsame, hkind] at hload
        cases hload
    | _ => cases happlied
  · cases hactive : history.model.transaction with
    | none => exact absurd hactive hbusy
    | some active => rw [ConfigModel.begin, hactive]
  · cases hactive : history.model.calibrationTransaction with
    | none => exact absurd hactive hbusy
    | some active => rw [ConfigModel.beginCalibration, hactive]
  · rcases history.model.finishCalibration_cases transaction with hkept | ⟨hactive, htaken⟩
    · rw [hkept] at haccepted
      cases haccepted
    · rw [htaken] at haccepted
      obtain ⟨hrevision, htarget, hprogram, hconfig⟩ := of_decide_eq_true haccepted
      obtain ⟨base, hbase⟩ := htracked.calibration transaction hactive
      exact ⟨base, hbase.calibrating, hrevision.trans hbase.revision,
        htarget.trans hbase.target, hprogram.trans hbase.daemonProgram,
        hconfig.trans hbase.captured⟩

/-- An edit after the beginning of a save. -/
def editedSave : List Step :=
  [.edit { pointerSpeed := 20 }, .beginSave, .edit { pointerSpeed := 21 }]

theorem run_keepsEdits_edited : KeepsEdits (run (UnixPath.ofBytes [47]) editedSave) :=
  run_keepsEdits _ _ (by decide) (by decide)

end History

end ControlCenter

end Wiiland
