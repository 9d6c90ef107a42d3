/-
The document of the control center: the edited configuration, the file it belongs to,
and the background transactions that load it, save it or calibrate its sensors.
-/
import Wiiland.Core.ConfigText
import Wiiland.Lib.UnixPath

namespace Wiiland

namespace ControlCenter

inductive TransactionKind where
  | load
  | save
deriving DecidableEq

structure Transaction where
  id : UInt64
  kind : TransactionKind
  revision : UInt64
  target : UnixPath.Path
  captured : List UInt8
deriving DecidableEq

structure CalibrationTransaction where
  id : UInt64
  revision : UInt64
  target : UnixPath.Path
  daemonProgram : String
  captured : Config
deriving DecidableEq

inductive ConfigFailureStage where
  | preparation
  | load
  | parsing
  | validation
  | persistence
  | cancelled
  | worker
deriving DecidableEq

structure ConfigFailure where
  stage : ConfigFailureStage
  message : String
deriving DecidableEq

/-- What a worker completes: it has read a configuration, or it has already persisted
the captured bytes. -/
inductive ConfigValue where
  | loaded (config : Config)
  | saved
deriving DecidableEq

structure Completion where
  id : UInt64
  kind : TransactionKind
  revision : UInt64
  target : UnixPath.Path
  result : Except ConfigFailure ConfigValue

/-- The completion of a transaction. -/
def Completion.new (transaction : Transaction) (result : Except ConfigFailure ConfigValue) :
    Completion :=
  ⟨transaction.id, transaction.kind, transaction.revision, transaction.target, result⟩

inductive ApplyCompletion where
  | applied
  | stale
  | failed
deriving DecidableEq

structure CalibrationResult where
  accel : Option SensorCalibration
  motionPlus : Option SensorCalibration

structure ConfigModel where
  config : Config := {}
  daemonPath : String := "wiilandd"
  configPath : UnixPath.Path
  revision : UInt64 := 0
  dirty : Bool := false
  transaction : Option Transaction := none
  calibrationTransaction : Option CalibrationTransaction := none
  nextTransaction : UInt64 := 0

/-- The characters that Unicode calls white space. -/
def isWhitespace (c : Char) : Bool :=
  decide (9 ≤ c.toNat ∧ c.toNat ≤ 13) || c.toNat == 0x20 || c.toNat == 0x85 ||
  c.toNat == 0xa0 || c.toNat == 0x1680 || decide (0x2000 ≤ c.toNat ∧ c.toNat ≤ 0x200a) ||
  c.toNat == 0x2028 || c.toNat == 0x2029 || c.toNat == 0x202f || c.toNat == 0x205f ||
  c.toNat == 0x3000

def renderConfig (config : Config) : List UInt8 :=
  Text.encode ("# Generated by wiiland-config.\n" ++ dump config).toList

namespace ConfigModel

def daemonProgram (model : ConfigModel) : String :=
  let trimmed := String.ofList (Text.trim isWhitespace model.daemonPath.toList)
  if trimmed = "" then "wiilandd" else trimmed

def markDirty (model : ConfigModel) : ConfigModel :=
  { model with revision := model.revision + 1, dirty := true }

def begin (model : ConfigModel) (kind : TransactionKind) (captured : List UInt8) :
    Option Transaction × ConfigModel :=
  match model.transaction with
  | some _ => (none, model)
  | none =>
      let transaction : Transaction :=
        { id := model.nextTransaction + 1
          kind := kind
          revision := model.revision
          target := model.configPath
          captured := captured }
      (some transaction, { model with
        nextTransaction := model.nextTransaction + 1
        transaction := some transaction })

def beginCalibration (model : ConfigModel) : Option CalibrationTransaction × ConfigModel :=
  match model.calibrationTransaction with
  | some _ => (none, model)
  | none =>
      let transaction : CalibrationTransaction :=
        { id := model.nextTransaction + 1
          revision := model.revision
          target := model.configPath
          daemonProgram := model.daemonProgram
          captured := model.config }
      (some transaction, { model with
        nextTransaction := model.nextTransaction + 1
        calibrationTransaction := some transaction })

def finishCalibration (model : ConfigModel) (transaction : CalibrationTransaction) :
    Bool × ConfigModel :=
  match model.calibrationTransaction with
  | none => (false, model)
  | some active =>
      if active = transaction then
        (decide (model.revision = active.revision ∧ model.configPath = active.target ∧
            model.daemonProgram = active.daemonProgram ∧ model.config = active.captured),
          { model with calibrationTransaction := none })
      else (false, model)

def owns (model : ConfigModel) (completion : Completion) : Bool :=
  model.transaction.any fun active =>
    active.id == completion.id && active.kind == completion.kind &&
      active.revision == completion.revision && active.target == completion.target

/-- Apply the result of the transaction that has just been taken. -/
def apply (model : ConfigModel) (active : Transaction) :
    TransactionKind → Except ConfigFailure ConfigValue → ApplyCompletion × ConfigModel
  | .load, .ok (.loaded config) =>
      if model.revision ≠ active.revision ∨ model.configPath ≠ active.target then
        (.stale, model)
      else (.applied, { model with config := config, dirty := false })
  | .save, .ok .saved =>
      if model.revision = active.revision ∧ model.configPath = active.target then
        (.applied, { model with dirty := false })
      else (.stale, model)
  | _, _ => (.failed, model)

def finish (model : ConfigModel) (completion : Completion) : ApplyCompletion × ConfigModel :=
  match model.transaction with
  | none => (.stale, model)
  | some active =>
      if model.owns completion then
        apply { model with transaction := none } active active.kind completion.result
      else (.stale, model)

def render (model : ConfigModel) : List UInt8 := renderConfig model.config

def setPath (model : ConfigModel) (path : UnixPath.Path) : ConfigModel :=
  if model.configPath ≠ path then
    { model with configPath := path, revision := model.revision + 1 }
  else model

/-- The text field of the daemon's executable has changed. -/
def setDaemonPath (model : ConfigModel) (path : String) : ConfigModel :=
  { model with daemonPath := path, revision := model.revision + 1 }

/-- Change the configuration and mark it. -/
def edit (model : ConfigModel) (config : Config) : ConfigModel :=
  markDirty { model with config := config }

def withCalibration (config : Config) (value : CalibrationResult) : Config :=
  { config with
    aimAccelZero := value.accel <|> config.aimAccelZero
    aimMotionPlusBias := value.motionPlus <|> config.aimMotionPlusBias }

/-- The end of a calibration: whether its values were applied. -/
def completeCalibration (model : ConfigModel) (transaction : CalibrationTransaction)
    (deviceOwned : Bool) (result : Option CalibrationResult) : Bool × ConfigModel :=
  let (modelOwned, later) := model.finishCalibration transaction
  match result with
  | none => (false, later)
  | some value =>
      if !modelOwned || !deviceOwned then (false, later)
      else (true, later.edit (withCalibration later.config value))

/-- The document and the target are as they were when the transaction began, going by
its revision. -/
def Current (model : ConfigModel) (active : Transaction) : Prop :=
  model.revision = active.revision ∧ model.configPath = active.target

/-- What the end of a transaction does. -/
inductive Finished (model : ConfigModel) (completion : Completion) :
    ApplyCompletion × ConfigModel → Prop
  | foreign (hforeign : model.owns completion = false) :
      Finished model completion (.stale, model)
  | loaded (active : Transaction) (config : Config)
      (hactive : model.transaction = some active) (howned : model.owns completion = true)
      (hkind : active.kind = .load) (hcurrent : Current model active) :
      Finished model completion
        (.applied, { model with transaction := none, config := config, dirty := false })
  | saved (active : Transaction)
      (hactive : model.transaction = some active) (howned : model.owns completion = true)
      (hkind : active.kind = .save) (hcurrent : Current model active) :
      Finished model completion (.applied, { model with transaction := none, dirty := false })
  | superseded (active : Transaction)
      (hactive : model.transaction = some active) (howned : model.owns completion = true)
      (hchanged : ¬ Current model active) :
      Finished model completion (.stale, { model with transaction := none })
  | failed (active : Transaction)
      (hactive : model.transaction = some active) (howned : model.owns completion = true) :
      Finished model completion (.failed, { model with transaction := none })

theorem finished_finish (model : ConfigModel) (completion : Completion) :
    Finished model completion (model.finish completion) := by
  cases hactive : model.transaction with
  | none =>
      rw [finish, hactive]
      exact .foreign (by rw [owns, hactive]; rfl)
  | some active =>
      rw [finish, hactive]
      simp only
      split
      · next howned =>
        rcases hkind : active.kind with _ | _ <;>
          rcases hresult : completion.result with error | value
        · exact .failed active hactive howned
        · cases value with
          | saved => exact .failed active hactive howned
          | loaded config =>
              rw [apply]
              split
              · next hchanged =>
                refine .superseded active hactive howned fun hcurrent => ?_
                exact hchanged.elim (fun h => h hcurrent.1) fun h => h hcurrent.2
              · next hcurrent =>
                rw [not_or, not_not, not_not] at hcurrent
                exact .loaded active config hactive howned hkind hcurrent
        · exact .failed active hactive howned
        · cases value with
          | loaded config => exact .failed active hactive howned
          | saved =>
              rw [apply]
              split
              · next hcurrent => exact .saved active hactive howned hkind hcurrent
              · next hchanged => exact .superseded active hactive howned hchanged
      · next hforeign => exact .foreign (Bool.not_eq_true _ ▸ hforeign)

/-- A completion is owned exactly when it names the active transaction. -/
theorem owns_eq_true {model : ConfigModel} {completion : Completion} :
    model.owns completion = true ↔ ∃ active, model.transaction = some active ∧
      active.id = completion.id ∧ active.kind = completion.kind ∧
      active.revision = completion.revision ∧ active.target = completion.target := by
  rw [owns, Option.any_eq_true]
  simp only [Bool.and_eq_true, beq_iff_eq, and_assoc]

theorem finishCalibration_cases (model : ConfigModel)
    (transaction : CalibrationTransaction) :
    model.finishCalibration transaction = (false, model) ∨
      model.calibrationTransaction = some transaction ∧
        model.finishCalibration transaction =
          (decide (model.revision = transaction.revision ∧
              model.configPath = transaction.target ∧
              model.daemonProgram = transaction.daemonProgram ∧
              model.config = transaction.captured),
            { model with calibrationTransaction := none }) := by
  cases hactive : model.calibrationTransaction with
  | none => exact Or.inl (by rw [finishCalibration, hactive])
  | some active =>
      by_cases hsame : active = transaction
      · subst hsame
        exact Or.inr ⟨rfl, by rw [finishCalibration, hactive]; exact if_pos rfl⟩
      · exact Or.inl (by rw [finishCalibration, hactive]; exact if_neg hsame)

end ConfigModel

end ControlCenter

end Wiiland
