/-
Input payloads on the wire.  The serializer of a payload is derived from its
definition, the deserializer is a table of tags written by hand; reading what was
written gives the payload back.
-/
import Wiiland.Ipc.Protocol

namespace Wiiland

namespace Ipc

/-- A JSON value. -/
inductive Json where
  | null
  | bool (value : Bool)
  | number (value : Int)
  | string (value : String)
  | array (items : List Json)
  | object (fields : List (String × Json))

/-- The value of a named field; a missing field and another kind of value have none. -/
def Json.field (name : String) : Json → Option Json
  | .object fields => fields.lookup name
  | _ => none

/-- An optional field, where `null` counts as missing. -/
def Json.optional (name : String) (json : Json) : Option Json :=
  match json.field name with
  | some .null => none
  | value => value

def Json.readString : Json → Option String
  | .string value => some value
  | _ => none

def Json.writeU32 (value : UInt32) : Json := .number value.toNat

def Json.readU32 : Json → Option UInt32
  | .number value =>
      if 0 ≤ value ∧ value < 0x100000000 then some (.ofNat value.toNat) else none
  | _ => none

def Json.writeI32 (value : Int32) : Json := .number value.toInt

def Json.readI32 : Json → Option Int32
  | .number value =>
      if -0x80000000 ≤ value ∧ value < 0x80000000 then some (.ofInt value) else none
  | _ => none

@[simp] theorem Json.readU32_writeU32 (value : UInt32) :
    readU32 (writeU32 value) = some value := by
  have hlt := value.toNat_lt
  have hrange : (0 : Int) ≤ value.toNat ∧ (value.toNat : Int) < 0x100000000 := by omega
  rw [writeU32, readU32, if_pos hrange, Int.toNat_natCast, UInt32.ofNat_toNat]

@[simp] theorem Json.readI32_writeI32 (value : Int32) :
    readI32 (writeI32 value) = some value := by
  have hlow := value.le_toInt
  have hhigh := value.toInt_lt
  have hrange : -0x80000000 ≤ value.toInt ∧ value.toInt < 0x80000000 := by omega
  rw [writeI32, readI32, if_pos hrange, Int32.ofInt_toInt]

def ButtonEvent.toJson (event : ButtonEvent) : Json :=
  .object [("code", .writeU32 event.code), ("state", .writeU32 event.state)]

def ButtonEvent.fromJson (json : Json) : Option ButtonEvent := do
  let code ← (json.field "code").bind Json.readU32
  let state ← (json.field "state").bind Json.readU32
  pure ⟨code, state⟩

@[simp] theorem ButtonEvent.fromJson_toJson (event : ButtonEvent) :
    fromJson event.toJson = some event := by
  have hcode : event.toJson.field "code" = some (.writeU32 event.code) := rfl
  have hstate : event.toJson.field "state" = some (.writeU32 event.state) := rfl
  rw [fromJson, hcode, hstate, Option.bind_some, Option.bind_some, Json.readU32_writeU32,
    Json.readU32_writeU32]
  rfl

def Axis3.toJson (value : Axis3) : Json :=
  .object [("x", .writeI32 value.x), ("y", .writeI32 value.y), ("z", .writeI32 value.z)]

def Axis3.fromJson (json : Json) : Option Axis3 := do
  let x ← (json.field "x").bind Json.readI32
  let y ← (json.field "y").bind Json.readI32
  let z ← (json.field "z").bind Json.readI32
  pure ⟨x, y, z⟩

@[simp] theorem Axis3.fromJson_toJson (value : Axis3) :
    fromJson value.toJson = some value := by
  have hx : value.toJson.field "x" = some (.writeI32 value.x) := rfl
  have hy : value.toJson.field "y" = some (.writeI32 value.y) := rfl
  have hz : value.toJson.field "z" = some (.writeI32 value.z) := rfl
  rw [fromJson, hx, hy, hz, Option.bind_some, Option.bind_some, Option.bind_some,
    Json.readI32_writeI32, Json.readI32_writeI32, Json.readI32_writeI32]
  rfl

/-- An array type of the source: exactly so many axes. -/
def writeAxes {n : Nat} (axes : Vector Axis3 n) : Json :=
  .array (axes.toList.map Axis3.toJson)

def readAxes (n : Nat) : Json → Option (Vector Axis3 n)
  | .array items =>
      (items.mapM Axis3.fromJson).bind fun axes =>
        if hlength : axes.length = n then some ⟨axes.toArray, hlength⟩ else none
  | _ => none

@[simp] theorem readAxes_writeAxes {n : Nat} (axes : Vector Axis3 n) :
    readAxes n (writeAxes axes) = some axes := by
  have hitems : (axes.toList.map Axis3.toJson).mapM Axis3.fromJson = some axes.toList := by
    induction axes.toList with
    | nil => rfl
    | cons head tail ih => simp [List.mapM_cons, ih]
  rw [writeAxes, readAxes, hitems]
  simp [Vector.toList]

/-- An adjacently tagged value: its tag and, for a tuple variant, its content. -/
structure TaggedPayload where
  kind : String
  value : Option Json

namespace TaggedPayload

def toJson (tagged : TaggedPayload) : Json :=
  .object <| ("type", .string tagged.kind) ::
    match tagged.value with
    | some value => [("value", value)]
    | none => []

/-- The derived reader of the helper struct. -/
def fromJson (json : Json) : Option TaggedPayload := do
  let kind ← (json.field "type").bind Json.readString
  pure ⟨kind, json.optional "value"⟩

theorem fromJson_toJson {tagged : TaggedPayload} (hvalue : tagged.value ≠ some .null) :
    fromJson tagged.toJson = some tagged := by
  rcases tagged with ⟨kind, value⟩
  cases value with
  | none => simp [toJson, fromJson, Json.field, Json.optional, Json.readString, List.lookup_cons]
  | some value =>
      cases value <;>
        simp_all [toJson, fromJson, Json.field, Json.optional, Json.readString, List.lookup_cons]

end TaggedPayload

/-- Why a payload is refused: a missing field, a value of the wrong shape, or a
text of the reader's own. -/
inductive PayloadError where
  | missingField (name : String)
  | invalidValue
  | custom (text : String)
deriving DecidableEq

def decodeInputValue {A : Type} (read : Json → Option A) (wrap : A → InputPayload) :
    Option Json → Except PayloadError InputPayload
  | none => .error (.missingField "value")
  | some value =>
      match read value with
      | none => .error .invalidValue
      | some content => .ok (wrap content)

theorem decodeInputValue_some {A : Type} {read : Json → Option A}
    (wrap : A → InputPayload) {value : Json} {content : A}
    (hread : read value = some content) :
    decodeInputValue read wrap (some value) = .ok (wrap content) := by
  rw [decodeInputValue, hread]

def decodeUnitInput (payload : InputPayload) :
    Option Json → Except PayloadError InputPayload
  | some _ => .error (.custom "unexpected value for unit input payload")
  | none => .ok payload

namespace InputPayload

/-- The derived serializer. -/
def serialize : InputPayload → TaggedPayload
  | .key event => ⟨"key", some event.toJson⟩
  | .accel value => ⟨"accel", some value.toJson⟩
  | .ir points => ⟨"ir", some (writeAxes points)⟩
  | .balanceBoard sensors => ⟨"balance_board", some (writeAxes sensors)⟩
  | .motionPlus value => ⟨"motion_plus", some value.toJson⟩
  | .proControllerKey event => ⟨"pro_controller_key", some event.toJson⟩
  | .proControllerMove sticks => ⟨"pro_controller_move", some (writeAxes sticks)⟩
  | .watch => ⟨"watch", none⟩
  | .classicControllerKey event => ⟨"classic_controller_key", some event.toJson⟩
  | .classicControllerMove slots => ⟨"classic_controller_move", some (writeAxes slots)⟩
  | .nunchukKey event => ⟨"nunchuk_key", some event.toJson⟩
  | .nunchukMove slots => ⟨"nunchuk_move", some (writeAxes slots)⟩
  | .drumsKey event => ⟨"drums_key", some event.toJson⟩
  | .drumsMove slots => ⟨"drums_move", some (writeAxes slots)⟩
  | .guitarKey event => ⟨"guitar_key", some event.toJson⟩
  | .guitarMove slots => ⟨"guitar_move", some (writeAxes slots)⟩
  | .gone => ⟨"gone", none⟩
  | .unknown value => ⟨"unknown", some (.writeU32 value)⟩
  | .unsupported => ⟨"unsupported", none⟩

/-- The reader by tag; a tag it does not know is the sentinel. -/
def deserialize (tagged : TaggedPayload) : Except PayloadError InputPayload :=
  let value := tagged.value
  match tagged.kind with
  | "key" => decodeInputValue ButtonEvent.fromJson .key value
  | "accel" => decodeInputValue Axis3.fromJson .accel value
  | "ir" => decodeInputValue (readAxes 4) .ir value
  | "balance_board" => decodeInputValue (readAxes 4) .balanceBoard value
  | "motion_plus" => decodeInputValue Axis3.fromJson .motionPlus value
  | "pro_controller_key" => decodeInputValue ButtonEvent.fromJson .proControllerKey value
  | "pro_controller_move" => decodeInputValue (readAxes 2) .proControllerMove value
  | "watch" => decodeUnitInput .watch value
  | "classic_controller_key" =>
      decodeInputValue ButtonEvent.fromJson .classicControllerKey value
  | "classic_controller_move" => decodeInputValue (readAxes 3) .classicControllerMove value
  | "nunchuk_key" => decodeInputValue ButtonEvent.fromJson .nunchukKey value
  | "nunchuk_move" => decodeInputValue (readAxes 2) .nunchukMove value
  | "drums_key" => decodeInputValue ButtonEvent.fromJson .drumsKey value
  | "drums_move" => decodeInputValue (readAxes 8) .drumsMove value
  | "guitar_key" => decodeInputValue ButtonEvent.fromJson .guitarKey value
  | "guitar_move" => decodeInputValue (readAxes 3) .guitarMove value
  | "gone" => decodeUnitInput .gone value
  | "unknown" => decodeInputValue Json.readU32 .unknown value
  | _ => .ok .unsupported

def toJson (payload : InputPayload) : Json := payload.serialize.toJson

def fromJson (json : Json) : Except PayloadError InputPayload :=
  match TaggedPayload.fromJson json with
  | none => .error (.missingField "type")
  | some tagged => deserialize tagged

theorem deserialize_serialize (payload : InputPayload) :
    deserialize payload.serialize = .ok payload := by
  cases payload <;> simp only [serialize, deserialize, decodeUnitInput]
  case key event => exact decodeInputValue_some .key event.fromJson_toJson
  case accel value => exact decodeInputValue_some .accel value.fromJson_toJson
  case ir points => exact decodeInputValue_some .ir (readAxes_writeAxes points)
  case balanceBoard sensors =>
    exact decodeInputValue_some .balanceBoard (readAxes_writeAxes sensors)
  case motionPlus value => exact decodeInputValue_some .motionPlus value.fromJson_toJson
  case proControllerKey event =>
    exact decodeInputValue_some .proControllerKey event.fromJson_toJson
  case proControllerMove sticks =>
    exact decodeInputValue_some .proControllerMove (readAxes_writeAxes sticks)
  case classicControllerKey event =>
    exact decodeInputValue_some .classicControllerKey event.fromJson_toJson
  case classicControllerMove slots =>
    exact decodeInputValue_some .classicControllerMove (readAxes_writeAxes slots)
  case nunchukKey event => exact decodeInputValue_some .nunchukKey event.fromJson_toJson
  case nunchukMove slots =>
    exact decodeInputValue_some .nunchukMove (readAxes_writeAxes slots)
  case drumsKey event => exact decodeInputValue_some .drumsKey event.fromJson_toJson
  case drumsMove slots => exact decodeInputValue_some .drumsMove (readAxes_writeAxes slots)
  case guitarKey event => exact decodeInputValue_some .guitarKey event.fromJson_toJson
  case guitarMove slots =>
    exact decodeInputValue_some .guitarMove (readAxes_writeAxes slots)
  case unknown value => exact decodeInputValue_some .unknown (Json.readU32_writeU32 value)
  case unsupported => simp

theorem serialize_not_null (payload : InputPayload) :
    payload.serialize.value ≠ some .null := by
  cases payload <;>
    simp [serialize, ButtonEvent.toJson, Axis3.toJson, writeAxes, Json.writeU32]

/-- The reader undoes the serializer on every payload. -/
theorem fromJson_toJson (payload : InputPayload) :
    fromJson payload.toJson = .ok payload := by
  rw [fromJson, toJson, TaggedPayload.fromJson_toJson payload.serialize_not_null]
  exact payload.deserialize_serialize

end InputPayload

end Ipc

end Wiiland
