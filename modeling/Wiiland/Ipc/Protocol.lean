/-
The wire protocol of the daemon: its messages and errors, and the bounded frames
they travel in.
-/
import Mathlib.Data.List.Basic

namespace Wiiland

namespace Ipc

def protocolMajor : UInt16 := 1

def protocolMinor : UInt16 := 1

/-- Maximum sensor capture leases per connection. -/
def maxCaptureDevices : Nat := 32

/-- Maximum JSON frame size, excluding its delimiter. -/
def maxFrameBytes : Nat := 65536

/-- A subscription stream supported by the protocol. -/
inductive Subscription where
  | all
  | input
  | devices
deriving DecidableEq, Repr

/-- Commands understood by the daemon. -/
inductive Command where
  | hello (minMajor maxMajor : UInt16)
  | ping
  | diagnostics
  | config
  | startCapture (syspath : String)
  | stopCapture
  | status
  | devices
  | subscribe (subscriptions : List Subscription)
  | unsubscribe (subscriptions : List Subscription)
  | unknown
deriving DecidableEq, Repr

structure Request where
  id : UInt64
  command : Command
deriving DecidableEq, Repr

/-- Stable machine-readable protocol error codes. -/
inductive ProtocolErrorCode where
  | unsupportedVersion
  | invalidRequest
  | unknownCommand
  | notSubscribed
  | frameTooLarge
  | invalidJson
  | internal
  | unknown
deriving DecidableEq, Repr

structure ProtocolError where
  code : ProtocolErrorCode
  message : String
deriving DecidableEq, Repr

/-- Authoritative daemon status at the time of a request. -/
structure Status where
  daemonVersion : String
  pid : UInt32
  deviceCount : UInt32
  dryRun : Bool
  socketPath : String
deriving DecidableEq, Repr

/-- Reactor health counters. -/
structure Diagnostics where
  traceRecordsDropped : UInt64 := 0
  lifecycleRecordsDropped : UInt64 := 0
  maxPointerLatenessUs : UInt64 := 0
  maxDispatchDurationUs : UInt64 := 0
deriving DecidableEq, Repr

/-- Device profile names used by the daemon. -/
inductive Profile where
  | none_
  | gamepad
  | desktop
  | both
  | unknown
deriving DecidableEq, Repr

/-- Information about an opened or known device. -/
structure DeviceInfo where
  syspath : String
  profile : Profile
  openedInterfaces : UInt32
  pendingInterfaces : UInt32
  gamepadOutput : Bool
  desktopOutput : Bool
deriving DecidableEq, Repr

/-- Successful command results. -/
inductive ResponseResult where
  | hello (major minor : UInt16) (daemonVersion : String)
  | pong
  | diagnostics (metrics : Diagnostics)
  | config (text : String)
  | captureStarted (info : DeviceInfo)
  | captureStopped
  | status (status : Status)
  | devices (devices : List DeviceInfo)
  | subscribed
  | unsubscribed
deriving DecidableEq, Repr

/-- Why a device was removed from the daemon. -/
inductive RemovalReason where
  | removed
  | gone
  | drainError
  | pointerError
  | unknown
deriving DecidableEq, Repr

structure Timestamp where
  seconds : Int64
  micros : UInt32
deriving DecidableEq

structure Axis3 where
  x : Int32
  y : Int32
  z : Int32
deriving DecidableEq

/-- A button transition. -/
structure ButtonEvent where
  code : UInt32
  state : UInt32
deriving DecidableEq

/-- Semantic input reports emitted by the daemon. -/
inductive InputPayload where
  | key (event : ButtonEvent)
  | accel (value : Axis3)
  | ir (points : Vector Axis3 4)
  | balanceBoard (sensors : Vector Axis3 4)
  | motionPlus (value : Axis3)
  | proControllerKey (event : ButtonEvent)
  | proControllerMove (sticks : Vector Axis3 2)
  | watch
  | classicControllerKey (event : ButtonEvent)
  | classicControllerMove (slots : Vector Axis3 3)
  | nunchukKey (event : ButtonEvent)
  | nunchukMove (slots : Vector Axis3 2)
  | drumsKey (event : ButtonEvent)
  | drumsMove (slots : Vector Axis3 8)
  | guitarKey (event : ButtonEvent)
  | guitarMove (slots : Vector Axis3 3)
  | gone
  | unknown (value : UInt32)
  | unsupported
deriving DecidableEq

/-- Stable event number used by the trace contract. -/
def InputPayload.eventCode : InputPayload → UInt32
  | .key _ => 0
  | .accel _ => 1
  | .ir _ => 2
  | .balanceBoard _ => 3
  | .motionPlus _ => 4
  | .proControllerKey _ => 5
  | .proControllerMove _ => 6
  | .watch => 7
  | .classicControllerKey _ => 8
  | .classicControllerMove _ => 9
  | .nunchukKey _ => 10
  | .nunchukMove _ => 11
  | .drumsKey _ => 12
  | .drumsMove _ => 13
  | .guitarKey _ => 14
  | .guitarMove _ => 15
  | .gone => 16
  | .unknown value => value
  | .unsupported => 0xffffffff

/-- An unsolicited daemon event. -/
inductive Notification where
  | deviceAdded (sequence : UInt64) (device : DeviceInfo)
  | deviceRemoved (sequence : UInt64) (syspath : String) (reason : RemovalReason)
  | input (sequence : UInt64) (syspath : String) (timestamp : Timestamp)
      (payload : InputPayload)
  | unsupported
deriving DecidableEq

/-- A message sent by the daemon. -/
inductive ServerMessage where
  | response (id : UInt64) (result : ResponseResult)
  | notification (notification : Notification)
  | error (id : Option UInt64) (error : ProtocolError)
deriving DecidableEq

namespace ProtocolError

def frameTooLarge (size : Nat) : ProtocolError where
  code := .frameTooLarge
  message := s!"JSON frame is {size} bytes, maximum is {maxFrameBytes}"

def json (text : String) : ProtocolError where
  code := .invalidJson
  message := text

end ProtocolError

def newline : UInt8 := 10

def carriageReturn : UInt8 := 13

/-- A line without one trailing carriage return. -/
def stripCr (line : List UInt8) : List UInt8 :=
  if line.getLast? = some carriageReturn then line.dropLast else line

/-- How the JSON library writes and reads the values of one type; a failure
carries its text. -/
structure Serde (A : Type) where
  toVec : A → Except String (List UInt8)
  fromSlice : List UInt8 → Except String A

/-- The JSON library at the two types that cross a connection. -/
structure Codec where
  requests : Serde Request
  messages : Serde ServerMessage

variable {A : Type}

/-- Serialize one JSON object and append its newline delimiter. -/
def encodeFrame (serde : Serde A) (value : A) : Except ProtocolError (List UInt8) :=
  match serde.toVec value with
  | .error text => .error (.json text)
  | .ok json =>
      if maxFrameBytes < json.length then .error (.frameTooLarge json.length)
      else .ok (json ++ [newline])

/-- Decode one JSON frame; a trailing LF or CRLF is accepted. -/
def decodeFrame (serde : Serde A) (frame : List UInt8) : Except ProtocolError A :=
  let payload := if frame.getLast? = some newline then frame.dropLast else frame
  let payload := stripCr payload
  if maxFrameBytes < payload.length then .error (.frameTooLarge payload.length)
  else
    match serde.fromSlice payload with
    | .error text => .error (.json text)
    | .ok value => .ok value

theorem encodeFrame_eq_ok {serde : Serde A} {value : A} {frame : List UInt8} :
    encodeFrame serde value = .ok frame ↔
      ∃ json, serde.toVec value = .ok json ∧ json.length ≤ maxFrameBytes ∧
        frame = json ++ [newline] := by
  unfold encodeFrame
  cases serde.toVec value with
  | error text => simp
  | ok json =>
      by_cases hlong : maxFrameBytes < json.length
      · have hnot : ¬json.length ≤ maxFrameBytes := Nat.not_le_of_lt hlong
        simp [hlong, hnot]
      · have hfits : json.length ≤ maxFrameBytes := Nat.le_of_not_lt hlong
        simp [hlong, hfits, eq_comm]

theorem encodeFrame_length {serde : Serde A} {value : A} {frame : List UInt8}
    (hframe : encodeFrame serde value = .ok frame) :
    0 < frame.length ∧ frame.length ≤ maxFrameBytes + 1 := by
  obtain ⟨json, _, hjson, rfl⟩ := encodeFrame_eq_ok.mp hframe
  rw [List.length_append, List.length_singleton]
  omega

end Ipc

end Wiiland
