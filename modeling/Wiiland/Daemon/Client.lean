/-
The daemon's side of one connection: framing, subscriptions, deferred commands and
the bounded output queue.  A stream carries in itself what its peer will do.
-/
import Wiiland.Ipc.FrameBuffer

namespace Wiiland

namespace Daemon

open Ipc

def maxQueuedBytes : Nat := 256 * 1024

def readBudget : Nat := 8

def readChunk : Nat := 16 * 1024

def frameBudget : Nat := 8

def writeBudget : Nat := 64 * 1024

def daemonVersion : String := "2.0.0"

/-- What one read of a stream gives; no bytes is the end of the stream. -/
inductive ReadAnswer where
  | data (bytes : List UInt8)
  | wouldBlock
  | failed
deriving DecidableEq

/-- What one write to a stream gives. -/
inductive WriteAnswer where
  | wrote (count : Nat)
  | wouldBlock
  | failed
deriving DecidableEq

/-- A nonblocking stream: what it will answer, after which it blocks, and the bytes
written to it so far. -/
structure UnixStream where
  reads : List ReadAnswer := []
  writes : List WriteAnswer := []
  written : List UInt8 := []

namespace UnixStream

/-- A read takes no more than the size of its buffer. -/
def read (stream : UnixStream) : ReadAnswer × UnixStream :=
  match stream.reads with
  | [] => (.wouldBlock, stream)
  | .data bytes :: reads => (.data (bytes.take readChunk), { stream with reads })
  | answer :: reads => (answer, { stream with reads })

/-- A write takes a front part of the bytes it is offered. -/
def write (stream : UnixStream) (bytes : List UInt8) : WriteAnswer × UnixStream :=
  match stream.writes with
  | [] => (.wouldBlock, stream)
  | .wrote count :: writes =>
      (.wrote (min count bytes.length),
        { stream with writes, written := stream.written ++ bytes.take count })
  | answer :: writes => (answer, { stream with writes })

end UnixStream

/-- A message in the output queue and how much of it is written. -/
structure Pending where
  bytes : List UInt8
  offset : Nat
deriving DecidableEq

/-- A frame the daemon has handled: its id, none for one that did not decode, and
whether the connection was open. -/
structure Handled where
  id : Option UInt64
  whileOpen : Bool
deriving DecidableEq

structure Client where
  stream : UnixStream
  frames : FrameBuffer := {}
  pendingFrames : List (List UInt8) := []
  output : List Pending := []
  queuedBytes : Nat := 0
  negotiated : Bool := false
  immediateClose : Bool := false
  closing : Bool := false
  input : Bool := false
  devices : Bool := false
  commands : List (UInt64 × Command) := []
  capture : List String := []
  /-- The encodable messages meant for this client so far; no function looks at them. -/
  history : List (ServerMessage × List UInt8) := []
  /-- The frames handled so far; no function looks at them. -/
  handled : List Handled := []
  /-- The ids of the commands that are taken and not completed; no function looks at
  them. -/
  taken : List UInt64 := []
  /-- A write took more than was accounted for; no function looks at it. -/
  saturated : Bool := false

def protocolError (code : ProtocolErrorCode) (message : String) : ProtocolError :=
  ⟨code, message⟩

namespace Client

def new (stream : UnixStream) : Client := { stream }

def wants (client : Client) : Notification → Bool
  | .input .. => client.input
  | .deviceAdded .. => client.devices
  | .deviceRemoved .. => client.devices
  | .unsupported => false

/-- Neither of the flags that end a connection is set. -/
def isOpen (client : Client) : Bool := !client.closing && !client.immediateClose

def queueEncoded (client : Client) (bytes : List UInt8) : Client :=
  if maxQueuedBytes < client.queuedBytes + bytes.length then
    { client with immediateClose := true }
  else
    { client with
      queuedBytes := client.queuedBytes + bytes.length
      output := client.output ++ [⟨bytes, 0⟩] }

/-- Queue an encoded message that is meant for this client. -/
def send (client : Client) (message : ServerMessage) (bytes : List UInt8) : Client :=
  queueEncoded { client with history := client.history ++ [(message, bytes)] } bytes

def queue (codec : Codec) (client : Client) (message : ServerMessage) : Client :=
  match encodeFrame codec.messages message with
  | .error _ => { client with immediateClose := true }
  | .ok bytes => client.send message bytes

def oversizeError (id : UInt64) : ServerMessage :=
  .error (some id) (protocolError .internal "response exceeds the maximum IPC frame size")

def queueResponse (codec : Codec) (client : Client) (id : UInt64)
    (result : ResponseResult) : Client :=
  match encodeFrame codec.messages (.response id result) with
  | .ok bytes => client.send (.response id result) bytes
  | .error _ => client.queue codec (oversizeError id)

/-- The front entry of the queue after `count` of its bytes are written. -/
def advance (front : Pending) (rest : List Pending) (count : Nat) : List Pending :=
  if front.offset + count = front.bytes.length then rest
  else ⟨front.bytes, front.offset + count⟩ :: rest

def writeLoop (client : Client) (budget : Nat) : Bool × Client :=
  if budget = 0 then (true, client)
  else
    match client.output with
    | [] => (true, client)
    | front :: rest =>
        match client.stream.write ((front.bytes.drop front.offset).take budget) with
        | (.wrote count, stream) =>
            if count = 0 then (false, { client with stream, closing := true })
            else
              writeLoop
                { client with
                  stream
                  output := advance front rest count
                  queuedBytes := client.queuedBytes - count
                  saturated := client.saturated || decide (client.queuedBytes < count) }
                (budget - count)
        | (.wouldBlock, stream) => (true, { client with stream })
        | (.failed, stream) => (false, { client with stream, closing := true })
termination_by budget

/-- Write what the socket takes; false when the connection is lost. -/
def writeReady (client : Client) : Bool × Client := client.writeLoop writeBudget

def applySubscription (client : Client) (enabled : Bool) : Subscription → Client
  | .all => { client with input := enabled, devices := enabled }
  | .input => { client with input := enabled }
  | .devices => { client with devices := enabled }

def applySubscriptions (client : Client) (subscriptions : List Subscription)
    (enabled : Bool) : Client :=
  subscriptions.foldl (fun client wanted => client.applySubscription enabled wanted) client

/-- The answer to a first request. -/
def negotiate (codec : Codec) (client : Client) (id : UInt64) : Command → Client
  | .hello minMajor maxMajor =>
      if minMajor ≤ protocolMajor ∧ protocolMajor ≤ maxMajor then
        queueResponse codec { client with negotiated := true } id
          (.hello protocolMajor protocolMinor daemonVersion)
      else
        { client.queue codec (.error (some id)
            (protocolError .unsupportedVersion "unsupported protocol version")) with
          closing := true }
  | _ =>
      { client.queue codec (.error (some id)
          (protocolError .invalidRequest "first request must be hello")) with
        closing := true }

/-- A capture that would exceed the lease limit of a connection. -/
def captureRefused (client : Client) : Command → Bool
  | .startCapture syspath =>
      maxCaptureDevices ≤ client.capture.length && !client.capture.contains syspath
  | _ => false

/-- Leave a command to the reactor. -/
def defer (codec : Codec) (client : Client) (id : UInt64) (command : Command) : Client :=
  if client.captureRefused command then
    client.queue codec (.error (some id) (protocolError .invalidRequest
      "capture device limit reached; stop capture before selecting new devices"))
  else if frameBudget ≤ client.commands.length then
    { client with immediateClose := true }
  else { client with commands := client.commands ++ [(id, command)] }

/-- A request after the negotiation. -/
def handleCommand (codec : Codec) (status : Status) (devices : List DeviceInfo)
    (client : Client) (id : UInt64) : Command → Client
  | .hello _ _ =>
      client.queue codec (.error (some id)
        (protocolError .invalidRequest "hello was already completed"))
  | .ping => client.queueResponse codec id .pong
  | .status => client.queueResponse codec id (.status status)
  | .devices => client.queueResponse codec id (.devices devices)
  | .subscribe subscriptions =>
      (client.applySubscriptions subscriptions true).queueResponse codec id .subscribed
  | .unsubscribe subscriptions =>
      (client.applySubscriptions subscriptions false).queueResponse codec id .unsubscribed
  | .diagnostics => client.defer codec id .diagnostics
  | .config => client.defer codec id .config
  | .startCapture syspath => client.defer codec id (.startCapture syspath)
  | .stopCapture => client.defer codec id .stopCapture
  | .unknown =>
      client.queue codec (.error (some id) (protocolError .unknownCommand "unknown command"))

/-- Note a frame that is being handled. -/
def handling (client : Client) (id : Option UInt64) : Client :=
  { client with handled := client.handled ++ [⟨id, client.isOpen⟩] }

/-- Answer one frame, or leave its command to the reactor.  The source's constant
result is left out. -/
def handleFrame (codec : Codec) (status : Status) (devices : List DeviceInfo)
    (client : Client) (frame : List UInt8) : Client :=
  match decodeFrame codec.requests frame with
  | .error error => (client.handling none).queue codec (.error none error)
  | .ok request =>
      let client := client.handling (some request.id)
      if client.negotiated then
        client.handleCommand codec status devices request.id request.command
      else client.negotiate codec request.id request.command

/-- Handle waiting frames within a budget; what remains of it is returned. -/
def processPending (codec : Codec) (status : Status) (devices : List DeviceInfo) :
    Nat → Client → Nat × Client
  | 0, client => (0, client)
  | budget + 1, client =>
      match client.pendingFrames with
      | [] => (budget + 1, client)
      | frame :: rest =>
          let client :=
            handleFrame codec status devices { client with pendingFrames := rest } frame
          if client.isOpen then processPending codec status devices budget client
          else (budget, client)

/-- The stream has an overlong frame: the connection ends with an error. -/
def refuse (codec : Codec) (client : Client) (error : ProtocolError) : Client :=
  queue codec { client.handling none with closing := true } (.error none error)

/-- The reads of one readiness; false when the connection is lost. -/
def readLoop (codec : Codec) (status : Status) (devices : List DeviceInfo) :
    Nat → Nat → Client → Bool × Client
  | 0, _, client => (true, client)
  | reads + 1, budget, client =>
      match client.stream.read with
      | (.wouldBlock, stream) => (true, { client with stream })
      | (.failed, stream) => (false, { client with stream })
      | (.data bytes, stream) =>
          if bytes = [] then (false, { client with stream })
          else
            match client.frames.push bytes with
            | (.error error, frames) =>
                (true, refuse codec { client with stream, frames } error)
            | (.ok whole, frames) =>
                let (budget, client) := processPending codec status devices budget
                  { client with
                    stream
                    frames
                    pendingFrames := client.pendingFrames ++ whole }
                if !client.isOpen || budget == 0 || client.pendingFrames != [] ||
                    bytes.length < readChunk then (true, client)
                else readLoop codec status devices reads budget client

/-- Handle the frames that wait and then what the stream gives. -/
def readClient (codec : Codec) (status : Status) (devices : List DeviceInfo)
    (client : Client) : Bool × Client :=
  let (budget, client) := processPending codec status devices frameBudget client
  if budget == 0 || client.pendingFrames != [] || !client.isOpen then (true, client)
  else readLoop codec status devices readBudget budget client

end Client

end Daemon

end Wiiland
