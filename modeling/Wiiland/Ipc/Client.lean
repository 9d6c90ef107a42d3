/-
The blocking client of the daemon's socket: requests with their deadline, the
notifications deferred while a reply is awaited, and the frames that are still to
be read.  What the system answers to each call is a parameter of the call.
-/
import Wiiland.Ipc.FrameBuffer

namespace Wiiland

namespace Ipc

def maxNotificationBacklogBytes : Nat := 262144

/-- The size of one socket read. -/
def readSize : Nat := 8192

inductive IoErrorKind where
  | timedOut
  | wouldBlock
  | brokenPipe
  | connectionReset
  | unexpectedEof
  | other (errno : Int)
deriving DecidableEq

/-- Errors returned by the blocking client. -/
inductive ClientError where
  | io (kind : IoErrorKind)
  | frame (error : ProtocolError)
  | server (error : ProtocolError)
  | unexpectedResponseId (expected actual : UInt64)
  | unexpectedMessage
  | unsupportedVersion (major minor : UInt16)
  | notificationBacklogExceeded (limit : Nat)
  | sessionBacklogExceeded (limit : Nat)
  | unsupportedFeature (peerMinor requiredMinor : UInt16)
  | prematureEof
  | runtimeDirectoryMissing
  | runtimeDirectoryRelative (path : String)
deriving DecidableEq

/-- A call ends without a value in an error of its own or in a failed `expect`. -/
inductive Stop where
  | error (error : ClientError)
  | panic
deriving DecidableEq

/-- What a socket read gives; no bytes is the end of the stream. -/
inductive Read where
  | data (bytes : List UInt8)
  | failed (kind : IoErrorKind)

/-- One turn of the loop that awaits a reply: whether the deadline is over, how
setting the read timeout fails, and what a read gives if one is made. -/
structure Turn where
  expired : Bool
  setTimeout : Option IoErrorKind
  read : Read

/-- What the system answers while a request runs: how the write fails and after how
many bytes, whether a read timeout is configured, and the turns that follow. -/
structure RequestEnv where
  write : Option (IoErrorKind × Nat)
  timeout : Except IoErrorKind Bool
  turns : List Turn
  restore : Option IoErrorKind

structure Client where
  frames : FrameBuffer := {}
  notifications : List (Notification × Nat) := []
  notificationBytes : Nat := 0
  messages : List (ServerMessage × Nat) := []
  terminated : Bool := false
  nextId : UInt64 := 1
  protocolMinor : UInt16 := 0
  /-- The bytes read from the socket so far; no call looks at them. -/
  received : List UInt8 := []
  /-- The bytes written to the socket so far; no call looks at them. -/
  written : List UInt8 := []
  /-- The messages taken off the wire so far; no call looks at them. -/
  handed : List (ServerMessage × Nat) := []

def mapStreamIoError : IoErrorKind → ClientError
  | .brokenPipe | .connectionReset | .unexpectedEof => .prematureEof
  | kind => .io kind

namespace Client

def backlogExceeded : ClientError :=
  .notificationBacklogExceeded maxNotificationBacklogBytes

def ensureActive (client : Client) : Except ClientError Unit :=
  if client.terminated then .error backlogExceeded else .ok ()

def allocateId (client : Client) : UInt64 × Client :=
  let next := client.nextId + 1
  (client.nextId, { client with nextId := if next = 0 then 1 else next })

def queueNotification (client : Client) (notification : Notification)
    (frameBytes : Nat) : Except ClientError Unit × Client :=
  let bytes := client.notificationBytes + frameBytes
  if bytes ≤ maxNotificationBacklogBytes then
    (.ok (), { client with
      notificationBytes := bytes
      notifications := client.notifications ++ [(notification, frameBytes)] })
  else (.error backlogExceeded, { client with terminated := true })

def popMessage (client : Client) : Option (ServerMessage × Nat) × Client :=
  match client.messages with
  | [] => (none, client)
  | message :: rest =>
      (some message,
        { client with messages := rest, handed := client.handed ++ [message] })

/-- Decode the frames of one read.  The first began with the bytes that were
buffered, and each ends with one piece of the read. -/
def collect (codec : Codec) : List (List UInt8) → List (List UInt8) → Nat → Client →
    Except Stop Unit × Client
  | [], _, _, client => (.ok (), client)
  | _ :: _, [], _, client => (.error .panic, client)
  | frame :: frames, chunk :: chunks, buffered, client =>
      match decodeFrame codec.messages frame with
      | .error error => (.error (.error (.frame error)), client)
      | .ok message =>
          collect codec frames chunks 0
            { client with
              messages := client.messages ++ [(message, buffered + chunk.length)] }

/-- Split what a read gave into frames and queue their messages. -/
def receive (codec : Codec) (client : Client) (chunk : List UInt8) :
    Except Stop Unit × Client :=
  let buffered := client.frames.bytes.length
  let received := client.received ++ chunk
  match client.frames.push chunk with
  | (.error error, frames) =>
      (.error (.error (.frame error)), { client with frames := frames, received := received })
  | (.ok whole, frames) =>
      collect codec whole (Lines.splitInclusive newline chunk) buffered
        { client with frames := frames, received := received }

def pollMessage (codec : Codec) (client : Client) (read : Read) :
    Except Stop (Option (ServerMessage × Nat)) × Client :=
  match client.messages with
  | _ :: _ => (.ok client.popMessage.1, client.popMessage.2)
  | [] =>
      match read with
      | .failed kind => (.error (.error (mapStreamIoError kind)), client)
      | .data bytes =>
          let chunk := bytes.take readSize
          if chunk = [] then (.error (.error .prematureEof), client)
          else
            match receive codec client chunk with
            | (.error stop, client) => (.error stop, client)
            | (.ok (), client) => (.ok client.popMessage.1, client.popMessage.2)

/-- Return a queued notification or read at most one socket chunk. -/
def pollEvent (codec : Codec) (client : Client) (read : Read) :
    Except Stop (Option Notification) × Client :=
  match client.ensureActive with
  | .error error => (.error (.error error), client)
  | .ok () =>
      match client.notifications with
      | (notification, frameBytes) :: rest =>
          (.ok (some notification), { client with
            notifications := rest
            notificationBytes := client.notificationBytes - frameBytes })
      | [] =>
          let polled := pollMessage codec client read
          match polled.1 with
          | .error stop => (.error stop, polled.2)
          | .ok none => (.ok none, polled.2)
          | .ok (some (.notification notification, _)) =>
              (.ok (some notification), polled.2)
          | .ok (some (.response _ _, _)) => (.error (.error .unexpectedMessage), polled.2)
          | .ok (some (.error _ error, _)) =>
              (.error (.error (.server error)), polled.2)

/-- The error a request ends in when an error message arrives. -/
def errorReply (id : UInt64) (errorId : Option UInt64) (error : ProtocolError) :
    ClientError :=
  match errorId with
  | some actual => if actual ≠ id then .unexpectedResponseId id actual else .server error
  | none => .server error

/-- Await the reply `id`; without a result the call has not returned yet. -/
def readResponse (codec : Codec) (id : UInt64) (timed : Bool) :
    List Turn → Client → Option (Except Stop ResponseResult) × Client
  | [], client => (none, client)
  | turn :: turns, client =>
      if timed && turn.expired then (some (.error (.error (.io .timedOut))), client)
      else
        match if timed then turn.setTimeout else none with
        | some kind => (some (.error (.error (.io kind))), client)
        | none =>
            let polled := pollMessage codec client turn.read
            match polled.1 with
            | .error stop => (some (.error stop), polled.2)
            | .ok none => readResponse codec id timed turns polled.2
            | .ok (some (.notification notification, frameBytes)) =>
                let queued := polled.2.queueNotification notification frameBytes
                match queued.1 with
                | .error error => (some (.error (.error error)), queued.2)
                | .ok () => readResponse codec id timed turns queued.2
            | .ok (some (.response responseId result, _)) =>
                if responseId ≠ id then
                  (some (.error (.error (.unexpectedResponseId id responseId))), polled.2)
                else (some (.ok result), polled.2)
            | .ok (some (.error errorId error, _)) =>
                (some (.error (.error (errorReply id errorId error))), polled.2)

def request (codec : Codec) (client : Client) (command : Command) (env : RequestEnv) :
    Option (Except Stop ResponseResult) × Client :=
  match client.ensureActive with
  | .error error => (some (.error (.error error)), client)
  | .ok () =>
      let (id, client) := client.allocateId
      match encodeFrame codec.requests ⟨id, command⟩ with
      | .error error => (some (.error (.error (.frame error))), client)
      | .ok frame =>
          match env.write with
          | some (kind, count) =>
              (some (.error (.error (mapStreamIoError kind))),
                { client with written := client.written ++ frame.take count })
          | none =>
              let client := { client with written := client.written ++ frame }
              match env.timeout with
              | .error kind => (some (.error (.error (.io kind))), client)
              | .ok timed =>
                  let awaited := readResponse codec id timed env.turns client
                  match awaited.1, env.restore with
                  | some (.ok _), some kind => (some (.error (.error (.io kind))), awaited.2)
                  | result, _ => (result, awaited.2)

end Client

end Ipc

end Wiiland
