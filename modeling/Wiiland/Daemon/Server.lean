/-
The daemon's socket server: its connections by token, their readiness, the commands
they leave to the reactor and the notifications published to them.
-/
import Wiiland.Daemon.Client
import Wiiland.Daemon.Platform

namespace Wiiland

namespace Daemon

open Ipc

def listenerToken : UInt64 := 1

def maxClients : Nat := 64

def acceptBudget : Nat := 8

def eio : Int := 5

/-- What one accept of the listener gives: a stream with what its peer will do, which may
fail to become nonblocking. -/
inductive AcceptAnswer where
  | accepted (reads : List ReadAnswer) (writes : List WriteAnswer) (nonblocking : Bool)
  | wouldBlock
  | failed (errno : Int)

/-- A descriptor to poll and what for. -/
structure PollSource where
  token : UInt64
  pollin : Bool
  pollout : Bool
deriving DecidableEq

namespace Client

/-- Read when there is something to read or to handle; false when the connection is
lost. -/
def readTurn (codec : Codec) (status : Status) (devices : List DeviceInfo)
    (client : Client) (revents : Revents) : Bool × Client :=
  if client.isOpen && (revents.pollin || revents.pollerr || revents.pollhup ||
      revents.pollnval || client.pendingFrames != []) then
    client.readClient codec status devices
  else (true, client)

/-- Write when the connection is kept and there is something to write. -/
def writeTurn (kept : Bool) (client : Client) (revents : Revents) : Bool × Client :=
  if kept && (revents.pollout || client.output != []) then client.writeReady
  else (kept, client)

/-- The turn of a connection that is ready: what is left of it, if it is kept. -/
def serve (codec : Codec) (status : Status) (devices : List DeviceInfo)
    (client : Client) (revents : Revents) : Option Client :=
  let (kept, client) := client.readTurn codec status devices revents
  let (kept, client) := writeTurn (kept && !client.immediateClose) client revents
  if kept && !client.immediateClose && !(client.closing && client.output == []) then
    some client
  else none

/-- The commands of an open connection go to the reactor. -/
def takeCommands (client : Client) : List (UInt64 × Command) × Client :=
  if client.isOpen then
    (client.commands,
      { client with
        commands := []
        taken := client.taken ++ client.commands.map Prod.fst })
  else ([], client)

/-- A started capture is leased to the connection, a stopped one clears its leases. -/
def lease (client : Client) : ResponseResult → Client
  | .captureStarted info =>
      if client.capture.contains info.syspath then client
      else { client with capture := client.capture ++ [info.syspath] }
  | .captureStopped => { client with capture := [] }
  | _ => client

/-- A capture that was started and exceeds the lease limit after all. -/
def leaseRefused (client : Client) : ResponseResult → Bool
  | .captureStarted info =>
      maxCaptureDevices ≤ client.capture.length && !client.capture.contains info.syspath
  | _ => false

/-- Answer a command that was taken. -/
def complete (codec : Codec) (client : Client) (id : UInt64)
    (result : Except ProtocolError ResponseResult) : Client :=
  let client := { client with taken := client.taken.erase id }
  match result with
  | .ok result =>
      if client.leaseRefused result then
        client.queue codec
          (.error (some id) (protocolError .invalidRequest "capture device limit reached"))
      else (client.lease result).queueResponse codec id result
  | .error error => client.queue codec (.error (some id) error)

/-- Queue a published notification for a connection that is open and wants it. -/
def offer (client : Client) (notification : Notification) (frame : List UInt8) : Client :=
  if client.negotiated && client.isOpen && client.wants notification then
    client.send (.notification notification) frame
  else client

end Client

/-- The commands of every open connection, and the connections without them. -/
def takeAll : List (UInt64 × Client) →
    List (UInt64 × UInt64 × Command) × List (UInt64 × Client)
  | [] => ([], [])
  | (token, client) :: clients =>
      let (commands, client) := client.takeCommands
      let (others, clients) := takeAll clients
      (commands.map (fun command => (token, command)) ++ others, (token, client) :: clients)

/-- The connections are listed in the order of the source's hash map. -/
structure IpcServer where
  path : PathBuf
  clients : List (UInt64 × Client) := []
  nextToken : UInt64 := 2
  accepts : List AcceptAnswer := []

namespace IpcServer

/-- A bound server; what its listener will answer comes with it. -/
def bind (path : PathBuf) (accepts : List AcceptAnswer) : IpcServer := { path, accepts }

def hasInputSubscribers (server : IpcServer) : Bool :=
  server.clients.any fun entry => entry.2.negotiated && entry.2.input && entry.2.isOpen

def pollSources (server : IpcServer) : List PollSource :=
  ⟨listenerToken, true, false⟩ :: server.clients.map fun (token, client) =>
    ⟨token, client.isOpen,
      !client.immediateClose && (client.output != [] || client.pendingFrames != [])⟩

def find (server : IpcServer) (token : UInt64) : Option Client :=
  server.clients.lookup token

/-- Change one connection in place. -/
def modify (server : IpcServer) (token : UInt64) (change : Client → Client) : IpcServer :=
  { server with
    clients := server.clients.map fun entry =>
      if entry.1 = token then (token, change entry.2) else entry }

def remove (server : IpcServer) (token : UInt64) : IpcServer :=
  { server with clients := server.clients.filter fun entry => entry.1 != token }

/-- The token after one, past zero and the listener's. -/
def tokenAfter (token : UInt64) : UInt64 :=
  let next := token + 1
  if next = 0 ∨ next = listenerToken then 2 else next

/-- The first token from the next one that is free, within a number of tries. -/
def allocateToken (server : IpcServer) : Nat → Option UInt64 × IpcServer
  | 0 => (none, server)
  | tries + 1 =>
      let token := server.nextToken
      let server := { server with nextToken := tokenAfter token }
      if listenerToken < token ∧ (server.find token).isNone then (some token, server)
      else allocateToken server tries

/-- More tries than there are connections find a free token. -/
def addClient (server : IpcServer) (stream : UnixStream) : IpcServer :=
  match server.allocateToken (server.clients.length + 1) with
  | (none, server) => server
  | (some token, server) =>
      { server with clients := (token, Client.new stream) :: server.clients }

def acceptLoop : Nat → IpcServer → Except Int Unit × IpcServer
  | 0, server => (.ok (), server)
  | budget + 1, server =>
      match server.accepts with
      | [] | .wouldBlock :: _ => (.ok (), { server with accepts := server.accepts.drop 1 })
      | .failed errno :: accepts => (.error (ioErrno errno), { server with accepts })
      | .accepted reads writes nonblocking :: accepts =>
          let server := { server with accepts }
          if nonblocking && server.clients.length < maxClients then
            acceptLoop budget (server.addClient { reads, writes })
          else acceptLoop budget server

def acceptReady (server : IpcServer) : Except Int Unit × IpcServer :=
  acceptLoop acceptBudget server

def handleReady (codec : Codec) (status : PathBuf → Status) (devices : List DeviceInfo)
    (server : IpcServer) (token : UInt64) (revents : Revents) :
    Except Int Unit × IpcServer :=
  if token = listenerToken then
    if revents.pollnval then (.error (-eio), server)
    else if revents.pollin || revents.pollerr || revents.pollhup then server.acceptReady
    else (.ok (), server)
  else
    match server.find token with
    | none => (.ok (), server)
    | some client =>
        match client.serve codec (status server.path) devices revents with
        | none => (.ok (), server.remove token)
        | some client => (.ok (), server.modify token fun _ => client)

/-- The hash map may list its entries in any order. -/
def rehash (server : IpcServer) (before : UInt64 → UInt64 → Bool) : IpcServer :=
  { server with clients := server.clients.mergeSort fun a b => before a.1 b.1 }

def takeCommands (server : IpcServer) :
    List (UInt64 × UInt64 × Command) × IpcServer :=
  let (commands, clients) := takeAll server.clients
  (commands, { server with clients })

def completeCommand (codec : Codec) (server : IpcServer) (token id : UInt64)
    (result : Except ProtocolError ResponseResult) : IpcServer :=
  server.modify token fun client => client.complete codec id result

def capturePaths (server : IpcServer) : List String :=
  (server.clients.filter fun entry => entry.2.isOpen).flatMap fun entry => entry.2.capture

/-- Queue a notification for every connection that wants it, and drop the connections
whose queue it exceeds. -/
def publish (codec : Codec) (server : IpcServer) (notification : Notification) :
    IpcServer :=
  match encodeFrame codec.messages (.notification notification) with
  | .error _ => server
  | .ok frame =>
      let clients := server.clients.map fun (token, client) =>
        (token, client.offer notification frame)
      { server with clients := clients.filter fun entry => !entry.2.immediateClose }

end IpcServer

end Daemon

end Wiiland
