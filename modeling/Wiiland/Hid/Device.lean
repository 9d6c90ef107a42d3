/-
A controller with its ten inputs: what is opened and closed, and how one dispatch picks
the next event from recovered states, from the inputs and from the device monitor.
What the kernel and udev answer comes with each call.
-/
import Wiiland.Hid.Nodes
import Wiiland.Hid.Recovery
import Wiiland.Hid.Seeding

namespace Wiiland

namespace Hid

namespace Device

open UnixPath (Path)

def eintr : Int := 4
def eagain : Int := 11
def enodev : Int := 19
def epipe : Int := 32

/-- `MONITOR_EPOLL_TAG` and `RECOVERY_EPOLL_TAG`. -/
def monitorEpollTag : Nat := 2 ^ 64 - 1
def recoveryEpollTag : Nat := 2 ^ 64 - 2

def interfaceKinds : List InterfaceKind :=
  [.core, .accel, .ir, .motionPlus, .nunchuk, .classic, .balanceBoard, .pro, .drums,
    .guitar]

def kindOf (i : Fin 10) : InterfaceKind := interfaceKinds.getD i .core

def lifecycleEvent (kind : EventKind) : Event := ⟨⟨0, 0⟩, kind⟩

/-- What the kernel answers for the state of an input. -/
structure StateAnswers where
  keys : Except Errno (List (BitVec 64))
  axes : History → Nat → Except Errno Int

/-- The query of one axis. -/
def StateAnswers.query (answers : StateAnswers) (history : History) (code : Nat) :
    Except Int Int :=
  (answers.axes history code).mapError Errno.code

def queryRecoveryState (kind : InterfaceKind) (answers : StateAnswers) :
    Except Int (List (BitVec 64) × List (Nat × Int)) :=
  match answers.keys with
  | .error errno => .error errno.code
  | .ok keys =>
      let queried := (queryAbsState kind answers.query).get (by
        obtain ⟨result, history, hrun, _⟩ := @queryAbsState_ends answers.query kind
        rw [hrun]
        rfl)
      match queried.1 with
      | .error errno => .error errno
      | .ok abs => .ok (keys, abs.entries)

/-- A name that ends at its first zero byte. -/
def validateEvdevName (name expected : List UInt8) : Except Int Unit :=
  if name.takeWhile (· ≠ 0) = expected then .ok () else .error (-enodev)

def queryInitialState (i : Fin 10) (name : Except Errno (List UInt8))
    (answers : StateAnswers) : Except Int (List (BitVec 64) × List (Nat × Int)) :=
  match name with
  | .error errno => .error errno.code
  | .ok name =>
      match validateEvdevName name (literal (ifNames.getD i "")) with
      | .error errno => .error errno
      | .ok () => queryRecoveryState (kindOf i) answers

def isChildPath (root candidate : List UInt8) : Bool :=
  root.isPrefixOf candidate && (candidate.drop root.length).head? == some UnixPath.separator

def inWatchScope (root candidate : List UInt8) (subsystem : Option (List UInt8)) : Bool :=
  (candidate == root && subsystem == some (literal "hid")) ||
    (subsystem == some (literal "input") && isChildPath root candidate)

def epollInputIndex (tag : Nat) : Option (Fin 10) :=
  if h : 0 < tag ∧ tag - 1 < 10 then some ⟨tag - 1, h.2⟩ else none

def refreshRequiresClose (fd : Int) (oldNode newNode : Option Path) (available : Bool) : Bool :=
  0 ≤ fd && (!available || oldNode != newNode)

structure InputInterface where
  node : Option Path
  fd : Int
  available : Bool
  awaitingSync : Bool
  decoder : Decoder

namespace InputInterface

def new (i : Fin 10) : InputInterface where
  node := none
  fd := -1
  available := false
  awaitingSync := false
  decoder := Decoder.new (kindOf i)

/-- A fresh decoder that keeps the normalization. -/
def resetDecoder (input : InputInterface) : InputInterface :=
  { input with
      awaitingSync := false
      decoder := { Decoder.new input.decoder.interface with
        motionPlus := input.decoder.motionPlus } }

def close (input : InputInterface) : InputInterface :=
  { input with fd := if 0 ≤ input.fd then -1 else input.fd }.resetDecoder

def takeRecovered (input : InputInterface) : Option Event × InputInterface :=
  (input.decoder.takeRecovered.1, { input with decoder := input.decoder.takeRecovered.2 })

def push (input : InputInterface) (event : InputEvent) : Option Event × InputInterface :=
  ((input.decoder.push event).1, { input with decoder := (input.decoder.push event).2 })

end InputInterface

/-- What the kernel answers when one input is opened; its node, and whether to write to
it, decide the first answer. -/
structure OpenAnswers where
  node : Path → Bool → Except Errno Nat
  name : Except Errno (List UInt8)
  state : StateAnswers
  added : Except Errno Unit
  effect : Option Int

inductive ReadAnswer where
  | interrupted
  | again
  /-- Any other error, or a read that is not a whole event. -/
  | failed
  | input (event : InputEvent)

/-- A device that the monitor received, with the enumeration at that time. -/
structure UdevEvent where
  action : Option (List UInt8)
  syspath : Option (List UInt8)
  subsystem : Option (List UInt8)
  scan : Except Int (List UdevEntry)

/-- An event of `epoll_wait` and the answers to what is asked because of it. -/
structure EpollEvent where
  tag : Nat
  readable : Bool
  broken : Bool
  received : List UdevEvent
  reads : List ReadAnswer
  state : StateAnswers
  scan : Except Int (List UdevEntry)

structure Interface where
  syspath : List UInt8
  inputs : Fin 10 → InputInterface
  nodes : Nodes
  monitor : Bool
  rumbleFd : Int
  rumbleId : Int
  /-- The counter of the event descriptor for recovered events. -/
  wake : Nat
  nextInput : Nat
  gone : Bool

namespace Interface

def setInput (iface : Interface) (i : Fin 10) (input : InputInterface) : Interface :=
  { iface with inputs := Function.update iface.inputs i input }

def drainRecoveryWake (iface : Interface) : Interface := { iface with wake := 0 }

def recoveryPending (iface : Interface) : Bool :=
  (List.finRange 10).any fun i => (iface.inputs i).decoder.recovery.hasPending

def signalRecoveryIfPending (iface : Interface) : Interface :=
  if iface.recoveryPending then { iface with wake := iface.wake + 1 } else iface

def opened (iface : Interface) : InterfaceMask :=
  (List.finRange 10).foldl
    (fun bits i => if 0 ≤ (iface.inputs i).fd then bits.union (ifBit i) else bits) .empty

def available (iface : Interface) : InterfaceMask := iface.nodes.available

/-- Close one input if it is requested and open. -/
def closeOne (requested : InterfaceMask) (iface : Interface) (i : Fin 10) : Interface :=
  if requested.has (ifPosition i) && 0 ≤ (iface.inputs i).fd then
    let iface := if iface.rumbleFd = (iface.inputs i).fd then
      { iface with rumbleFd := -1, rumbleId := -1 } else iface
    iface.setInput i (iface.inputs i).close
  else iface

def close (iface : Interface) (ifaces : InterfaceMask) : Interface :=
  (List.finRange 10).foldl (closeOne (ifaces.inter .all)) iface

/-- Open an available input at its node; the error is that of the first step that
fails. -/
def openInput (iface : Interface) (i : Fin 10) (path : Path) (write : Bool)
    (answers : OpenAnswers) : Option Int × Interface :=
  match answers.node path write with
  | .error errno => (some errno.code, iface)
  | .ok fd =>
      match queryInitialState i answers.name answers.state with
      | .error errno => (some errno, iface)
      | .ok (keys, abs) =>
          let input := (iface.inputs i).resetDecoder
          let input := { input with decoder := input.decoder.seedState keys abs, fd := fd }
          match answers.added with
          | .error errno => (some errno.code, iface.setInput i input.close)
          | .ok () =>
              let iface := iface.setInput i input
              if i = 0 ∨ i = 7 then
                match answers.effect with
                | some id => (none, { iface with rumbleFd := fd, rumbleId := id })
                | none => (none, iface)
              else (none, iface)

/-- What is tried for one input, and its error. -/
def openOne (iface : Interface) (ifaces : InterfaceMask) (i : Fin 10)
    (answers : OpenAnswers) : Option Int × Interface :=
  if !(ifaces.inter .all).has (ifPosition i) || 0 ≤ (iface.inputs i).fd then (none, iface)
  else if !(iface.inputs i).available then (some (-enodev), iface)
  else
    match (iface.inputs i).node with
    | none => (some (-enodev), iface)
    | some path => iface.openInput i path (ifaces.has 16) answers

/-- Every input is tried; the first error stays. -/
def openStep (ifaces : InterfaceMask) (answers : Fin 10 → OpenAnswers)
    (state : Interface × Int) (i : Fin 10) : Interface × Int :=
  let (error, iface) := state.1.openOne ifaces i (answers i)
  (iface, match error with
    | none => state.2
    | some errno => if state.2 = 0 then errno else state.2)

def open_ (iface : Interface) (ifaces : InterfaceMask) (answers : Fin 10 → OpenAnswers) :
    Except OpenError InterfaceMask × Interface :=
  let (iface, first) := (List.finRange 10).foldl (openStep ifaces answers) (iface, 0)
  (if first ≠ 0 then .error ⟨iface.opened, first⟩ else .ok iface.opened, iface)

/-- Take the nodes of one input; one whose node is another or is gone is closed. -/
def refreshInput (nodes : Nodes) (iface : Interface) (i : Fin 10) : Interface :=
  let available := nodes.available.has (ifPosition i)
  let node := nodes.nodes i
  let iface :=
    if refreshRequiresClose (iface.inputs i).fd (iface.inputs i).node node available then
      iface.close (ifBit i)
    else iface
  iface.setInput i { iface.inputs i with available, node }

def refresh (iface : Interface) (scan : Except Int (List UdevEntry)) :
    Except Int Unit × Interface :=
  match refreshNodes iface.nodes scan with
  | .error errno => (.error errno, iface)
  | .ok nodes =>
      (.ok (), (List.finRange 10).foldl (refreshInput nodes) { iface with nodes })

/-- Forget every node once the controller itself is removed. -/
def leave (iface : Interface) : Interface :=
  let iface := { iface with gone := true, nodes.available := .empty }
  let iface := iface.close .all
  { iface with
      inputs := fun i => { iface.inputs i with available := false, node := none }
      nodes.nodes := fun _ => none }

/-- Receive the devices of the monitor up to one that makes an event. -/
def monitorEvents (iface : Interface) : List UdevEvent → Except Int (Option Event) × Interface
  | [] => (.ok none, iface)
  | event :: rest =>
      if event.action = some (literal "remove") ∧ event.syspath = some iface.syspath then
        if iface.gone then iface.monitorEvents rest
        else (.ok (some (lifecycleEvent .gone)), iface.leave)
      else
        match event.syspath with
        | none => iface.monitorEvents rest
        | some path =>
            if iface.gone || !inWatchScope iface.syspath path event.subsystem ||
                !(event.action == some (literal "add") ||
                  event.action == some (literal "change") ||
                  event.action == some (literal "remove")) then
              iface.monitorEvents rest
            else
              match iface.refresh event.scan with
              | (.error errno, next) => (.error errno, next)
              | (.ok (), next) =>
                  if iface.nodes.available = next.nodes.available ∧
                      iface.nodes.nodes = next.nodes.nodes then
                    next.monitorEvents rest
                  else (.ok (some (lifecycleEvent .watch)), next)

def monitorEvent (iface : Interface) (received : List UdevEvent) :
    Except Int (Option Event) × Interface :=
  if iface.monitor then iface.monitorEvents received else (.ok none, iface)

/-- An error of the monitor is only reported once it has nothing to receive. -/
def monitorEpollEvent (iface : Interface) (ep : EpollEvent) :
    Except Int (Option Event) × Interface :=
  let (result, iface) :=
    if ep.readable then iface.monitorEvent ep.received else (.ok none, iface)
  match result with
  | .error errno => (.error errno, iface)
  | .ok (some event) => (.ok (some event), iface)
  | .ok none => (if ep.broken then .error (-epipe) else .ok none, iface)

/-- A failed input is closed, and the nodes are looked up again. -/
def failureWatch (iface : Interface) (i : Fin 10) (scan : Except Int (List UdevEntry)) :
    Option Event × Interface :=
  (some (lifecycleEvent .watch), ((iface.close (ifBit i)).refresh scan).2)

/-- The first read that is not interrupted. -/
def readInput : List ReadAnswer → ReadAnswer
  | [] => .again
  | .interrupted :: rest => readInput rest
  | answer :: _ => answer

/-- Handle one event of an open input. -/
def receive (iface : Interface) (i : Fin 10) (ep : EpollEvent) (event : InputEvent) :
    Option Event × Interface :=
  let input := iface.inputs i
  if input.awaitingSync then
    if event.eventType ≠ evSyn ∨ event.code ≠ synReport then (none, iface)
    else
      match queryRecoveryState input.decoder.interface ep.state with
      | .error _ => iface.failureWatch i ep.scan
      | .ok (keys, abs) =>
          let input := { input with
            decoder := input.decoder.recover keys abs event.time, awaitingSync := false }
          (input.takeRecovered.1, iface.setInput i input.takeRecovered.2)
  else if event.eventType = evSyn ∧ event.code = synDropped then
    (none, iface.setInput i { (input.push event).2 with awaitingSync := true })
  else ((input.push event).1, iface.setInput i (input.push event).2)

def readOne (iface : Interface) (i : Fin 10) (ep : EpollEvent) : Option Event × Interface :=
  if (iface.inputs i).fd < 0 then (none, iface)
  else
    match readInput ep.reads with
    | .input event => iface.receive i ep event
    | .failed => iface.failureWatch i ep.scan
    | .again | .interrupted => (none, iface)

def inputSlot (n : Nat) : Fin 10 := ⟨n % 10, Nat.mod_lt n (by decide)⟩

/-- An event of an input moves the turn behind it. -/
def delivered (iface : Interface) (i : Fin 10) : Interface :=
  { iface with nextInput := (i.val + 1) % 10 }.signalRecoveryIfPending

/-- Look for a recovered event, from the input whose turn it is on. -/
def recoveredTurn (iface : Interface) : List Nat → Option Event × Interface
  | [] => (none, iface)
  | offset :: rest =>
      let i := inputSlot (iface.nextInput + offset)
      let taken := (iface.inputs i).takeRecovered
      match taken.1 with
      | some event => (some event, (iface.setInput i taken.2).delivered i)
      | none => (iface.setInput i taken.2).recoveredTurn rest

/-- Go through what is ready up to the first event. -/
def serveReady (iface : Interface) : List EpollEvent → Except Int Event × Interface
  | [] => (.error eagain, iface)
  | ep :: rest =>
      if ep.tag = monitorEpollTag then
        match iface.monitorEpollEvent ep with
        | (.error errno, next) => (.error errno.natAbs, next)
        | (.ok (some event), next) => (.ok event, next)
        | (.ok none, next) => next.serveReady rest
      else if ep.tag = recoveryEpollTag then iface.serveReady rest
      else
        match epollInputIndex ep.tag with
        | none => iface.serveReady rest
        | some i =>
            match iface.readOne i ep with
            | (some event, next) => (.ok event, next.delivered i)
            | (none, next) => next.serveReady rest

/-- The next event; recovered ones go before all others. -/
def dispatch (iface : Interface) (wait : Except Int (List EpollEvent)) :
    Except Int Event × Interface :=
  match iface.drainRecoveryWake.recoveredTurn (List.range 10) with
  | (some event, next) => (.ok event, next)
  | (none, next) =>
      match wait with
      | .error errno => (.error (if errno = eintr then eagain else errno), next)
      | .ok ready => next.serveReady (ready.take 32)

/-- Switch the monitor; an answer decides whether it can be had. -/
def watch (iface : Interface) (enabled : Bool) (answer : Except Int Unit) :
    Except Int Unit × Interface :=
  if !enabled then (.ok (), { iface with monitor := false })
  else if iface.monitor then (.ok (), iface)
  else
    match answer with
    | .error errno => (.error errno, iface)
    | .ok () => (.ok (), { iface with monitor := true })

/-- A controller with nothing open, before its nodes are looked up. -/
def fresh (syspath : List UInt8) : Interface where
  syspath := syspath
  inputs := InputInterface.new
  nodes := .default
  monitor := false
  rumbleFd := -1
  rumbleId := -1
  wake := 0
  nextInput := 0
  gone := false

/-- The controller of a device found by udev. -/
def new (syspath : List UInt8) (scan : Except Int (List UdevEntry)) : Except Int Interface :=
  match (fresh syspath).refresh scan with
  | (.error errno, _) => .error errno.natAbs
  | (.ok (), iface) => .ok iface

end Interface

end Device

end Hid

end Wiiland
