import Sne.Srpc.RpcTypes

/-!
# RPC commands and their dispatch

`RpcCommand.cpp`, `RpcNetwork.cpp`, `RpcReceiver.cpp` and the functors. A command
is an id and its parameters. A receiver has the events of its class, and copies
them the first time it handles a message. An event keeps its parameters from one
call to the next. A call of a method is recorded with the receiver and what it was
given.
-/

namespace Sne.Srpc

open Sne.Core Sne.Library.Exec

set_option autoImplicit false

abbrev RpcId := UInt32

def Arguments : List RpcType → Type
  | [] => Unit
  | type :: rest => type.Value × Arguments rest

namespace Arguments

def initial : (types : List RpcType) → Arguments types
  | [] => ()
  | type :: rest => (type.initial, initial rest)

/-- `ForwardingFunctorT::marshal`. -/
def write {σ : Type} [OStream σ] : (types : List RpcType) → Arguments types → StreamM σ Unit
  | [], _ => pure ()
  | type :: rest, arguments => do
      type.write arguments.1
      write rest arguments.2

/-- `ReceivingFunctorT::unmarshal`. -/
def read {σ : Type} [IStream σ] (less : RpcType.Less) :
    (types : List RpcType) → Arguments types → StreamM σ (Arguments types)
  | [], arguments => pure arguments
  | type :: rest, arguments => do
      let first ← type.read less arguments.1
      let others ← read less rest arguments.2
      pure (first, others)

end Arguments

/-- The functors exist for at most this many parameters. -/
def maxParameterCount : Nat := 8

structure RpcCommand where
  rpcId : RpcId
  types : List RpcType
  arguments : Arguments types
  few : types.length ≤ maxParameterCount

def RpcCommand.marshal {σ : Type} [OStream σ] (command : RpcCommand) : StreamM σ Unit := do
  OStream.writeUInt32 command.rpcId 32
  Arguments.write command.types command.arguments
  OStream.align

structure RpcEvent where
  rpcId : RpcId
  types : List RpcType
  arguments : Arguments types

def RpcEvent.clone (event : RpcEvent) : RpcEvent :=
  { event with arguments := Arguments.initial event.types }

abbrev RpcEventMap := List RpcEvent

namespace RpcEventMap

def getRpcEvent (events : RpcEventMap) (rpcId : RpcId) : Option RpcEvent :=
  events.find? fun event => event.rpcId == rpcId

/-- `emplace` keeps an event with the same id. -/
def insert (events : RpcEventMap) (event : RpcEvent) : RpcEventMap :=
  if (events.getRpcEvent event.rpcId).isSome then events else events ++ [event]

/-- What `unmarshal` stores in the event's parameters. -/
def store (event : RpcEvent) (arguments : Arguments event.types) (events : RpcEventMap) : RpcEventMap :=
  events.map fun other => if other.rpcId == event.rpcId then { event with arguments } else other

end RpcEventMap

structure RpcReceiver where
  defaultEventMap : RpcEventMap
  eventMap : RpcEventMap

namespace RpcReceiver

def shouldCloneRpcEvents (receiver : RpcReceiver) : Bool := receiver.eventMap.isEmpty

def cloneRpcEvents (receiver : RpcReceiver) : RpcReceiver :=
  { receiver with
    eventMap := receiver.defaultEventMap.foldl (fun events event => events.insert event.clone)
      receiver.eventMap }

end RpcReceiver

abbrev RpcHint := Nat

/-- The call of a method: the receiver's place in the network and what it was given. -/
structure Invocation where
  receiver : Nat
  rpcId : RpcId
  types : List RpcType
  arguments : Arguments types
  rpcHint : RpcHint

/-- A network with the stream that it reads and the calls that it has made. -/
structure RpcNetwork (σ : Type) where
  receivers : List RpcReceiver
  istream : σ
  calls : List Invocation

namespace RpcNetwork

variable {σ : Type} [IStream σ]

def onStream {α : Type} (program : StreamM σ α) : StreamM (RpcNetwork σ) α :=
  focus (fun network => network.istream) (fun network istream => { network with istream }) program

def setReceiver (index : Nat) (receiver : RpcReceiver) (network : RpcNetwork σ) : RpcNetwork σ :=
  { network with receivers := network.receivers.set index receiver }

/-- `RpcReceiver::handleEvent` with `RpcEvent::dispatch`. -/
def handleEvent (less : RpcType.Less) (index : Nat) (receiver : RpcReceiver) (event : RpcEvent)
    (rpcHint : RpcHint) : StreamM (RpcNetwork σ) Bool := do
  let arguments ← onStream (Arguments.read less event.types event.arguments)
  modify (setReceiver index { receiver with eventMap := receiver.eventMap.store event arguments })
  modify fun network => { network with calls := network.calls ++
    [{ receiver := index, rpcId := event.rpcId, types := event.types, arguments, rpcHint }] }
  onStream IStream.align
  pure true

def handle (less : RpcType.Less) (index : Nat) (receiver : RpcReceiver) (rpcId : RpcId)
    (rpcHint : RpcHint) : StreamM (RpcNetwork σ) Bool := do
  let receiver := if receiver.shouldCloneRpcEvents then receiver.cloneRpcEvents else receiver
  modify (setReceiver index receiver)
  match receiver.eventMap.getRpcEvent rpcId with
  | none => pure false
  | some event => handleEvent less index receiver event rpcHint

/-- The loop of `handleMessage` from a place in the list of receivers. -/
def handleFrom (less : RpcType.Less) (rpcId : RpcId) (rpcHint : RpcHint) :
    Nat → List RpcReceiver → StreamM (RpcNetwork σ) Bool
  | _, [] => pure false
  | index, receiver :: rest => do
      let handled ← handle less index receiver rpcId rpcHint
      if handled then pure true else handleFrom less rpcId rpcHint (index + 1) rest

def handleMessage (less : RpcType.Less) (rpcId : RpcId) (rpcHint : RpcHint) :
    StreamM (RpcNetwork σ) Bool := do
  let network ← get
  handleFrom less rpcId rpcHint 0 network.receivers

def unknownRpcMethod (rpcId : RpcId) : Exception :=
  .unknownRpcMethod ("Unknown RPC(Id: " ++ toString rpcId.toNat ++ ")")

def onReceive (less : RpcType.Less) (rpcHint : RpcHint) : StreamM (RpcNetwork σ) Unit := do
  let rpcId ← onStream (IStream.readUInt32 32)
  let handled ← handleMessage less rpcId rpcHint
  require handled (unknownRpcMethod rpcId)

def receiveEach (less : RpcType.Less) : List RpcHint → StreamM (RpcNetwork σ) Unit
  | [] => pure ()
  | rpcHint :: rest => do
      onReceive less rpcHint
      receiveEach less rest

end RpcNetwork

end Sne.Srpc
