import Mathlib.Logic.Function.Basic
import Sne.Base.MemoryPool
import Sne.Session.TcpSessionImpl

/-!
# Accepting and connecting sessions

`IoContextAcceptor.cpp` and `IoContextConnector.cpp` with the pool of a
`CachedSessionManager`. Both acquire a session, start an operation on its socket and
decide in the handler of the operation whether the session is opened or goes back to the
manager. A session that was opened goes back when its posted disconnect closes it. The
state records the calls of `acquire` and `release` of the manager. A `remote_endpoint()` or
`set_option` that throws leaves the event loop of its thread and ends the process, which is
no state of this model.
-/

namespace Sne.Session

open Sne.Base Sne.Sgp Sne.Library.Runs

set_option autoImplicit false

/-- An `async_accept` or `async_connect` whose handler has not run. -/
inductive Operation where
  | accept (session : Nat)
  | connect (session connectionIndex : Nat)
  deriving DecidableEq, Repr

def Operation.session : Operation → Nat
  | accept session => session
  | connect session _ => session

inductive ManagerRecord where
  | acquired (session : Nat)
  | released (session : Nat)
  deriving DecidableEq, Repr

/-- What the validator and `onConnected` say to a connection. -/
structure Answers where
  isValidated : Bool := true
  onConnected : Bool := true

structure IoContextSessions (μ : Type) where
  manager : MemoryPool
  sessions : Nat → TcpSessionImpl μ
  connectionCount : Nat
  operations : List Operation := []
  shouldAcceptorFinish : Bool := false
  shouldConnectorFinish : Bool := false
  history : List ManagerRecord := []

namespace IoContextSessions

variable {μ : Type} [Marshaller μ]

def onSession (session : Nat) (change : TcpSessionImpl μ → TcpSessionImpl μ)
    (state : IoContextSessions μ) : IoContextSessions μ :=
  { state with sessions := Function.update state.sessions session (change (state.sessions session)) }

def acquire (state : IoContextSessions μ) : Option (Nat × IoContextSessions μ) :=
  state.manager.acquire.map fun (session, manager) =>
    (session, { state with manager, history := state.history ++ [.acquired session] })

def release (session : Nat) (state : IoContextSessions μ) : IoContextSessions μ :=
  { state with
    manager := state.manager.release session
    history := state.history ++ [.released session] }

def accept (state : IoContextSessions μ) : Option (IoContextSessions μ) :=
  state.acquire.map fun (session, state) =>
    { state with operations := state.operations ++ [.accept session] }

/-- `async_connect` closes the socket and opens it for the first endpoint. -/
def connect (connectionIndex : Nat) (state : IoContextSessions μ) : Option (IoContextSessions μ) :=
  state.acquire.map fun (session, state) =>
    { state.onSession session fun impl => { impl with isSocketOpen := true } with
      operations := state.operations ++ [.connect session connectionIndex] }

def initializeSession (session : Nat) (onConnected : Bool) (state : IoContextSessions μ) :
    IoContextSessions μ :=
  state.onSession session fun impl =>
    if onConnected then impl.sessionOpened else impl.sessionOpened.disconnect

/-- The handler of `async_accept`. The accepted socket is assigned to the session before. -/
def acceptCompleted (session : Nat) (error : ErrorCode) (answers : Answers)
    (state : IoContextSessions μ) :
    Option (IoContextSessions μ) :=
  let state :=
    if error = .success then
      let state := state.onSession session fun impl => { impl with isSocketOpen := true }
      if state.shouldAcceptorFinish then
        state.release session
      else if !answers.isValidated then
        (state.onSession session TcpSessionImpl.disconnect).release session
      else
        state.initializeSession session answers.onConnected
    else
      state.release session
  if state.shouldAcceptorFinish then some state else state.accept

/-- The handler of `async_connect`. -/
def connectCompleted (session connectionIndex : Nat) (error : ErrorCode) (answers : Answers)
    (state : IoContextSessions μ) : Option (IoContextSessions μ) :=
  let state :=
    if error = .success then
      if state.shouldConnectorFinish then
        state.release session
      else
        state.initializeSession session answers.onConnected
    else if error = .operationAborted then
      state.release session
    else
      (state.onSession session TcpSessionImpl.disconnect).release session
  if !state.shouldConnectorFinish && decide (connectionIndex + 1 < state.connectionCount) then
    state.connect (connectionIndex + 1)
  else
    some state

def complete (error : ErrorCode) (answers : Answers) :
    Operation → IoContextSessions μ → Option (IoContextSessions μ)
  | .accept session => acceptCompleted session error answers
  | .connect session connectionIndex => connectCompleted session connectionIndex error answers

/-- What asio says of the socket when an operation has completed: a connection is not accepted
into an open socket, and `async_connect` leaves the socket open unless somebody has closed it,
which aborts it. -/
def canComplete (error : ErrorCode) (state : IoContextSessions μ) : Operation → Bool
  | .accept session => decide (error ≠ .success) || !(state.sessions session).isConnected
  | .connect session _ => decide (error = .operationAborted) == !(state.sessions session).isConnected

def callsRelease (before after : TcpSessionImpl μ) : Bool :=
  (after.events.drop before.events.length).contains .release

def sessionStepped (session : Nat) (next : TcpSessionImpl μ) (state : IoContextSessions μ) :
    IoContextSessions μ :=
  let stepped := state.onSession session fun _ => next
  if callsRelease (state.sessions session) next then stepped.release session else stepped

inductive Label where
  | acceptorOpened
  | connectorOpened
  | acceptorClosed
  | connectorClosed
  | completed (index : Nat) (error : ErrorCode) (answers : Answers)
  | session (session : Nat) (label : TcpSessionImpl.Label)

def advance (state : IoContextSessions μ) : Label → Option (IoContextSessions μ)
  | .acceptorOpened => if state.shouldAcceptorFinish then none else state.accept
  | .connectorOpened => if state.shouldConnectorFinish then none else state.connect 0
  | .acceptorClosed => some { state with shouldAcceptorFinish := true }
  | .connectorClosed => some { state with shouldConnectorFinish := true }
  | .completed index error answers => (state.operations[index]?).bind fun operation =>
      if state.canComplete error operation then
        complete error answers operation { state with operations := state.operations.eraseIdx index }
      else
        none
  | .session session label => ((state.sessions session).advance label).map fun next =>
      state.sessionStepped session next

/-- Operations complete and sessions make steps in any order. The handlers that one session has
posted run in the order of their posts. -/
def Step (state : IoContextSessions μ) (label : Label) (next : IoContextSessions μ) : Prop :=
  state.advance label = some next

def create (poolSize connectionCount : Nat) (now : TimePoint) (marshaller : μ)
    (maxPendablePacketCount : Nat) : IoContextSessions μ :=
  { manager := .create poolSize
    sessions := fun _ => .create now marshaller maxPendablePacketCount
    connectionCount }

end IoContextSessions

end Sne.Session
