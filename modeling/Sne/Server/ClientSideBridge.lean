import Sne.Session.TcpSessionImpl

/-!
# The link to another server

`ClientSideBridge.cpp` and what `ClientSideProxy.cpp` calls of it. The connector makes
attempts to connect a socket of its own and waits between them, and opens the session of
the bridge when an attempt succeeds. Whatever ends an attempt otherwise, and whatever ends
the session, makes it wait for the next one. The state records what the connector starts.
-/

namespace Sne.Server

open Sne.Base Sne.Session Sne.Sgp Sne.Library.Runs

set_option autoImplicit false

structure InetAddress where
  port : UInt16
  address : List UInt8
  deriving DecidableEq, Repr

/-- A connection that was established, with the number of its descriptor. -/
structure Connection where
  descriptor : Nat
  remoteAddr : InetAddress
  deriving DecidableEq, Repr

/-- An `async_connect` whose handler has not run. Closing the socket aborts it. -/
structure ConnectAttempt where
  isAborted : Bool
  deriving DecidableEq, Repr

/-- What the connector does, and the calls that it does it for. For the session that it opens,
it is the connection that was just made and the one that the session reads and writes. -/
inductive LinkEvent where
  | bridged
  | cancelled
  | connectStarted
  | timerArmed
  | sessionOpened (connected used : Option Connection)
  deriving DecidableEq, Repr

namespace LinkEvent

def isActivity : LinkEvent → Bool
  | .bridged => false
  | .cancelled => false
  | .connectStarted => true
  | .timerArmed => true
  | .sessionOpened _ _ => true

def follow (isCancelled : Bool) : LinkEvent → Bool
  | .bridged => false
  | .cancelled => true
  | _ => isCancelled

def isCancelled (history : List LinkEvent) : Bool := history.foldl follow false

theorem is_cancelled_concat (history : List LinkEvent) (event : LinkEvent) :
    isCancelled (history ++ [event]) = event.follow (isCancelled history) := by
  rw [isCancelled, List.foldl_append]
  rfl

end LinkEvent

def ClientSideBridgeConnector.initialRetryDelay : Nat := 500

def ClientSideBridgeConnector.maxRetryDelay : Nat := 7000

structure ClientSideBridgeConnector where
  socket : Option Connection := none
  remoteAddr : InetAddress := { port := 0, address := [] }
  retryDelay : Nat := ClientSideBridgeConnector.initialRetryDelay
  reconnectTimer : AsioTimer := {}
  attempts : List ConnectAttempt := []

namespace ClientSideBridgeConnector

def closeSocket (connector : ClientSideBridgeConnector) : ClientSideBridgeConnector :=
  { connector with
    socket := none
    attempts := connector.attempts.map fun attempt => { attempt with isAborted := true } }

/-- What is outstanding: the attempts and the waits whose handler has not run. -/
def outstanding (connector : ClientSideBridgeConnector) : Nat :=
  connector.attempts.length + connector.reconnectTimer.waits.length

end ClientSideBridgeConnector

/-- A bridge with its connector. `socket` is the connection of the socket of `TcpSessionImpl`, which
is open while the session is connected. -/
structure ClientSideBridge (μ : Type) where
  impl : TcpSessionImpl μ
  socket : Option Connection := none
  connector : ClientSideBridgeConnector := {}
  isShuttingDown : Bool := false
  nextDescriptor : Nat := 0
  history : List LinkEvent := []

namespace ClientSideBridge

variable {μ : Type} [Marshaller μ]

def record (event : LinkEvent) (bridge : ClientSideBridge μ) : ClientSideBridge μ :=
  { bridge with history := bridge.history ++ [event] }

section Connector

def cancel (bridge : ClientSideBridge μ) : ClientSideBridge μ :=
  let connector := { bridge.connector with reconnectTimer := bridge.connector.reconnectTimer.cancel }
  { bridge with connector := connector.closeSocket }.record .cancelled

def reconnect (bridge : ClientSideBridge μ) : ClientSideBridge μ :=
  { bridge with
    connector := { bridge.connector with
      retryDelay := min (bridge.connector.retryDelay * 2) ClientSideBridgeConnector.maxRetryDelay
      reconnectTimer := bridge.connector.reconnectTimer.once } }.record .timerArmed

/-- The private `connect`. `resolve` throws when there is no endpoint. The socket is closed before it
is connected to an endpoint. -/
def connect (resolves : Bool) (bridge : ClientSideBridge μ) : ClientSideBridge μ :=
  if resolves then
    let connector := bridge.connector.closeSocket
    { bridge with
      connector := { connector with
        attempts := connector.attempts ++ [ConnectAttempt.mk false] } }.record .connectStarted
  else
    bridge

/-- `Session::initialize`. To set the options of a socket that is not open throws. -/
def initializeSession (bridge : ClientSideBridge μ) : ClientSideBridge μ :=
  let bridge := bridge.record (.sessionOpened bridge.connector.socket bridge.socket)
  if bridge.impl.isConnected then { bridge with impl := bridge.impl.sessionOpened } else bridge

def takeAttempt (index : Nat) (bridge : ClientSideBridge μ) : ClientSideBridge μ :=
  { bridge with
    connector := { bridge.connector with attempts := bridge.connector.attempts.eraseIdx index } }

def socketConnected (bridge : ClientSideBridge μ) : ClientSideBridge μ :=
  { bridge with
    connector := { bridge.connector with
      socket := some { descriptor := bridge.nextDescriptor, remoteAddr := bridge.connector.remoteAddr } }
    nextDescriptor := bridge.nextDescriptor + 1 }

/-- The handler of `async_connect`. -/
def connectHandler (error : ErrorCode) (bridge : ClientSideBridge μ) : ClientSideBridge μ :=
  if error = .success then
    { bridge with
      connector := { bridge.connector with
        retryDelay := ClientSideBridgeConnector.initialRetryDelay } }.initializeSession
  else
    bridge.reconnect

def timerMember : TimerMember (ClientSideBridge μ) where
  timer bridge := bridge.connector.reconnectTimer
  put reconnectTimer bridge := { bridge with connector := { bridge.connector with reconnectTimer } }

end Connector

def bridge (remoteAddr : InetAddress) (resolves : Bool) (bridge : ClientSideBridge μ) :
    ClientSideBridge μ :=
  ({ bridge with connector := { bridge.connector with remoteAddr } }.record .bridged).connect resolves

def cancelConnection (bridge : ClientSideBridge μ) : ClientSideBridge μ := bridge.cancel

def onDisconnected (bridge : ClientSideBridge μ) : ClientSideBridge μ :=
  if !bridge.isShuttingDown then bridge.reconnect else bridge

/-- The destructor. -/
def shutDown (bridge : ClientSideBridge μ) : ClientSideBridge μ :=
  let bridge := { bridge with isShuttingDown := true }.cancel
  { bridge with impl := bridge.impl.disconnect }

def proxyDisconnect (bridge : ClientSideBridge μ) : ClientSideBridge μ :=
  { bridge with impl := bridge.impl.disconnect }.cancelConnection

/-- `Session::connect`, which connects the socket of `TcpSessionImpl` itself. -/
def sessionConnect (remoteAddr : InetAddress) (bridge : ClientSideBridge μ) : ClientSideBridge μ :=
  { bridge with
    impl := bridge.impl.sessionOpened
    socket := some { descriptor := bridge.nextDescriptor, remoteAddr }
    nextDescriptor := bridge.nextDescriptor + 1 }

def transported (impl : TcpSessionImpl μ) (bridge : ClientSideBridge μ) : ClientSideBridge μ :=
  if bridge.impl.isConnected && !impl.isConnected then
    { bridge with impl, socket := none }.onDisconnected
  else
    { bridge with impl }

inductive Label where
  | bridge (remoteAddr : InetAddress) (resolves : Bool)
  | connectCompleted (index : Nat) (error : ErrorCode)
  | timerExpires (index : Nat)
  | timerHandler (index : Nat) (resolves : Bool)
  | cancelConnection
  | proxyDisconnect
  | shutDown
  | sessionConnect (remoteAddr : InetAddress)
  | transport (label : TcpSessionImpl.Label)

/-- The error code of an attempt is that of an aborted operation exactly when it was aborted. -/
def advance (bridge : ClientSideBridge μ) : Label → Option (ClientSideBridge μ)
  | .bridge remoteAddr resolves => some (bridge.bridge remoteAddr resolves)
  | .connectCompleted index error =>
      match bridge.connector.attempts[index]? with
      | some attempt =>
          if attempt.isAborted = decide (error = .operationAborted) then
            let bridge := bridge.takeAttempt index
            some ((if error = .success then bridge.socketConnected else bridge).connectHandler error)
          else
            none
      | none => none
  | .timerExpires index => some (timerMember.modify (AsioTimer.expire index) bridge)
  | .timerHandler index resolves => timerMember.deliver (connect resolves) index bridge
  | .cancelConnection => some bridge.cancelConnection
  | .proxyDisconnect => some bridge.proxyDisconnect
  | .shutDown => some bridge.shutDown
  | .sessionConnect remoteAddr =>
      if bridge.impl.isConnected then none else some (bridge.sessionConnect remoteAddr)
  | .transport label => (bridge.impl.advance label).map fun impl => bridge.transported impl

def Step (bridge : ClientSideBridge μ) (label : Label) (next : ClientSideBridge μ) : Prop :=
  bridge.advance label = some next

/-- After a cancellation nothing is started until the link is bridged again, one operation is
outstanding at most, and a session that was opened uses the connection that was made for it. -/
structure Orderly (bridge : ClientSideBridge μ) : Prop where
  cancelled : Throughout (fun before event => event.isActivity = true → LinkEvent.isCancelled before = false)
    bridge.history
  single : bridge.connector.outstanding ≤ 1
  ownConnection : ∀ connected used, .sessionOpened connected used ∈ bridge.history → used = connected

/-- The link is bridged while nothing is outstanding and cancelled while no attempt is; no attempt
succeeds; and the session is closed while nothing is outstanding and the link is not cancelled. -/
def Undisturbed (bridge : ClientSideBridge μ) : Label → Prop
  | .bridge _ resolves => resolves = true → bridge.connector.outstanding = 0
  | .connectCompleted _ error => error ≠ .success
  | .cancelConnection => bridge.connector.attempts = []
  | .proxyDisconnect => bridge.connector.attempts = []
  | .shutDown => bridge.connector.attempts = []
  | .transport label => label.isHandler = true → bridge.impl.closesNext = true →
      bridge.isShuttingDown = false → bridge.connector.outstanding = 0 ∧
        LinkEvent.isCancelled bridge.history = false
  | .timerExpires _ => True
  | .timerHandler _ _ => True
  | .sessionConnect _ => True

instance (bridge : ClientSideBridge μ) (label : Label) : Decidable (bridge.Undisturbed label) :=
  match label with
  | .bridge _ _ => inferInstanceAs (Decidable (_ → _))
  | .connectCompleted _ error => inferInstanceAs (Decidable (error ≠ .success))
  | .cancelConnection => inferInstanceAs (Decidable (bridge.connector.attempts = []))
  | .proxyDisconnect => inferInstanceAs (Decidable (bridge.connector.attempts = []))
  | .shutDown => inferInstanceAs (Decidable (bridge.connector.attempts = []))
  | .transport _ => inferInstanceAs (Decidable (_ → _ → _ → _ ∧ _))
  | .timerExpires _ => .isTrue trivial
  | .timerHandler _ _ => .isTrue trivial
  | .sessionConnect _ => .isTrue trivial

structure Invariant (bridge : ClientSideBridge μ) : Prop where
  orderly : bridge.Orderly
  kinds : ∀ kind ∈ bridge.connector.reconnectTimer.waits.map Wait.kind, kind = .once
  stopped : LinkEvent.isCancelled bridge.history = true →
    bridge.connector.attempts = [] ∧ bridge.connector.reconnectTimer.isRunning = false

section Steps

omit [Marshaller μ]

theorem Invariant.frame {bridge next : ClientSideBridge μ} (invariant : bridge.Invariant)
    (connector : next.connector = bridge.connector) (history : next.history = bridge.history) :
    next.Invariant := by
  rcases invariant with ⟨⟨cancelled, single, ownConnection⟩, kinds, stopped⟩
  rw [← connector] at single kinds stopped
  rw [← history] at cancelled ownConnection stopped
  exact ⟨⟨cancelled, single, ownConnection⟩, kinds, stopped⟩

theorem Invariant.settle {bridge : ClientSideBridge μ} (invariant : bridge.Invariant) {timer : AsioTimer}
    (kinds : (timer.waits.map Wait.kind).Sublist (bridge.connector.reconnectTimer.waits.map Wait.kind))
    (running : timer.isRunning = true → bridge.connector.reconnectTimer.isRunning = true) :
    (timerMember.put timer bridge).Invariant := by
  have fewer := kinds.length_le
  rw [List.length_map, List.length_map] at fewer
  refine ⟨⟨invariant.orderly.cancelled, ?_, invariant.orderly.ownConnection⟩, ?_, ?_⟩
  · exact Nat.le_trans (Nat.add_le_add_left fewer _) invariant.orderly.single
  · intro kind member
    exact invariant.kinds kind (kinds.subset member)
  · intro cancelled
    rcases invariant.stopped cancelled with ⟨idle, halted⟩
    refine ⟨idle, ?_⟩
    apply Bool.eq_false_iff.mpr
    intro runs
    exact absurd (halted.symm.trans (running runs)) Bool.false_ne_true

theorem Orderly.record {bridge next : ClientSideBridge μ} (orderly : bridge.Orderly) (event : LinkEvent)
    (history : next.history = bridge.history ++ [event])
    (allowed : event.isActivity = true → LinkEvent.isCancelled bridge.history = false)
    (single : next.connector.outstanding ≤ 1)
    (other : ∀ connected used, LinkEvent.sessionOpened connected used ≠ event) : next.Orderly := by
  refine ⟨?_, single, ?_⟩
  · rw [history]
    exact (throughout_concat _ _ _).mpr ⟨orderly.cancelled, allowed⟩
  · intro connected used member
    rw [history, List.mem_append, List.mem_singleton] at member
    cases member with
    | inl earlier => exact orderly.ownConnection connected used earlier
    | inr last => exact absurd last (other connected used)

theorem cancel_invariant {bridge : ClientSideBridge μ} (invariant : bridge.Invariant)
    (idle : bridge.connector.attempts = []) : bridge.cancel.Invariant := by
  have kinds := AsioTimer.cancel_kind bridge.connector.reconnectTimer
  have same := congrArg List.length kinds
  rw [List.length_map, List.length_map] at same
  have none : bridge.cancel.connector.attempts = [] := by
    simp only [cancel, record, ClientSideBridgeConnector.closeSocket, idle, List.map_nil]
  refine ⟨invariant.orderly.record .cancelled rfl nofun ?_ nofun, ?_, ?_⟩
  · have single := invariant.orderly.single
    rw [ClientSideBridgeConnector.outstanding, idle] at single
    rw [ClientSideBridgeConnector.outstanding, none]
    exact Nat.le_trans (Nat.le_of_eq (congrArg (0 + ·) same)) single
  · intro kind member
    apply invariant.kinds kind
    rw [← kinds]
    exact member
  · intro _
    exact ⟨none, rfl⟩

theorem outstanding_none {connector : ClientSideBridgeConnector} (idle : connector.outstanding = 0) :
    connector.attempts = [] ∧ connector.reconnectTimer.waits = [] := by
  unfold ClientSideBridgeConnector.outstanding at idle
  exact ⟨List.length_eq_zero_iff.mp (by omega), List.length_eq_zero_iff.mp (by omega)⟩

theorem reconnect_invariant {bridge : ClientSideBridge μ} (invariant : bridge.Invariant)
    (idle : bridge.connector.outstanding = 0) (wanted : LinkEvent.isCancelled bridge.history = false) :
    bridge.reconnect.Invariant := by
  rcases outstanding_none idle with ⟨attempts, waits⟩
  have armed : bridge.reconnect.connector.reconnectTimer.waits =
      [{ kind := .once, status := .waiting }] := by
    simp only [reconnect, record, AsioTimer.once, AsioTimer.asyncWait, waits, List.map_nil, List.nil_append]
  refine ⟨invariant.orderly.record .timerArmed rfl (fun _ => wanted) ?_ nofun, ?_, ?_⟩
  · have same : bridge.reconnect.connector.attempts = [] := attempts
    rw [ClientSideBridgeConnector.outstanding, armed, same]
    decide
  · rw [armed]
    intro kind member
    exact List.mem_singleton.mp member
  · intro cancelled
    have same : bridge.reconnect.history = bridge.history ++ [.timerArmed] := rfl
    rw [same, LinkEvent.is_cancelled_concat] at cancelled
    exact absurd (wanted.symm.trans cancelled) Bool.false_ne_true

theorem connect_invariant {bridge : ClientSideBridge μ} (invariant : bridge.Invariant) {resolves : Bool}
    (idle : resolves = true → bridge.connector.outstanding = 0)
    (wanted : LinkEvent.isCancelled bridge.history = false) : (bridge.connect resolves).Invariant := by
  cases resolves with
  | false => exact invariant
  | true =>
      rcases outstanding_none (idle rfl) with ⟨attempts, waits⟩
      have started : (bridge.connect true).connector.attempts = [ConnectAttempt.mk false] := by
        simp [connect, record, ClientSideBridgeConnector.closeSocket, attempts]
      have timer : (bridge.connect true).connector.reconnectTimer.waits = [] := waits
      refine ⟨invariant.orderly.record .connectStarted rfl (fun _ => wanted) ?_ nofun, ?_, ?_⟩
      · rw [ClientSideBridgeConnector.outstanding, started, timer]
        decide
      · rw [timer]
        nofun
      · intro cancelled
        have same : (bridge.connect true).history = bridge.history ++ [.connectStarted] := rfl
        rw [same, LinkEvent.is_cancelled_concat] at cancelled
        exact absurd (wanted.symm.trans cancelled) Bool.false_ne_true

theorem bridge_invariant {bridge : ClientSideBridge μ} (invariant : bridge.Invariant)
    (remoteAddr : InetAddress) {resolves : Bool}
    (idle : resolves = true → bridge.connector.outstanding = 0) :
    (bridge.bridge remoteAddr resolves).Invariant := by
  have unwanted : LinkEvent.isCancelled (bridge.history ++ [.bridged]) = false :=
    LinkEvent.is_cancelled_concat bridge.history .bridged
  have bridged : ({ bridge with connector := { bridge.connector with remoteAddr } }.record
      .bridged).Invariant := by
    refine ⟨invariant.orderly.record .bridged rfl nofun invariant.orderly.single nofun,
      invariant.kinds, ?_⟩
    intro cancelled
    exact absurd (unwanted.symm.trans cancelled) Bool.false_ne_true
  exact connect_invariant bridged idle unwanted

theorem stop_invariant {bridge : ClientSideBridge μ} (invariant : bridge.Invariant) :
    (timerMember.stop bridge).Invariant :=
  invariant.settle (List.Sublist.refl _) nofun

theorem timer_handler_invariant {bridge next : ClientSideBridge μ} {index : Nat} {resolves : Bool}
    (invariant : bridge.Invariant)
    (delivered : timerMember.deliver (connect resolves) index bridge = some next) : next.Invariant := by
  rcases timerMember.deliver_cases delivered with ⟨wait, error, found, _, same⟩
  have once : wait.kind = .once :=
    invariant.kinds wait.kind (List.mem_map_of_mem (List.mem_of_getElem? found))
  have taken : (timerMember.modify (fun timer => { timer with waits := timer.waits.eraseIdx index })
      bridge).Invariant :=
    invariant.settle ((List.eraseIdx_sublist _ index).map Wait.kind) fun running => running
  -- the wait was the only operation that was outstanding
  have idle : (timerMember.modify (fun timer => { timer with waits := timer.waits.eraseIdx index })
      bridge).connector.outstanding = 0 := by
    have inside := (List.getElem?_eq_some_iff.mp found).1
    have single := invariant.orderly.single
    have fewer : (bridge.connector.reconnectTimer.waits.eraseIdx index).length =
        bridge.connector.reconnectTimer.waits.length - 1 := List.length_eraseIdx_of_lt inside
    simp only [timerMember, TimerMember.modify, ClientSideBridgeConnector.outstanding]
      at fewer inside single ⊢
    omega
  rw [same, once]
  generalize timerMember.modify (fun timer => { timer with waits := timer.waits.eraseIdx index }) bridge =
    erased at taken idle
  unfold TimerMember.handleCompletion TimerMember.handleTimeout
  dsimp only
  split
  · rename_i expired
    rw [Bool.and_eq_true] at expired
    have wanted : LinkEvent.isCancelled erased.history = false := by
      apply Bool.eq_false_iff.mpr
      intro cancelled
      exact absurd ((taken.stopped cancelled).2.symm.trans expired.2) Bool.false_ne_true
    exact stop_invariant (connect_invariant (stop_invariant taken) (fun _ => idle) wanted)
  · exact stop_invariant taken

theorem connect_completed_invariant {bridge : ClientSideBridge μ} {index : Nat}
    {attempt : ConnectAttempt}
    (invariant : bridge.Invariant) (found : bridge.connector.attempts[index]? = some attempt) :
    (bridge.takeAttempt index).reconnect.Invariant := by
  have inside := (List.getElem?_eq_some_iff.mp found).1
  have single := invariant.orderly.single
  have fewer : (bridge.connector.attempts.eraseIdx index).length = bridge.connector.attempts.length - 1 :=
    List.length_eraseIdx_of_lt inside
  have wanted : LinkEvent.isCancelled bridge.history = false := by
    apply Bool.eq_false_iff.mpr
    intro cancelled
    rw [(invariant.stopped cancelled).1] at inside
    exact absurd inside (Nat.not_lt_zero _)
  unfold ClientSideBridgeConnector.outstanding at single
  have idle : (bridge.takeAttempt index).connector.outstanding = 0 := by
    simp only [ClientSideBridgeConnector.outstanding, takeAttempt]
    omega
  have taken : (bridge.takeAttempt index).Invariant := by
    refine ⟨⟨invariant.orderly.cancelled, ?_, invariant.orderly.ownConnection⟩, invariant.kinds, ?_⟩
    · exact Nat.le_trans (Nat.le_of_eq idle) (Nat.zero_le _)
    · intro cancelled
      exact absurd (wanted.symm.trans cancelled) Bool.false_ne_true
  exact reconnect_invariant taken idle wanted

end Steps

theorem transported_invariant {bridge : ClientSideBridge μ} {impl : TcpSessionImpl μ}
    {label : TcpSessionImpl.Label} (invariant : bridge.Invariant)
    (step : TcpSessionImpl.Step bridge.impl label impl)
    (undisturbed : bridge.Undisturbed (.transport label)) :
    (bridge.transported impl).Invariant := by
  have closed : { bridge with impl, socket := none }.Invariant := invariant.frame rfl rfl
  unfold transported
  split
  · rename_i closing
    rw [Bool.and_eq_true, Bool.not_eq_true'] at closing
    unfold onDisconnected
    split
    · rename_i living
      rcases step.connection with closes | stays
      · have allowed := undisturbed closes.isHandler closes.closesNext
          ((Bool.not_eq_true' _).mp living)
        exact reconnect_invariant closed allowed.1 allowed.2
      · have still := stays.isConnected.trans closing.1
        exact absurd (closing.2.symm.trans still) Bool.false_ne_true
    · exact closed
  · exact invariant.frame rfl rfl

theorem Step.invariant {bridge next : ClientSideBridge μ} {label : Label} (step : Step bridge label next)
    (undisturbed : bridge.Undisturbed label) (invariant : bridge.Invariant) : next.Invariant := by
  unfold Step at step
  cases label with
  | bridge remoteAddr resolves =>
      cases step
      exact bridge_invariant invariant remoteAddr undisturbed
  | connectCompleted index error =>
      simp only [advance] at step
      split at step
      · rename_i attempt found
        split at step
        · cases step
          rw [if_neg undisturbed, connectHandler, if_neg undisturbed]
          exact connect_completed_invariant invariant found
        · cases step
      · cases step
  | timerExpires index =>
      cases step
      exact invariant.settle (by rw [AsioTimer.expire_kind]; exact List.Sublist.refl _)
        fun running => running
  | timerHandler index resolves => exact timer_handler_invariant invariant step
  | cancelConnection =>
      cases step
      exact cancel_invariant invariant undisturbed
  | proxyDisconnect =>
      cases step
      exact cancel_invariant (invariant.frame rfl rfl) undisturbed
  | shutDown =>
      cases step
      have cancelled : ({ bridge with isShuttingDown := true } : ClientSideBridge μ).cancel.Invariant :=
        cancel_invariant (invariant.frame rfl rfl) undisturbed
      exact cancelled.frame rfl rfl
  | sessionConnect remoteAddr =>
      simp only [advance] at step
      split at step
      · cases step
      · cases step
        exact invariant.frame rfl rfl
  | transport label =>
      rcases Option.map_eq_some_iff.mp step with ⟨impl, advances, same⟩
      rw [← same]
      exact transported_invariant invariant (bridge.impl.advance_sound label impl advances) undisturbed

/-- A link that is not disturbed is cancelled for good and has one operation outstanding at most. -/
theorem link_stays_orderly (impl : TcpSessionImpl μ) {labels : List Label} {last : ClientSideBridge μ}
    (run : Run (Where Step Undisturbed) { impl } labels last) : last.Orderly := by
  have invariant : last.Invariant := by
    apply run.invariant (fun _ bridge => bridge.Invariant)
    · exact ⟨⟨throughout_nil _, Nat.zero_le _, nofun⟩, nofun, nofun⟩
    · intro history bridge label next invariant step
      exact Step.invariant step.1 step.2 invariant
  exact invariant.orderly

section Concrete

def otherServer : TcpSessionImpl (SgpMarshaller CsPacketCoder) :=
  .create 0 (.create .mk (.create 64) (.create 64)) 0

def otherAddr : InetAddress := { port := 7000, address := [49, 48] }

def retrying : List Label :=
  [.bridge otherAddr true, .connectCompleted 0 .other, .timerExpires 0, .timerHandler 0 true,
    .connectCompleted 0 .other, .cancelConnection, .timerHandler 0 true, .bridge otherAddr true]

theorem link_stays_orderly_retrying :
    ∃ last, Run (Where Step Undisturbed) { impl := otherServer } retrying last ∧
      last.history = [.bridged, .connectStarted, .timerArmed, .connectStarted, .timerArmed, .cancelled,
        .bridged, .connectStarted] ∧ last.Orderly := by
  have executes : (execute (guarded advance Undisturbed) { impl := otherServer } retrying).map
      (fun last => last.history) = some [.bridged, .connectStarted, .timerArmed, .connectStarted,
        .timerArmed, .cancelled, .bridged, .connectStarted] := by
    decide +kernel
  rcases Run.of_guarded Step Undisturbed (fun _ _ _ taken => taken) executes with ⟨last, run, history⟩
  exact ⟨last, run, history, link_stays_orderly otherServer run⟩

def cancelling : List Label :=
  [.bridge otherAddr true, .cancelConnection, .connectCompleted 0 .operationAborted]

/-- The handler of the aborted attempt makes the connector wait for the next one. -/
theorem cancelled_link_reconnects :
    ¬∀ labels last, Run Step ({ impl := otherServer } : ClientSideBridge (SgpMarshaller CsPacketCoder))
      labels last → last.Orderly := by
  intro always
  have executes : (execute advance { impl := otherServer } cancelling).map (fun last => last.history) =
      some [.bridged, .connectStarted, .cancelled, .timerArmed] := by
    decide +kernel
  rcases Run.of_observed Step (fun _ _ _ taken => taken) executes with ⟨last, run, history⟩
  have armed := (always _ _ run).cancelled [.bridged, .connectStarted, .cancelled] .timerArmed [] history rfl
  cases armed

end Concrete

end ClientSideBridge

end Sne.Server
