import Sne.Server.ServerSideSession

/-!
# The authentication timeout

The timer that disconnects a client which does not authenticate itself in time. It is
started when the session is connected, and `extendAuthenticationTimeout` cancels it and
starts it again. The completion of the cancelled wait comes later, when the timer is
running for the new one.
-/

namespace Sne.Server

open Sne.Base Sne.Core Sne.Session Sne.Sgp Sne.Library.Runs

set_option autoImplicit false

namespace ServerSideSession

variable {κ : Type} [PacketCoder κ]

section Frames

def OnlyPosts (session next : ServerSideSession κ) : Prop :=
  ∃ marshaller posted, next.impl = { session.impl with marshaller, posted }

omit [PacketCoder κ]

theorem OnlyPosts.refl (session : ServerSideSession κ) : OnlyPosts session session :=
  ⟨session.impl.marshaller, session.impl.posted, rfl⟩

theorem OnlyPosts.trans {first second third : ServerSideSession κ} (left : OnlyPosts first second)
    (right : OnlyPosts second third) : OnlyPosts first third := by
  rcases left with ⟨_, _, same⟩
  rcases right with ⟨marshaller, posted, next⟩
  exact ⟨marshaller, posted, by rw [next, same]⟩

theorem OnlyPosts.isConnected {session next : ServerSideSession κ} (posts : OnlyPosts session next) :
    next.impl.isConnected = session.impl.isConnected := by
  rcases posts with ⟨_, _, same⟩
  rw [same]
  rfl

theorem disconnect_posts (session : ServerSideSession κ) : OnlyPosts session session.disconnect :=
  ⟨_, _, rfl⟩

theorem call_posts (session : ServerSideSession κ) (call : SessionCall) :
    OnlyPosts session (session.call call) := by
  cases call <;> exact ⟨_, _, rfl⟩

theorem application_handles_posts (reply : ExtensionReply) (session : ServerSideSession κ) :
    OnlyPosts session (session.applicationHandles reply).2 := by
  unfold applicationHandles
  dsimp only
  induction reply.calls generalizing session with
  | nil => exact .refl session
  | cons call calls induction =>
      rw [List.foldl_cons]
      exact (call_posts session call).trans (induction _)

end Frames

theorem perform_posts (config : ServerSideSessionConfig) (surroundings : Surroundings)
    (session : ServerSideSession κ) (effect : ExchangeEffect) :
    OnlyPosts session (session.perform config surroundings effect) := by
  cases effect with
  | generateCipherSeed => exact ⟨_, _, rfl⟩
  | setEncryptSeed => exact ⟨_, _, rfl⟩
  | setDecryptSeed => exact ⟨_, _, rfl⟩
  | extendCipherKeyTimeLimit => exact ⟨_, _, rfl⟩
  | seedExchanged => exact ⟨_, _, rfl⟩
  | sendMessage message =>
      simp only [perform, ServerSideSession.sendMessage]
      split <;> exact ⟨_, _, rfl⟩

theorem exchange_posts (config : ServerSideSessionConfig) (surroundings : Surroundings)
    (outcome : PacketSeedExchangerForServer.Outcome) (session : ServerSideSession κ) :
    OnlyPosts session (session.exchange config surroundings outcome) := by
  have effects : ∀ (performed : List ExchangeEffect) (session : ServerSideSession κ),
      OnlyPosts session (performed.foldl (perform config surroundings) session) := by
    intro performed
    induction performed with
    | nil => exact fun session => .refl session
    | cons effect performed induction =>
        intro session
        rw [List.foldl_cons]
        exact (perform_posts config surroundings session effect).trans (induction _)
  unfold exchange
  have started : OnlyPosts session { session with packetSeedExchanger := outcome.1 } := ⟨_, _, rfl⟩
  exact started.trans (effects outcome.2 _)

theorem messaging_handles_posts (config : ServerSideSessionConfig) (surroundings : Surroundings)
    (messageType : MessageType) (body : List UInt8) (session : ServerSideSession κ) :
    OnlyPosts session (session.messagingHandles config surroundings messageType body).2 := by
  unfold messagingHandles
  dsimp only
  split
  · exact .refl session
  · split
    · split
      · exact exchange_posts config surroundings _ session
      · exact disconnect_posts session
    · split
      · exact exchange_posts config surroundings _ session
      · split
        · exact application_handles_posts _ session
        · exact .refl session

theorem extension_handles_posts (config : ServerSideSessionConfig) (surroundings : Surroundings)
    (messageType : MessageType) (body : List UInt8) (extension : SessionExtension)
    (session : ServerSideSession κ) :
    OnlyPosts session (session.extensionHandles config surroundings messageType body extension).2 := by
  cases extension with
  | messaging => exact messaging_handles_posts config surroundings messageType body session
  | rpcing =>
      simp only [extensionHandles]
      split
      · exact .refl session
      · exact application_handles_posts _ session
  | registered id => exact application_handles_posts _ session

theorem handle_message_posts (config : ServerSideSessionConfig) (surroundings : Surroundings)
    (messageType : MessageType) (body : List UInt8) (extensions : List SessionExtension)
    (session : ServerSideSession κ) :
    OnlyPosts session (session.handleMessage config surroundings messageType body extensions).2 := by
  induction extensions generalizing session with
  | nil => exact .refl session
  | cons extension rest induction =>
      unfold handleMessage
      dsimp only
      have recorded : OnlyPosts session (session.record (.handed extension messageType body
          session.isSeedExchanged)) := ⟨_, _, rfl⟩
      have handled := recorded.trans (extension_handles_posts config surroundings messageType body
        extension _)
      split
      · rename_i declined same
        rw [same] at handled
        exact handled.trans (induction declined)
      · exact handled

/-- A message that arrives only makes the session post handlers. -/
theorem message_arrived_posts (config : ServerSideSessionConfig) (surroundings : Surroundings)
    (messageType : MessageType) (body : List UInt8) (session : ServerSideSession κ) :
    OnlyPosts session (session.messageArrived config surroundings messageType body) := by
  have handled : OnlyPosts session
      (session.messageUnmarshalled config surroundings messageType body).2 := by
    unfold messageUnmarshalled
    split
    · exact .refl session
    · have declined := handle_message_posts config surroundings messageType body config.extensions session
      unfold onMessageArrived
      split
      · rename_i same
        rw [same] at declined
        split
        · exact declined
        · exact declined.trans (exchange_posts config surroundings _ _)
      · exact declined
  unfold messageArrived
  split
  · rename_i same
    rw [same] at handled
    exact handled
  · rename_i same
    rw [same] at handled
    exact handled.trans (disconnect_posts _)

end ServerSideSession

/-- A session with its `authenticationTimer_`. For the current connection it records whether
`authenticated` was called, and whether `timedOut` has asked for a disconnect. -/
structure AuthenticationTimeout (κ : Type) where
  session : ServerSideSession κ
  authenticationTimer : AsioTimer := {}
  isAuthenticated : Bool := false
  hasTimedOut : Bool := false

namespace AuthenticationTimeout

variable {κ : Type} [PacketCoder κ]

def timerMember : TimerMember (AuthenticationTimeout κ) where
  timer state := state.authenticationTimer
  put authenticationTimer state := { state with authenticationTimer }

def setupAuthenticationTimer (authenticationTimeout : Nat) (state : AuthenticationTimeout κ) :
    AuthenticationTimeout κ :=
  if authenticationTimeout > 0 then
    { state with authenticationTimer := state.authenticationTimer.once }
  else
    state

def cancelAuthenticationTimer (state : AuthenticationTimeout κ) : AuthenticationTimeout κ :=
  { state with authenticationTimer := state.authenticationTimer.cancel }

def authenticated (state : AuthenticationTimeout κ) : AuthenticationTimeout κ :=
  { state.cancelAuthenticationTimer with isAuthenticated := true }

def extendAuthenticationTimeout (authenticationTimeout : Nat) (state : AuthenticationTimeout κ) :
    AuthenticationTimeout κ :=
  state.cancelAuthenticationTimer.setupAuthenticationTimer authenticationTimeout

def timedOut (state : AuthenticationTimeout κ) : AuthenticationTimeout κ :=
  { state.cancelAuthenticationTimer with
    session := { state.session with impl := state.session.impl.disconnectGracefully }
    hasTimedOut := true }

def sessionOpened (config : ServerSideSessionConfig) (authenticationTimeout : Nat)
    (surroundings : Surroundings) (state : AuthenticationTimeout κ) : AuthenticationTimeout κ :=
  { state with
    session := state.session.sessionOpened config surroundings
    isAuthenticated := false
    hasTimedOut := false }.setupAuthenticationTimer authenticationTimeout

/-- A step of the transport. `onDisconnected` cancels the timer. -/
def transported (impl : TcpSessionImpl (SgpMarshaller κ)) (state : AuthenticationTimeout κ) :
    AuthenticationTimeout κ :=
  let next := { state with session := { state.session with impl } }
  if state.session.impl.isConnected && !impl.isConnected then next.cancelAuthenticationTimer else next

inductive Label where
  | connected (surroundings : Surroundings)
  | messageArrived (surroundings : Surroundings) (messageType : MessageType) (body : List UInt8)
  | transport (label : TcpSessionImpl.Label)
  | authenticated
  | extendAuthenticationTimeout
  | timerExpires (index : Nat)
  | timerHandler (index : Nat)

def advance (config : ServerSideSessionConfig) (authenticationTimeout : Nat)
    (state : AuthenticationTimeout κ) : Label → Option (AuthenticationTimeout κ)
  | .connected surroundings =>
      if state.session.impl.isConnected then none
      else some (state.sessionOpened config authenticationTimeout surroundings)
  | .messageArrived surroundings messageType body =>
      some { state with session := state.session.messageArrived config surroundings messageType body }
  | .transport label => (state.session.impl.advance label).map fun impl => state.transported impl
  | .authenticated => some state.authenticated
  | .extendAuthenticationTimeout => some (state.extendAuthenticationTimeout authenticationTimeout)
  | .timerExpires index => some (timerMember.modify (AsioTimer.expire index) state)
  | .timerHandler index => timerMember.deliver timedOut index state

def Step (config : ServerSideSessionConfig) (authenticationTimeout : Nat)
    (state : AuthenticationTimeout κ)
    (label : Label) (next : AuthenticationTimeout κ) : Prop :=
  state.advance config authenticationTimeout label = some next

/-- A wait is outstanding whose expiry calls `timedOut`. -/
def waitsForTimeout (state : AuthenticationTimeout κ) : Bool :=
  state.authenticationTimer.isRunning && state.authenticationTimer.waits.any fun wait => !wait.isAborted

/-- Connected, not authenticated, and not asked to disconnect for it. -/
def isUndecided (state : AuthenticationTimeout κ) : Bool :=
  state.session.impl.isConnected && !state.isAuthenticated && !state.hasTimedOut

/-- A connected session that is not authenticated waits for the timeout or has been asked to
disconnect. -/
def TimeoutKept (state : AuthenticationTimeout κ) : Prop :=
  state.session.impl.isConnected = true → state.isAuthenticated = false →
    state.waitsForTimeout = true ∨ state.hasTimedOut = true

/-- The timer is started for a connection only when each of its outstanding waits has expired: none is
cancelled, and none will be aborted by the new one. -/
def StartsSettled (state : AuthenticationTimeout κ) : Label → Prop
  | .connected _ => ∀ wait ∈ state.authenticationTimer.waits, wait.status = .expired
  | .extendAuthenticationTimeout => state.isUndecided = true →
      ∀ wait ∈ state.authenticationTimer.waits, wait.status = .expired
  | _ => True

instance (state : AuthenticationTimeout κ) (label : Label) : Decidable (state.StartsSettled label) :=
  match label with
  | .connected _ => inferInstanceAs (Decidable (∀ _ ∈ _, _))
  | .extendAuthenticationTimeout => inferInstanceAs (Decidable (_ → _))
  | .messageArrived _ _ _ => .isTrue trivial
  | .transport _ => .isTrue trivial
  | .authenticated => .isTrue trivial
  | .timerExpires _ => .isTrue trivial
  | .timerHandler _ => .isTrue trivial

structure Timed (timer : AsioTimer) : Prop where
  running : timer.isRunning = true
  outstanding : timer.waits ≠ []
  unaborted : ∀ wait ∈ timer.waits, wait.isAborted = false

theorem timed_once {timer : AsioTimer} (expired : ∀ wait ∈ timer.waits, wait.status = .expired) :
    Timed timer.once := by
  refine ⟨rfl, ?_, ?_⟩
  · simp [AsioTimer.once, AsioTimer.asyncWait]
  · intro wait member
    rcases List.mem_append.mp member with earlier | last
    · rcases List.mem_map.mp earlier with ⟨before, found, same⟩
      rw [← same, AsioTimer.abortWait, expired before found, Wait.isAborted, expired before found]
      rfl
    · rw [List.mem_singleton.mp last]
      rfl

theorem Timed.expire {timer : AsioTimer} (timed : Timed timer) (index : Nat) :
    Timed (timer.expire index) := by
  have aborted := AsioTimer.expire_aborted index timer
  refine ⟨timed.running, ?_, ?_⟩
  · intro none
    rw [none] at aborted
    exact timed.outstanding (List.map_eq_nil_iff.mp aborted.symm)
  · intro wait member
    have among : wait.isAborted ∈ timer.waits.map Wait.isAborted := by
      rw [← aborted]
      exact List.mem_map_of_mem member
    rcases List.mem_map.mp among with ⟨before, found, same⟩
    rw [← same]
    exact timed.unaborted before found

omit [PacketCoder κ] in
theorem Timed.waits {state : AuthenticationTimeout κ} (timed : Timed state.authenticationTimer) :
    state.waitsForTimeout = true := by
  rw [waitsForTimeout, timed.running, Bool.true_and, List.any_eq_true]
  rcases List.exists_mem_of_ne_nil _ timed.outstanding with ⟨wait, member⟩
  refine ⟨wait, member, ?_⟩
  rw [timed.unaborted wait member]
  rfl

theorem cancel_expired {timer : AsioTimer} (expired : ∀ wait ∈ timer.waits, wait.status = .expired) :
    ∀ wait ∈ timer.cancel.waits, wait.status = .expired := by
  intro wait member
  unfold AsioTimer.cancel at member
  dsimp only at member
  split at member
  · rcases List.mem_map.mp member with ⟨before, found, same⟩
    rw [← same, AsioTimer.abortWait, expired before found]
    exact expired before found
  · exact expired wait member

def Invariant (state : AuthenticationTimeout κ) : Prop :=
  state.isUndecided = true → Timed state.authenticationTimer

omit [PacketCoder κ] in
theorem Invariant.timeoutKept {state : AuthenticationTimeout κ} (invariant : state.Invariant) :
    state.TimeoutKept := by
  intro connected unauthenticated
  cases timedOut : state.hasTimedOut with
  | true => exact .inr rfl
  | false =>
      left
      apply Timed.waits
      apply invariant
      rw [isUndecided, connected, unauthenticated, timedOut]
      rfl

omit [PacketCoder κ] in
theorem Invariant.frame {state next : AuthenticationTimeout κ} (invariant : state.Invariant)
    (undecided : next.isUndecided = true → state.isUndecided = true)
    (timer : next.authenticationTimer = state.authenticationTimer) : next.Invariant := by
  intro still
  rw [timer]
  exact invariant (undecided still)

omit [PacketCoder κ] in
theorem timed_out_decides (state : AuthenticationTimeout κ) : state.timedOut.isUndecided = false := by
  rw [isUndecided, timedOut, Bool.not_true, Bool.and_false]

omit [PacketCoder κ] in
/-- A completion that finds the timer running with a success decides the connection, and any other
leaves it as undecided as it was. -/
theorem completion_decides (state : AuthenticationTimeout κ) (kind : WaitKind) (error : ErrorCode) :
    (timerMember.handleCompletion timedOut kind error state).isUndecided =
      (state.isUndecided && !(decide (error = .success) && state.authenticationTimer.isRunning)) := by
  cases running : state.authenticationTimer.isRunning with
  | false =>
      have stopped : (timerMember.timer state).isRunning = false := running
      rw [Bool.and_false, Bool.not_false, Bool.and_true]
      cases timerMember.handle_completion_stopped timedOut kind error stopped with
      | inl ignored => rw [ignored]
      | inr halted =>
          rw [halted]
          rfl
  | true =>
      have runs : (timerMember.timer state).isRunning = true := running
      rw [Bool.and_true]
      by_cases succeeded : error = .success
      · rw [decide_eq_true succeeded, Bool.not_true, Bool.and_false]
        cases kind with
        | once =>
            rw [TimerMember.handleCompletion, TimerMember.handleTimeout, runs, decide_eq_true succeeded]
            exact timed_out_decides _
        | «repeat» timeout =>
            rw [TimerMember.handleCompletion, TimerMember.handleRepeatTimeout, runs, if_pos succeeded]
            exact timed_out_decides _
      · rw [decide_eq_false succeeded, Bool.not_false, Bool.and_true]
        cases kind with
        | once =>
            rw [TimerMember.handleCompletion, TimerMember.handleTimeout, decide_eq_false succeeded]
            rfl
        | «repeat» timeout =>
            rw [TimerMember.handleCompletion, TimerMember.handleRepeatTimeout, if_neg succeeded]
            rfl

omit [PacketCoder κ] in
theorem handler_invariant {state next : AuthenticationTimeout κ} {index : Nat}
    (invariant : state.Invariant)
    (delivered : timerMember.deliver timedOut index state = some next) : next.Invariant := by
  rcases timerMember.deliver_cases delivered with ⟨wait, error, found, completed, same⟩
  intro undecided
  rw [same, completion_decides, Bool.and_eq_true, Bool.not_eq_true'] at undecided
  rcases undecided with ⟨before, ignored⟩
  have timed := invariant before
  have unaborted := timed.unaborted wait (List.mem_of_getElem? found)
  have succeeded : error = .success := Wait.completion_unaborted completed unaborted
  have running : (timerMember.modify (fun timer =>
      { timer with waits := timer.waits.eraseIdx index }) state).authenticationTimer.isRunning = true :=
    timed.running
  rw [succeeded, running] at ignored
  cases ignored

omit [PacketCoder κ] in
theorem setup_invariant {state : AuthenticationTimeout κ} {authenticationTimeout : Nat}
    (positive : 0 < authenticationTimeout)
    (expired : state.isUndecided = true → ∀ wait ∈ state.authenticationTimer.waits, wait.status = .expired) :
    (state.setupAuthenticationTimer authenticationTimeout).Invariant := by
  rw [setupAuthenticationTimer, if_pos positive]
  intro undecided
  exact timed_once (expired undecided)

theorem step_invariant {config : ServerSideSessionConfig} {authenticationTimeout : Nat}
    (positive : 0 < authenticationTimeout) {state next : AuthenticationTimeout κ} {label : Label}
    (invariant : state.Invariant) (step : Step config authenticationTimeout state label next)
    (settled : state.StartsSettled label) : next.Invariant := by
  unfold Step at step
  cases label with
  | connected surroundings =>
      simp only [advance] at step
      split at step
      · cases step
      · cases step
        exact setup_invariant positive fun _ => settled
  | messageArrived surroundings messageType body =>
      cases step
      apply invariant.frame
      · intro undecided
        rw [isUndecided, (ServerSideSession.message_arrived_posts config surroundings messageType body
          state.session).isConnected] at undecided
        exact undecided
      · rfl
  | transport label =>
      rcases Option.map_eq_some_iff.mp step with ⟨impl, advances, same⟩
      have moves := state.session.impl.advance_sound label impl advances
      rw [← same]
      unfold transported
      dsimp only
      split
      · rename_i closes
        rw [Bool.and_eq_true, Bool.not_eq_true'] at closes
        intro undecided
        have closed : impl.isConnected = false := closes.2
        rw [isUndecided, cancelAuthenticationTimer, closed] at undecided
        cases undecided
      · rename_i stays
        apply invariant.frame
        · intro undecided
          have same : impl.isConnected = state.session.impl.isConnected := moves.same_connection stays
          rw [isUndecided, same] at undecided
          exact undecided
        · rfl
  | authenticated =>
      cases step
      intro undecided
      rw [isUndecided, AuthenticationTimeout.authenticated, Bool.not_true, Bool.and_false,
        Bool.false_and] at undecided
      cases undecided
  | extendAuthenticationTimeout =>
      cases step
      exact setup_invariant positive fun undecided => cancel_expired (settled undecided)
  | timerExpires index =>
      cases step
      intro undecided
      exact (invariant undecided).expire index
  | timerHandler index => exact handler_invariant invariant step

/-- As long as the timer is started only when its outstanding waits have expired, the authentication
timeout of a connection is not lost. -/
theorem authentication_timeout_kept (config : ServerSideSessionConfig) {authenticationTimeout : Nat}
    (positive : 0 < authenticationTimeout) (session : ServerSideSession κ)
    (unopened : session.impl.isConnected = false) {labels : List Label} {last : AuthenticationTimeout κ}
    (run : Run (Where (Step config authenticationTimeout) StartsSettled) { session } labels last) :
    last.TimeoutKept := by
  have invariant : last.Invariant := by
    apply run.invariant (fun _ state => state.Invariant)
    · intro undecided
      rw [isUndecided, unopened] at undecided
      cases undecided
    · intro history state label next before step
      exact step_invariant positive before step.1 step.2
  exact invariant.timeoutKept

section Concrete

abbrev TeaTimeout : Type := AuthenticationTimeout (SecurePacketCoder teaSuite CsPacketCoder)

/-- The client is authenticated in time, and the session is connected again when the completion of the
cancelled wait has been delivered. Then the timeout is extended when it has just expired. -/
def reconnecting : List Label :=
  [.connected rpcSurroundings, .authenticated, .timerHandler 0, .transport .disconnect,
    .transport (.handler 0), .connected rpcSurroundings, .timerExpires 0, .extendAuthenticationTimeout,
    .timerHandler 0]

def extending : List Label := [.connected rpcSurroundings, .extendAuthenticationTimeout, .timerHandler 0]

theorem authentication_timeout_kept_reconnecting :
    ∃ last : TeaTimeout, Run (Where (Step sgpSessionConfig 5000) StartsSettled) { session := teaSession }
      reconnecting last ∧ last.session.impl.isConnected = true ∧ last.hasTimedOut = true ∧
      last.TimeoutKept := by
  have executes : (execute (guarded (advance sgpSessionConfig 5000) StartsSettled)
      ({ session := teaSession } : TeaTimeout) reconnecting).map (fun last =>
        (last.session.impl.isConnected, last.hasTimedOut)) = some (true, true) := by
    decide +kernel
  rcases Run.of_guarded (Step sgpSessionConfig 5000) StartsSettled (fun _ _ _ taken => taken)
    executes with ⟨last, run, facts⟩
  simp only [Prod.mk.injEq] at facts
  exact ⟨last, run, facts.1, facts.2,
    authentication_timeout_kept sgpSessionConfig (by decide) teaSession rfl run⟩

/-- The timeout is extended. The completion of the cancelled wait stops the timer, so that the expiry of
the new wait is ignored and the client may stay without authentication. -/
theorem extended_timeout_is_lost :
    ¬∀ labels (last : TeaTimeout), Run (Step sgpSessionConfig 5000)
    { session := teaSession } labels last →
      last.TimeoutKept := by
  intro kept
  have executes : (execute (advance sgpSessionConfig 5000) ({ session := teaSession } : TeaTimeout)
      extending).map (fun last => (last.session.impl.isConnected, last.isAuthenticated,
        last.waitsForTimeout, last.hasTimedOut)) = some (true, false, false, false) := by
    decide +kernel
  rcases Run.of_observed (Step sgpSessionConfig 5000) (fun _ _ _ taken => taken)
    executes with ⟨last, run, facts⟩
  simp only [Prod.mk.injEq] at facts
  rcases kept extending last run facts.1 facts.2.1 with waits | timedOut
  · exact absurd (facts.2.2.1.symm.trans waits) Bool.false_ne_true
  · exact absurd (facts.2.2.2.symm.trans timedOut) Bool.false_ne_true

end Concrete

end AuthenticationTimeout

end Sne.Server
