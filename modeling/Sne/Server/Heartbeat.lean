import Sne.Client.ClientSession

/-!
# Heartbeats

`Heartbeater.h`, `HeartbeatSender.h` and `HeartbeatReceiver.cpp`. One end of a connection sends a
message when its timer finds that it has sent none for an interval, and the other end disconnects
when its timer finds that none has arrived. Time passes as its own step, in milliseconds. The times
that a message, its transfer and a timer's handler take are whatever a run makes of them.
-/

namespace Sne.Server

open Sne.Base Sne.Client Sne.Library.Runs

set_option autoImplicit false

/-- `core::getElapsedTime` returns a `msec_t`. -/
def getElapsedTime (past now : Nat) : Nat := (now - past) % 2 ^ 32

theorem elapsed_at_most (past now : Nat) : getElapsedTime past now ≤ now - past := Nat.mod_le _ _

theorem elapsed_exact {past now : Nat} (recent : now < past + 2 ^ 32) :
    getElapsedTime past now = now - past :=
  Nat.mod_eq_of_lt (by omega)

/-- An interval is a `msec_t`. `expiresAt` is what the timer was last set to. -/
structure Heartbeater where
  heartbeatInterval : Nat
  isMsec : heartbeatInterval < 2 ^ 32
  lastSentTime : Nat
  heartbeatTimer : AsioTimer
  expiresAt : Nat
  deriving DecidableEq, Repr

structure HeartBeatReceiver where
  validHeartbeatInterval : Nat
  isMsec : validHeartbeatInterval < 2 ^ 32
  lastHeartbeatedTime : Nat
  heartbeatTimer : AsioTimer
  expiresAt : Nat
  deriving DecidableEq, Repr

namespace Heartbeater

def start (now : Nat) (heartbeater : Heartbeater) : Heartbeater :=
  let heartbeatTimer := heartbeater.heartbeatTimer.cancel
  if heartbeater.heartbeatInterval > 0 then
    { heartbeater with
      heartbeatTimer := heartbeatTimer.startRepeat heartbeater.heartbeatInterval
      expiresAt := now + heartbeater.heartbeatInterval }
  else
    { heartbeater with heartbeatTimer }

def sent (now : Nat) (heartbeater : Heartbeater) : Heartbeater :=
  { heartbeater with lastSentTime := now }

def sendHeartbeat (now : Nat) (heartbeater : Heartbeater) : Bool :=
  decide (getElapsedTime heartbeater.lastSentTime now ≥ heartbeater.heartbeatInterval)

end Heartbeater

namespace HeartBeatReceiver

def heartbeated (now : Nat) (receiver : HeartBeatReceiver) : HeartBeatReceiver :=
  { receiver with lastHeartbeatedTime := now }

def setupTimer (now : Nat) (receiver : HeartBeatReceiver) : HeartBeatReceiver :=
  if receiver.validHeartbeatInterval ≤ 0 then
    receiver
  else
    let receiver := receiver.heartbeated now
    { receiver with
      heartbeatTimer := receiver.heartbeatTimer.startRepeat receiver.validHeartbeatInterval
      expiresAt := now + receiver.validHeartbeatInterval }

def cancelTimer (receiver : HeartBeatReceiver) : HeartBeatReceiver :=
  { receiver with heartbeatTimer := receiver.heartbeatTimer.cancel }

def isZombie (elapsed : Nat) (receiver : HeartBeatReceiver) : Bool :=
  decide (elapsed ≥ receiver.validHeartbeatInterval)

end HeartBeatReceiver

/-- The sessions that have a receiver. Only `ServerSideSession::onMessageArrived` tells it of a
message. -/
inductive ReceiverSession where
  | serverSideSession
  | clientSideSession
  deriving DecidableEq, Repr

/-- `asked` are the times of the calls of `sendMessage` whose message is not transferred yet, and
`inFlight` of those whose message has not arrived. `disconnects` says that the receiver has called
`disconnect`. -/
structure Heartbeats where
  now : Nat
  session : ReceiverSession
  sender : Heartbeater
  receiver : HeartBeatReceiver
  asked : List Nat
  inFlight : List Nat
  disconnects : Bool
  deriving DecidableEq, Repr

namespace Heartbeats

def sendMessage (state : Heartbeats) : Heartbeats :=
  { state with asked := state.asked ++ [state.now], inFlight := state.inFlight ++ [state.now] }

/-- The messages of one connection are transferred in their order. -/
def onMessageTransfered (state : Heartbeats) : Option Heartbeats :=
  match state.asked with
  | [] => none
  | _ :: asked => some { state with asked, sender := state.sender.sent state.now }

def onMessageArrived (state : Heartbeats) : Option Heartbeats :=
  match state.inFlight with
  | [] => none
  | _ :: inFlight =>
      match state.session with
      | .serverSideSession =>
          some { state with inFlight, receiver := state.receiver.heartbeated state.now }
      | .clientSideSession => some { state with inFlight }

def senderTimer : TimerMember Heartbeats where
  timer state := state.sender.heartbeatTimer
  put heartbeatTimer state := { state with sender := { state.sender with heartbeatTimer } }

def receiverTimer : TimerMember Heartbeats where
  timer state := state.receiver.heartbeatTimer
  put heartbeatTimer state := { state with receiver := { state.receiver with heartbeatTimer } }

/-- `HeartbeatSender::timedOut`. The handler has set the timer again before. -/
def senderTimedOut (state : Heartbeats) : Heartbeats :=
  let state := { state with sender :=
    { state.sender with expiresAt := state.now + state.sender.heartbeatInterval } }
  if state.sender.sendHeartbeat state.now then state.sendMessage else state

def receiverTimedOut (state : Heartbeats) : Heartbeats :=
  let state := { state with receiver :=
    { state.receiver with expiresAt := state.now + state.receiver.validHeartbeatInterval } }
  if state.receiver.isZombie (getElapsedTime state.receiver.lastHeartbeatedTime state.now) then
    { state with receiver := state.receiver.cancelTimer, disconnects := true }
  else
    state

inductive Label where
  | elapse (duration : Nat)
  | sendMessage
  | messageTransfered
  | messageArrived
  | senderExpires (index : Nat)
  | senderHandler (index : Nat)
  | receiverExpires (index : Nat)
  | receiverHandler (index : Nat)
  deriving DecidableEq, Repr

/-- A timer does not expire before its time. -/
def advance (state : Heartbeats) : Label → Option Heartbeats
  | .elapse duration => some { state with now := state.now + duration }
  | .sendMessage => some state.sendMessage
  | .messageTransfered => state.onMessageTransfered
  | .messageArrived => state.onMessageArrived
  | .senderExpires index =>
      if state.sender.expiresAt ≤ state.now then
        some (senderTimer.modify (AsioTimer.expire index) state)
      else
        none
  | .senderHandler index => senderTimer.deliver senderTimedOut index state
  | .receiverExpires index =>
      if state.receiver.expiresAt ≤ state.now then
        some (receiverTimer.modify (AsioTimer.expire index) state)
      else
        none
  | .receiverHandler index => receiverTimer.deliver receiverTimedOut index state

def Step (state : Heartbeats) (label : Label) (next : Heartbeats) :
    Prop := state.advance label = some next

section Timers

/-- A timer that is started again by its own handler waits for its next expiry, and for nothing else. -/
structure Ticking (interval : Nat) (timer : AsioTimer) (expiresAt now : Nat) : Prop where
  beating : ClientSession.Beating interval timer
  due : ∀ wait ∈ timer.waits, wait.status = .expired → expiresAt ≤ now

theorem ticking_start {interval : Nat} {timer : AsioTimer} (none : timer.waits = [])
    (expiresAt now : Nat) : Ticking interval (timer.startRepeat interval) expiresAt now := by
  refine ⟨ClientSession.beating_start none, ?_⟩
  intro wait member expired
  rw [AsioTimer.startRepeat, AsioTimer.asyncWait, none, List.map_nil, List.nil_append] at member
  rw [List.mem_singleton.mp member] at expired
  cases expired

theorem Ticking.later {interval : Nat} {timer : AsioTimer} {expiresAt now : Nat}
    (ticking : Ticking interval timer expiresAt now) (duration : Nat) :
    Ticking interval timer expiresAt (now + duration) := by
  refine ⟨ticking.beating, ?_⟩
  intro wait member expired
  exact Nat.le_add_right_of_le (ticking.due wait member expired)

theorem Ticking.expire {interval : Nat} {timer : AsioTimer} {expiresAt now : Nat}
    (ticking : Ticking interval timer expiresAt now) (reached : expiresAt ≤ now) (index : Nat) :
    Ticking interval (timer.expire index) expiresAt now :=
  ⟨ticking.beating.expire index, fun _ _ _ => reached⟩

theorem Ticking.delivered {σ : Type} (member : TimerMember σ) {timedOut : σ → σ} {interval index : Nat}
    {expiresAt now : Nat} {state next : σ}
    (get : ∀ timer state, member.timer (member.put timer state) = timer)
    (put : ∀ first second state, member.put second (member.put first state) = member.put second state)
    (ticking : Ticking interval (member.timer state) expiresAt now)
    (delivers : member.deliver timedOut index state = some next) :
    expiresAt ≤ now ∧ ∃ timer : AsioTimer, timer.waits = [] ∧
      next = timedOut (member.put (timer.startRepeat interval) state) := by
  rcases member.deliver_cases delivers with ⟨wait, error, found, completed, same⟩
  rcases ticking.beating with ⟨running, only, waits, kind, unaborted⟩
  rw [waits] at found
  rcases List.getElem?_eq_some_iff.mp found with ⟨inside, isOnly⟩
  have first : index = 0 := by simpa using inside
  subst first
  have isWait : wait = only := isOnly.symm
  subst isWait
  have succeeded : error = .success := Wait.completion_unaborted completed unaborted
  have expired : wait.status = .expired := by
    cases status : wait.status with
    | waiting => simp [Wait.completion, status] at completed
    | expired => rfl
    | aborted => simp [Wait.isAborted, status] at unaborted
  refine ⟨ticking.due wait (waits ▸ List.mem_singleton_self _) expired,
    { member.timer state with waits := [] }, rfl, ?_⟩
  have runs : (member.timer (member.modify (fun timer =>
      { timer with waits := timer.waits.eraseIdx 0 }) state)).isRunning = true := by
    rw [TimerMember.modify, get]
    exact running
  rw [same, kind, succeeded, TimerMember.handleCompletion, TimerMember.handleRepeatTimeout, if_pos rfl,
    if_pos runs]
  rw [TimerMember.modify, TimerMember.modify, get, put, waits, List.eraseIdx_zero, List.tail_cons]

theorem deliver_keeps {σ : Type} {member : TimerMember σ} {timedOut : σ → σ} (Kept : σ → Prop)
    (put : ∀ timer state, Kept state → Kept (member.put timer state))
    (called : ∀ state, Kept state → Kept (timedOut state)) {index : Nat} {state next : σ}
    (delivers : member.deliver timedOut index state = some next) (kept : Kept state) : Kept next := by
  rcases member.deliver_cases delivers with ⟨wait, error, _, _, rfl⟩
  have before : Kept (member.modify (fun timer =>
      { timer with waits := timer.waits.eraseIdx index }) state) := put _ _ kept
  cases wait.kind with
  | once =>
      rw [TimerMember.handleCompletion, TimerMember.handleTimeout]
      split
      · exact put _ _ (called _ (put _ _ before))
      · exact put _ _ before
  | «repeat» timeout =>
      rw [TimerMember.handleCompletion, TimerMember.handleRepeatTimeout]
      split
      · split
        · exact called _ (put _ _ before)
        · exact before
      · exact put _ _ before

end Timers

def latest : Nat → List Nat → Nat
  | last, [] => last
  | _, time :: times => latest time times

/-- Less than the gap lies between each time and the next. -/
def Spaced (gap : Nat) : Nat → List Nat → Prop
  | _, [] => True
  | last, time :: times => time < last + gap ∧ Spaced gap time times

section Times

variable {gap : Nat}

theorem latest_append (last : Nat) (times : List Nat) (time : Nat) :
    latest last (times ++ [time]) = time := by
  induction times generalizing last with
  | nil => rfl
  | cons first rest induction => exact induction first

theorem latest_le {last now : Nat} {times : List Nat} (before : last ≤ now)
    (each : ∀ time ∈ times, time ≤ now) : latest last times ≤ now := by
  induction times generalizing last with
  | nil => exact before
  | cons first rest induction =>
      exact induction (each first List.mem_cons_self) fun time member =>
        each time (List.mem_cons_of_mem _ member)

theorem latest_later {last later : Nat} (times : List Nat) (order : last ≤ later) :
    latest last times ≤ latest later times := by
  cases times with
  | nil => exact order
  | cons first rest => exact Nat.le_refl _

theorem Spaced.append {last time : Nat} {times : List Nat} (spaced : Spaced gap last times)
    (soon : time < latest last times + gap) : Spaced gap last (times ++ [time]) := by
  induction times generalizing last with
  | nil => exact ⟨soon, trivial⟩
  | cons first rest induction => exact ⟨spaced.1, induction spaced.2 soon⟩

theorem Spaced.later {last later : Nat} {times : List Nat} (spaced : Spaced gap last times)
    (order : last ≤ later) : Spaced gap later times := by
  cases times with
  | nil => trivial
  | cons first rest => exact ⟨Nat.lt_of_lt_of_le spaced.1 (Nat.add_le_add_right order gap), spaced.2⟩

end Times

/-- How long things take at most: the handler of the sender's timer after the expiry, a message until
it is transferred, and until it arrives. -/
structure Latencies where
  timer : Nat
  transfer : Nat
  arrival : Nat
  deriving DecidableEq, Repr

/-- Time does not pass what must have happened by then. -/
def Prompt (latencies : Latencies) (state : Heartbeats) : Label → Prop
  | .elapse duration =>
      state.now + duration ≤ state.sender.expiresAt + latencies.timer ∧
      (∀ time ∈ state.asked, state.now + duration ≤ time + latencies.transfer) ∧
      ∀ time ∈ state.inFlight, state.now + duration ≤ time + latencies.arrival
  | _ => True

instance (latencies : Latencies) (state : Heartbeats) (label : Label) :
    Decidable (Prompt latencies state label) :=
  match label with
  | .elapse _ => inferInstanceAs (Decidable (_ ∧ _ ∧ _))
  | .sendMessage => .isTrue trivial
  | .messageTransfered => .isTrue trivial
  | .messageArrived => .isTrue trivial
  | .senderExpires _ => .isTrue trivial
  | .senderHandler _ => .isTrue trivial
  | .receiverExpires _ => .isTrue trivial
  | .receiverHandler _ => .isTrue trivial

/-- `setupTimer` has just been called, with an interval and with no wait left. -/
def SetUp (state : Heartbeats) : Prop :=
  ∃ fresh : HeartBeatReceiver, fresh.heartbeatTimer.waits = [] ∧ 0 < fresh.validHeartbeatInterval ∧
    state.receiver = fresh.setupTimer state.now

/-- The sender's timer runs and the receiver's has just been set up. What the sender sent last, or the
start of its clock, is not so long ago that 32 bits of milliseconds could not tell. -/
structure Starts (latencies : Latencies) (state : Heartbeats) : Prop where
  session : state.session = .serverSideSession
  positive : 0 < state.sender.heartbeatInterval
  sender : Ticking state.sender.heartbeatInterval state.sender.heartbeatTimer state.sender.expiresAt
    state.now
  expiresLater : state.now ≤ state.sender.expiresAt
  expiresSoon : state.sender.expiresAt ≤ state.now + state.sender.heartbeatInterval
  lastSent : state.sender.lastSentTime ≤ state.now
  elapsed : state.sender.expiresAt + latencies.timer + latencies.transfer <
    state.sender.lastSentTime + 2 ^ 32
  receiver : state.SetUp
  asked : state.asked = []
  inFlight : state.inFlight = []
  connected : state.disconnects = false

def lastMessage (state : Heartbeats) : Nat :=
  latest state.receiver.lastHeartbeatedTime state.inFlight

/-- The next transfer comes before the elapsed time exceeds 32 bits. -/
def Transfers (latencies : Latencies) (state : Heartbeats) : Prop :=
  match state.asked with
  | [] =>
      state.sender.expiresAt + latencies.timer + latencies.transfer < state.sender.lastSentTime + 2 ^ 32
  | time :: _ => time + latencies.transfer < state.sender.lastSentTime + 2 ^ 32

structure Beats (latencies : Latencies) (heartbeatInterval validInterval : Nat) (state : Heartbeats) :
    Prop where
  session : state.session = .serverSideSession
  interval : state.sender.heartbeatInterval = heartbeatInterval
  receiverInterval : state.receiver.validHeartbeatInterval = validInterval
  sender : Ticking heartbeatInterval state.sender.heartbeatTimer state.sender.expiresAt state.now
  receiver : Ticking validInterval state.receiver.heartbeatTimer state.receiver.expiresAt state.now
  heartbeated : state.receiver.lastHeartbeatedTime ≤ state.now
  past : ∀ time ∈ state.inFlight, time ≤ state.now
  spaced : Spaced (2 * heartbeatInterval + latencies.transfer + latencies.timer)
    state.receiver.lastHeartbeatedTime state.inFlight
  recent : state.sender.expiresAt < state.lastMessage + 2 * heartbeatInterval + latencies.transfer
  lastSent : state.sender.lastSentTime ≤ state.lastMessage + latencies.transfer
  transfers : state.Transfers latencies
  expires : state.sender.expiresAt ≤ state.now + heartbeatInterval
  asked : ∀ time ∈ state.asked, time ≤ state.lastMessage ∧ state.now ≤ time + latencies.transfer
  arriving : ∀ time ∈ state.inFlight, state.now ≤ time + latencies.arrival
  handled : state.now ≤ state.sender.expiresAt + latencies.timer
  connected : state.disconnects = false

section Beating

variable {latencies : Latencies} {heartbeatInterval validInterval : Nat} {state next : Heartbeats}

theorem start_ticks (heartbeater : Heartbeater) (none : heartbeater.heartbeatTimer.waits = [])
    (positive : 0 < heartbeater.heartbeatInterval) (now : Nat) :
    Ticking heartbeater.heartbeatInterval (heartbeater.start now).heartbeatTimer
        (heartbeater.start now).expiresAt now ∧
      (heartbeater.start now).expiresAt = now + heartbeater.heartbeatInterval := by
  unfold Heartbeater.start
  dsimp only
  rw [if_pos positive]
  refine ⟨ticking_start ?_ _ _, rfl⟩
  unfold AsioTimer.cancel
  dsimp only
  rw [none]
  split <;> rfl

theorem SetUp.receiver (setUp : state.SetUp) :
    0 < state.receiver.validHeartbeatInterval ∧
      Ticking state.receiver.validHeartbeatInterval state.receiver.heartbeatTimer state.receiver.expiresAt
        state.now ∧
      state.receiver.lastHeartbeatedTime = state.now ∧
      state.receiver.expiresAt = state.now + state.receiver.validHeartbeatInterval := by
  obtain ⟨fresh, none, positive, same⟩ := setUp
  rw [same, HeartBeatReceiver.setupTimer, if_neg (Nat.not_le.mpr positive)]
  exact ⟨positive, ticking_start none _ _, rfl, rfl⟩

theorem Starts.beats (starts : state.Starts latencies) :
    state.Beats latencies state.sender.heartbeatInterval state.receiver.validHeartbeatInterval := by
  obtain ⟨_, receiver, heartbeated, _⟩ := starts.receiver.receiver
  have last : state.lastMessage = state.now := by
    rw [lastMessage, starts.inFlight, latest, heartbeated]
  have soon := starts.expiresSoon
  have positive := starts.positive
  have later := starts.expiresLater
  have sent := starts.lastSent
  constructor
  · exact starts.session
  · rfl
  · rfl
  · exact starts.sender
  · exact receiver
  · exact Nat.le_of_eq heartbeated
  · rw [starts.inFlight]
    exact fun _ => nofun
  · rw [starts.inFlight]
    trivial
  · rw [last]
    omega
  · rw [last]
    omega
  · rw [Transfers, starts.asked]
    exact starts.elapsed
  · exact soon
  · rw [starts.asked]
    exact fun _ => nofun
  · rw [starts.inFlight]
    exact fun _ => nofun
  · omega
  · exact starts.connected

theorem Beats.last_le (beats : state.Beats latencies heartbeatInterval validInterval) :
    state.lastMessage ≤ state.now :=
  latest_le beats.heartbeated beats.past

/-- The receiver has heard of the sender not long ago. -/
theorem Beats.heard (beats : state.Beats latencies heartbeatInterval validInterval)
    (slack : 2 * heartbeatInterval + latencies.transfer + latencies.timer + latencies.arrival ≤
      validInterval) : state.now < state.receiver.lastHeartbeatedTime + validInterval := by
  have recent := beats.recent
  have handled := beats.handled
  have spaced := beats.spaced
  have arriving := beats.arriving
  unfold lastMessage at recent
  cases flight : state.inFlight with
  | nil =>
      rw [flight, latest] at recent
      omega
  | cons time times =>
      rw [flight] at spaced arriving
      have first := arriving time List.mem_cons_self
      have gap := spaced.1
      omega

theorem Beats.elapsed (beats : state.Beats latencies heartbeatInterval validInterval) :
    getElapsedTime state.sender.lastSentTime state.now = state.now - state.sender.lastSentTime := by
  apply elapsed_exact
  have transfers := beats.transfers
  have handled := beats.handled
  unfold Transfers at transfers
  split at transfers
  · omega
  · rename_i time asked split
    have known := beats.asked time (split ▸ List.mem_cons_self)
    omega

theorem Beats.elapse (beats : state.Beats latencies heartbeatInterval validInterval) {duration : Nat}
    (prompt : Prompt latencies state (.elapse duration)) :
    Beats latencies heartbeatInterval validInterval { state with now := state.now + duration } := by
  obtain ⟨handled, asked, arriving⟩ := prompt
  refine { beats with
    sender := beats.sender.later duration
    receiver := beats.receiver.later duration
    heartbeated := Nat.le_add_right_of_le beats.heartbeated
    past := fun time member => Nat.le_add_right_of_le (beats.past time member)
    expires := Nat.le_trans beats.expires (by dsimp only; omega)
    asked := fun time member => ⟨(beats.asked time member).1, asked time member⟩
    arriving
    handled }

theorem Beats.sendMessage (beats : state.Beats latencies heartbeatInterval validInterval) :
    Beats latencies heartbeatInterval validInterval state.sendMessage := by
  have order := beats.last_le
  have recent := beats.recent
  have handled := beats.handled
  have sent := beats.lastSent
  have last : state.sendMessage.lastMessage = state.now := latest_append _ _ _
  have soon : state.now < state.lastMessage +
      (2 * heartbeatInterval + latencies.transfer + latencies.timer) := by omega
  constructor
  · exact beats.session
  · exact beats.interval
  · exact beats.receiverInterval
  · exact beats.sender
  · exact beats.receiver
  · exact beats.heartbeated
  · intro time member
    rcases List.mem_append.mp member with old | new
    · exact beats.past time old
    · exact Nat.le_of_eq (List.mem_singleton.mp new)
  · exact beats.spaced.append soon
  · rw [last]
    change state.sender.expiresAt < _
    omega
  · rw [last]
    change state.sender.lastSentTime ≤ _
    omega
  · have transfers := beats.transfers
    unfold Transfers at transfers ⊢
    change match state.asked ++ [state.now] with
      | [] => _
      | time :: _ => time + latencies.transfer < state.sender.lastSentTime + 2 ^ 32
    cases pending : state.asked with
    | nil =>
        rw [pending] at transfers
        change state.now + latencies.transfer < _
        dsimp only at transfers
        omega
    | cons time rest =>
        rw [pending] at transfers
        exact transfers
  · exact beats.expires
  · rw [last]
    intro time member
    rcases List.mem_append.mp member with old | new
    · have known := beats.asked time old
      exact ⟨Nat.le_trans known.1 order, known.2⟩
    · rw [List.mem_singleton.mp new]
      exact ⟨Nat.le_refl _, Nat.le_add_right _ _⟩
  · intro time member
    rcases List.mem_append.mp member with old | new
    · exact beats.arriving time old
    · rw [List.mem_singleton.mp new]
      exact Nat.le_add_right _ _
  · exact beats.handled
  · exact beats.connected

theorem Beats.messageTransfered (beats : state.Beats latencies heartbeatInterval validInterval)
    (slack : 2 * heartbeatInterval + latencies.transfer + latencies.timer + latencies.arrival ≤
      validInterval) (transfers : state.onMessageTransfered = some next) :
    next.Beats latencies heartbeatInterval validInterval := by
  unfold onMessageTransfered at transfers
  split at transfers
  · cases transfers
  · rename_i time asked split
    cases transfers
    have known := beats.asked time (split ▸ List.mem_cons_self)
    have isMsec := state.receiver.isMsec
    rw [beats.receiverInterval] at isMsec
    have expires := beats.expires
    refine { beats with
      lastSent := ?_
      transfers := ?_
      asked := fun other member => beats.asked other (split ▸ List.mem_cons_of_mem _ member) }
    · exact Nat.le_trans known.2 (Nat.add_le_add_right known.1 _)
    · unfold Transfers
      dsimp only [Heartbeater.sent]
      cases asked with
      | nil =>
          change state.sender.expiresAt + _ + _ < state.now + _
          omega
      | cons later rest =>
          have order := Nat.le_trans (beats.asked later (by rw [split]; simp)).1 beats.last_le
          change later + latencies.transfer < state.now + _
          omega

theorem Beats.messageArrived (beats : state.Beats latencies heartbeatInterval validInterval)
    (arrives : state.onMessageArrived = some next) :
    next.Beats latencies heartbeatInterval validInterval := by
  unfold onMessageArrived at arrives
  split at arrives
  · cases arrives
  · rename_i time inFlight split
    rw [beats.session] at arrives
    cases arrives
    have order : time ≤ state.now := beats.past time (split ▸ List.mem_cons_self)
    have spaced := beats.spaced
    rw [split] at spaced
    have later : state.lastMessage ≤ latest state.now inFlight := by
      rw [lastMessage, split]
      exact latest_later inFlight order
    have recent := beats.recent
    have sent := beats.lastSent
    constructor
    · rfl
    · exact beats.interval
    · exact beats.receiverInterval
    · exact beats.sender
    · exact beats.receiver
    · exact Nat.le_refl _
    · exact fun other member => beats.past other (split ▸ List.mem_cons_of_mem _ member)
    · exact spaced.2.later order
    · change state.sender.expiresAt < latest state.now inFlight + _ + _
      omega
    · change state.sender.lastSentTime ≤ latest state.now inFlight + _
      omega
    · exact beats.transfers
    · exact beats.expires
    · intro other member
      have known := beats.asked other member
      exact ⟨Nat.le_trans known.1 later, known.2⟩
    · exact fun other member => beats.arriving other (split ▸ List.mem_cons_of_mem _ member)
    · exact beats.handled
    · exact beats.connected

theorem sender_timer_put (first second : AsioTimer) (state : Heartbeats) :
    senderTimer.put second (senderTimer.put first state) = senderTimer.put second state := rfl

theorem receiver_timer_put (first second : AsioTimer) (state : Heartbeats) :
    receiverTimer.put second (receiverTimer.put first state) = receiverTimer.put second state := rfl

def restarted (timer : AsioTimer) (heartbeatInterval : Nat) (state : Heartbeats) : Heartbeats :=
  { state with sender := { state.sender with
      heartbeatTimer := timer.startRepeat heartbeatInterval
      expiresAt := state.now + state.sender.heartbeatInterval } }

theorem Beats.restart (beats : state.Beats latencies heartbeatInterval validInterval)
    {timer : AsioTimer} (none : timer.waits = [])
    (soon : state.now < state.lastMessage + heartbeatInterval + latencies.transfer)
    (transfers : (state.restarted timer heartbeatInterval).Transfers latencies) :
    (state.restarted timer heartbeatInterval).Beats latencies heartbeatInterval validInterval := by
  refine { beats with
    sender := ticking_start none _ _
    recent := ?_
    transfers
    expires := ?_
    handled := ?_ }
  · change state.now + state.sender.heartbeatInterval < state.lastMessage + _ + _
    rw [beats.interval]
    omega
  · change state.now + state.sender.heartbeatInterval ≤ state.now + _
    rw [beats.interval]
  · change state.now ≤ state.now + state.sender.heartbeatInterval + _
    omega

/-- A message that is asked for already is transferred in time, whenever the timer expires. -/
theorem pending_transfers {timer : AsioTimer} (pending : state.asked ≠ [])
    (transfers : state.Transfers latencies) :
    (state.restarted timer heartbeatInterval).Transfers latencies := by
  unfold Transfers at transfers ⊢
  change match state.asked with
    | [] => _
    | time :: _ => time + latencies.transfer < state.sender.lastSentTime + 2 ^ 32
  cases asked : state.asked with
  | nil => exact absurd asked pending
  | cons time rest =>
      rw [asked] at transfers
      exact transfers

/-- The sender's timer finds a message that is recent, or sends one. -/
theorem Beats.senderHandler (beats : state.Beats latencies heartbeatInterval validInterval)
    (positive : 0 < heartbeatInterval)
    (slack : 2 * heartbeatInterval + latencies.transfer + latencies.timer + latencies.arrival ≤
      validInterval) {index : Nat}
    (delivers : senderTimer.deliver senderTimedOut index state = some next) :
    next.Beats latencies heartbeatInterval validInterval := by
  obtain ⟨_, timer, none, rfl⟩ :=
    beats.sender.delivered senderTimer (fun _ _ => rfl) sender_timer_put delivers
  unfold senderTimedOut
  dsimp only
  split
  · -- a heartbeat is the last message
    apply (beats.sendMessage).restart none
    · rw [show state.sendMessage.lastMessage = state.now from latest_append _ _ _]
      change state.now < state.now + heartbeatInterval + _
      omega
    · exact pending_transfers (List.append_ne_nil_of_right_ne_nil _ (List.cons_ne_nil _ _))
        beats.sendMessage.transfers
  · rename_i recentlySent
    have sent := beats.lastSent
    have elapsed : ¬state.now - state.sender.lastSentTime ≥ state.sender.heartbeatInterval := by
      intro silent
      apply recentlySent
      rw [← beats.elapsed] at silent
      exact decide_eq_true silent
    rw [beats.interval] at elapsed
    apply beats.restart none
    · omega
    · cases pending : state.asked with
      | nil =>
          have isMsec := state.receiver.isMsec
          rw [beats.receiverInterval] at isMsec
          rw [Transfers, show (state.restarted timer heartbeatInterval).asked = [] from pending]
          change state.now + state.sender.heartbeatInterval + _ + _ < state.sender.lastSentTime + _
          rw [beats.interval]
          omega
      | cons time rest => exact pending_transfers (pending ▸ List.cons_ne_nil _ _) beats.transfers

/-- The receiver's timer finds a message that is recent. -/
theorem Beats.receiverHandler (beats : state.Beats latencies heartbeatInterval validInterval)
    (positive : 0 < heartbeatInterval)
    (slack : 2 * heartbeatInterval + latencies.transfer + latencies.timer + latencies.arrival ≤
      validInterval) {index : Nat}
    (delivers : receiverTimer.deliver receiverTimedOut index state = some next) :
    next.Beats latencies heartbeatInterval validInterval := by
  obtain ⟨_, timer, none, rfl⟩ :=
    beats.receiver.delivered receiverTimer (fun _ _ => rfl) receiver_timer_put delivers
  have heard := beats.heard slack
  have alive : ¬getElapsedTime state.receiver.lastHeartbeatedTime state.now ≥
      state.receiver.validHeartbeatInterval := by
    have measured := elapsed_at_most state.receiver.lastHeartbeatedTime state.now
    rw [beats.receiverInterval]
    omega
  unfold receiverTimedOut HeartBeatReceiver.isZombie
  dsimp only
  split
  · rename_i zombie
    exact absurd (of_decide_eq_true zombie) alive
  · exact { beats with receiver := ticking_start none _ _ }

theorem Beats.step (beats : state.Beats latencies heartbeatInterval validInterval)
    (positive : 0 < heartbeatInterval)
    (slack : 2 * heartbeatInterval + latencies.transfer + latencies.timer + latencies.arrival ≤
      validInterval)
    {label : Label} (step : Step state label next) (prompt : Prompt latencies state label) :
    next.Beats latencies heartbeatInterval validInterval := by
  cases label with
  | elapse duration =>
      cases step
      exact beats.elapse prompt
  | sendMessage =>
      cases step
      exact beats.sendMessage
  | messageTransfered => exact beats.messageTransfered slack step
  | messageArrived => exact beats.messageArrived step
  | senderExpires index =>
      rcases Option.ite_none_right_eq_some.mp step with ⟨reached, same⟩
      cases same
      exact { beats with sender := beats.sender.expire reached index }
  | senderHandler index => exact beats.senderHandler positive slack step
  | receiverExpires index =>
      rcases Option.ite_none_right_eq_some.mp step with ⟨reached, same⟩
      cases same
      exact { beats with receiver := beats.receiver.expire reached index }
  | receiverHandler index => exact beats.receiverHandler positive slack step

end Beating

/-- As long as timers are handled and messages arrive promptly enough, the timeout of a server's session
never disconnects a peer that sends heartbeats. -/
theorem heartbeats_keep_connection (latencies : Latencies) {first last : Heartbeats}
    (starts : first.Starts latencies)
    (slack : 2 * first.sender.heartbeatInterval + latencies.transfer + latencies.timer + latencies.arrival ≤
      first.receiver.validHeartbeatInterval)
    {labels : List Label} (run : Run (Where Step (Prompt latencies)) first labels last) :
    last.disconnects = false ∧
      last.now < last.receiver.lastHeartbeatedTime + first.receiver.validHeartbeatInterval := by
  have beats : last.Beats latencies first.sender.heartbeatInterval
      first.receiver.validHeartbeatInterval := by
    apply run.invariant fun _ state => state.Beats latencies first.sender.heartbeatInterval
      first.receiver.validHeartbeatInterval
    · exact starts.beats
    · intro history state label next beats step
      exact beats.step starts.positive slack step.1 step.2
  exact ⟨beats.connected, beats.heard slack⟩

def Handled (handling : Nat) (state : Heartbeats) : Label → Prop
  | .elapse duration => state.now + duration ≤ state.receiver.expiresAt + handling
  | _ => True

instance (handling : Nat) (state : Heartbeats) (label : Label) :
    Decidable (Handled handling state label) :=
  match label with
  | .elapse _ => inferInstanceAs (Decidable (_ ≤ _))
  | .sendMessage => .isTrue trivial
  | .messageTransfered => .isTrue trivial
  | .messageArrived => .isTrue trivial
  | .senderExpires _ => .isTrue trivial
  | .senderHandler _ => .isTrue trivial
  | .receiverExpires _ => .isTrue trivial
  | .receiverHandler _ => .isTrue trivial

/-- The receiver's timer runs, and its next expiry is not far from the last message that counted. -/
structure Watches (handling validInterval began : Nat) (state : Heartbeats) : Prop where
  receiverInterval : state.receiver.validHeartbeatInterval = validInterval
  receiver : Ticking validInterval state.receiver.heartbeatTimer state.receiver.expiresAt state.now
  heartbeated : state.receiver.lastHeartbeatedTime ≤ state.now
  expires : state.receiver.expiresAt < state.receiver.lastHeartbeatedTime + 2 * validInterval
  handled : state.now ≤ state.receiver.expiresAt + handling
  unheard : state.session = .clientSideSession → state.receiver.lastHeartbeatedTime = began ∧
    state.receiver.expiresAt = began + validInterval

section Watching

variable {handling validInterval began : Nat} {state next : Heartbeats}

theorem SetUp.watches (setUp : state.SetUp) (handling : Nat) :
    state.Watches handling state.receiver.validHeartbeatInterval state.now := by
  obtain ⟨positive, receiver, heartbeated, expires⟩ := setUp.receiver
  constructor
  · rfl
  · exact receiver
  · exact Nat.le_of_eq heartbeated
  · rw [heartbeated, expires]
    omega
  · rw [expires]
    omega
  · exact fun _ => ⟨heartbeated, expires⟩

/-- A timer that does not disconnect has found a message that is recent, and a `ClientSideSession`
never does. -/
theorem Watches.receiverHandler (watches : state.Watches handling validInterval began)
    (short : 2 * validInterval + handling ≤ 2 ^ 32) {index : Nat}
    (delivers : receiverTimer.deliver receiverTimedOut index state = some next)
    (connected : next.disconnects = false) : next.Watches handling validInterval began := by
  obtain ⟨reached, timer, none, rfl⟩ :=
    watches.receiver.delivered receiverTimer (fun _ _ => rfl) receiver_timer_put delivers
  unfold receiverTimedOut HeartBeatReceiver.isZombie at connected ⊢
  dsimp only at connected ⊢
  split at connected
  · cases connected
  · rename_i alive
    have heartbeated := watches.heartbeated
    have expires := watches.expires
    have handled := watches.handled
    have recent : ¬state.now - state.receiver.lastHeartbeatedTime ≥
        state.receiver.validHeartbeatInterval := by
      intro silent
      apply alive
      rw [← elapsed_exact (by omega)] at silent
      exact decide_eq_true silent
    rw [watches.receiverInterval] at recent
    rw [if_neg alive]
    refine { watches with
      receiver := ticking_start none _ _
      expires := ?_
      handled := ?_
      unheard := ?_ }
    · change state.now + state.receiver.validHeartbeatInterval < state.receiver.lastHeartbeatedTime + _
      rw [watches.receiverInterval]
      omega
    · change state.now ≤ state.now + state.receiver.validHeartbeatInterval + _
      omega
    · intro session
      obtain ⟨same, expires⟩ := watches.unheard session
      rw [same] at recent
      rw [expires] at reached
      omega

theorem Watches.messageArrived (watches : state.Watches handling validInterval began)
    (arrives : state.onMessageArrived = some next) : next.Watches handling validInterval began := by
  unfold onMessageArrived at arrives
  split at arrives
  · cases arrives
  · split at arrives
    · rename_i session
      cases arrives
      have expires := watches.expires
      have heartbeated := watches.heartbeated
      refine { watches with
        heartbeated := Nat.le_refl _
        expires := ?_
        unheard := fun other => absurd (session.symm.trans other) (by decide) }
      change state.receiver.expiresAt < state.now + _
      omega
    · cases arrives
      exact { watches with }

/-- Who sends what makes no difference to the receiver until it arrives. -/
theorem Watches.unseen (watches : state.Watches handling validInterval began)
    (session : next.session = state.session) (receiver : next.receiver = state.receiver)
    (now : next.now = state.now) : next.Watches handling validInterval began := by
  constructor
  · rw [receiver]
    exact watches.receiverInterval
  · rw [receiver, now]
    exact watches.receiver
  · rw [receiver, now]
    exact watches.heartbeated
  · rw [receiver]
    exact watches.expires
  · rw [receiver, now]
    exact watches.handled
  · rw [receiver, session]
    exact watches.unheard

theorem sender_handler_unseen {index : Nat}
    (delivers : senderTimer.deliver senderTimedOut index state = some next) :
    next.session = state.session ∧ next.receiver = state.receiver ∧ next.now = state.now ∧
      next.disconnects = state.disconnects := by
  apply deliver_keeps (fun later => later.session = state.session ∧
    later.receiver = state.receiver ∧ later.now = state.now ∧ later.disconnects = state.disconnects)
    (fun _ _ kept => kept) _ delivers ⟨rfl, rfl, rfl, rfl⟩
  intro later kept
  unfold senderTimedOut
  dsimp only
  split <;> exact kept

theorem receiver_handler_disconnects {index : Nat}
    (delivers : receiverTimer.deliver receiverTimedOut index state = some next)
    (connected : next.disconnects = false) : state.disconnects = false := by
  by_contra disconnected
  have stays : next.disconnects = true := by
    apply deliver_keeps (fun later : Heartbeats => later.disconnects = true)
      (fun _ _ kept => kept) _ delivers (Bool.eq_true_of_not_eq_false disconnected)
    intro later kept
    unfold receiverTimedOut
    dsimp only
    split
    · rfl
    · exact kept
  exact absurd (connected.symm.trans stays) (by decide)

theorem Watches.step (watches : state.disconnects = false → state.Watches handling validInterval began)
    (short : 2 * validInterval + handling ≤ 2 ^ 32) {label : Label} (step : Step state label next)
    (promptly : Handled handling state label)
    (connected : next.disconnects = false) : next.Watches handling validInterval began := by
  cases label with
  | elapse duration =>
      cases step
      have before := watches connected
      exact { before with
        receiver := before.receiver.later duration
        heartbeated := Nat.le_add_right_of_le before.heartbeated
        handled := promptly }
  | sendMessage =>
      cases step
      exact (watches connected).unseen rfl rfl rfl
  | messageTransfered =>
      change state.onMessageTransfered = some next at step
      unfold onMessageTransfered at step
      split at step
      · cases step
      · cases step
        exact (watches connected).unseen rfl rfl rfl
  | messageArrived =>
      have before : state.disconnects = false := by
        change state.onMessageArrived = some next at step
        unfold onMessageArrived at step
        split at step
        · cases step
        · split at step <;> (cases step; exact connected)
      exact (watches before).messageArrived step
  | senderExpires index =>
      rcases Option.ite_none_right_eq_some.mp step with ⟨_, same⟩
      cases same
      exact (watches connected).unseen rfl rfl rfl
  | senderHandler index =>
      obtain ⟨session, receiver, now, disconnects⟩ := sender_handler_unseen step
      exact (watches (disconnects.symm.trans connected)).unseen session receiver now
  | receiverExpires index =>
      rcases Option.ite_none_right_eq_some.mp step with ⟨reached, same⟩
      cases same
      have before := watches connected
      exact { before with receiver := before.receiver.expire reached index }
  | receiverHandler index =>
      exact (watches (receiver_handler_disconnects step connected)).receiverHandler short step connected

end Watching

/-- A peer of which nothing is heard is disconnected before two intervals are over, and a
`ClientSideSession` disconnects its peer after the first interval, whatever arrives. -/
theorem silent_peer_is_disconnected (handling : Nat) {first last : Heartbeats} (setUp : first.SetUp)
    (short : 2 * first.receiver.validHeartbeatInterval + handling ≤ 2 ^ 32) {labels : List Label}
    (run : Run (Where Step (Handled handling)) first labels last)
    (connected : last.disconnects = false) :
    last.now < last.receiver.lastHeartbeatedTime + 2 * first.receiver.validHeartbeatInterval + handling ∧
      (last.session = .clientSideSession →
        last.now ≤ first.now + first.receiver.validHeartbeatInterval + handling) := by
  have watches : last.disconnects = false →
      last.Watches handling first.receiver.validHeartbeatInterval first.now := by
    apply run.invariant fun _ state => state.disconnects = false →
      state.Watches handling first.receiver.validHeartbeatInterval first.now
    · exact fun _ => setUp.watches handling
    · intro history state label next before step
      exact Watches.step before short step.1 step.2
  have kept := watches connected
  have expires := kept.expires
  have handled := kept.handled
  refine ⟨by omega, ?_⟩
  intro session
  obtain ⟨_, same⟩ := kept.unheard session
  rw [same] at handled
  exact handled

section Concrete

def beating (session : ReceiverSession) : Heartbeats :=
  { now := 0
    session
    sender := Heartbeater.start 0
      { heartbeatInterval := 10, isMsec := by decide, lastSentTime := 0,
        heartbeatTimer := {}, expiresAt := 0 }
    receiver := HeartBeatReceiver.setupTimer 0
      { validHeartbeatInterval := 30, isMsec := by decide, lastHeartbeatedTime := 0,
        heartbeatTimer := {}, expiresAt := 0 }
    asked := []
    inFlight := []
    disconnects := false }

theorem beating_set_up (session : ReceiverSession) : (beating session).SetUp :=
  ⟨{ validHeartbeatInterval := 30, isMsec := by decide, lastHeartbeatedTime := 0, heartbeatTimer := {},
      expiresAt := 0 }, rfl, by decide, rfl⟩

def slowest : Latencies := { timer := 2, transfer := 3, arrival := 5 }

def threeTicks : List Label :=
  [.elapse 11, .senderExpires 0, .senderHandler 0, .elapse 3, .messageTransfered, .elapse 2,
    .messageArrived, .sendMessage, .messageTransfered, .elapse 5, .messageArrived, .senderExpires 0,
    .senderHandler 0, .elapse 10, .receiverExpires 0, .receiverHandler 0, .senderExpires 0, .senderHandler 0]

theorem heartbeats_keep_connection_ticks : ∃ last,
    Run (Where Step (Prompt slowest)) (beating .serverSideSession) threeTicks last ∧ last.now = 31 ∧
      last.disconnects = false := by
  have executes : (execute (guarded advance (Prompt slowest)) (beating .serverSideSession) threeTicks).map
      (fun last => last.now) = some 31 := by
    decide +kernel
  rcases Run.of_guarded Step (Prompt slowest) (fun _ _ _ taken => taken) executes with ⟨last, run, now⟩
  have starts : (beating .serverSideSession).Starts slowest := by
    obtain ⟨sender, expires⟩ := start_ticks
      { heartbeatInterval := 10, isMsec := by decide, lastSentTime := 0,
        heartbeatTimer := {}, expiresAt := 0 }
      rfl (by decide) 0
    exact ⟨rfl, by decide, sender, Nat.zero_le _, Nat.le_of_eq expires, Nat.le_refl _, by decide,
      beating_set_up .serverSideSession, rfl, rfl, rfl⟩
  exact ⟨last, run, now, (heartbeats_keep_connection slowest starts (by decide) run).1⟩

theorem silent_peer_is_disconnected_unheard : ∃ last,
    Run (Where Step (Handled 1)) (beating .clientSideSession)
        [.sendMessage, .elapse 29, .messageArrived] last ∧
      last.now ≤ 31 := by
  have executes : (execute (guarded advance (Handled 1)) (beating .clientSideSession)
      [.sendMessage, .elapse 29, .messageArrived]).map (fun last => (last.disconnects, last.session)) =
        some (false, .clientSideSession) := by
    decide +kernel
  rcases Run.of_guarded Step (Handled 1) (fun _ _ _ taken => taken) executes with ⟨last, run, facts⟩
  exact ⟨last, run, (silent_peer_is_disconnected 1 (beating_set_up .clientSideSession) (by decide) run
    (congrArg Prod.fst facts)).2 (congrArg Prod.snd facts)⟩

end Concrete

end Heartbeats

end Sne.Server
