import Sne.Session.Connection
import Sne.Srpc.SgpRpcNetwork

/-!
# Messages of an application over a connection

`MessagingExtension.cpp`. A session knows classes of messages. It keeps one object of each class that
a callback was registered for, reads every message of the class into it and calls the callback with it.
A message that is no class's, or that cannot be read, goes on to the other extensions.
-/

namespace Sne.Session

open Sne.Base Sne.Core Sne.Sgp Sne.Srpc Sne.Library.Exec Sne.Library.Codec Sne.Library.Runs

set_option autoImplicit false

/-- The classes that derive from `Message`, with their `serialize` methods. -/
structure MessageClasses (Class τ σ : Type) where
  messageType : Class → MessageType
  Fields : Class → Type
  write : (of : Class) → Fields of → StreamM τ Unit
  /-- Into an object, which keeps what was read before an exception. -/
  read : (of : Class) → StreamM (Fields of × σ) Unit

namespace MessageClasses

variable {Class τ σ : Type}

abbrev Message (classes : MessageClasses Class τ σ) : Type := Σ of : Class, classes.Fields of

end MessageClasses

/-- The message callbacks in the order of their registration, their objects and the calls of them. -/
structure MessagingExtension {Class τ σ : Type} (classes : MessageClasses Class τ σ) where
  callbacks : List Class
  objects : (of : Class) → classes.Fields of
  istream : σ
  calls : List classes.Message

namespace MessagingExtension

variable {Class τ σ : Type} [DecidableEq Class] {classes : MessageClasses Class τ σ}

def find (messageType : MessageType) (extension : MessagingExtension classes) : Option Class :=
  extension.callbacks.find? fun of => classes.messageType of == messageType

/-- `emplace` keeps a callback for the same type. -/
def registerMessageCallback (of : Class) (message : classes.Fields of)
    (extension : MessagingExtension classes) : MessagingExtension classes :=
  if (extension.find (classes.messageType of)).isSome then
    extension
  else
    { extension with
      callbacks := extension.callbacks ++ [of]
      objects := Function.update extension.objects of message }

/-- Whether the message was handled. Its exceptions are caught. -/
def handleMessage [BlockIStream σ] (messageType : MessageType) (mblock : MemoryBlock)
    (extension : MessagingExtension classes) : Bool × MessagingExtension classes :=
  match extension.find messageType with
  | none => (false, extension)
  | some of =>
      match classes.read of (extension.objects of, deserialize mblock extension.istream) with
      | .ok _ (message, istream) =>
          (true, { extension with
            objects := Function.update extension.objects of message
            istream
            calls := extension.calls ++ [⟨of, message⟩] })
      | .error _ (message, istream) =>
          (false, { extension with objects := Function.update extension.objects of message, istream })

/-- `SessionImpl::handleMessage`. The other extensions are asked about what is not handled. -/
def sessionHandles {κ : Type} [BlockIStream σ] (others : MarshallerCallback κ σ) :
    MarshallerCallback κ (MessagingExtension classes) :=
  fun messageType state =>
    match state.2.2.handleMessage messageType state.2.1 with
    | (true, extension) => .ok true (state.1, state.2.1, extension)
    | (false, extension) =>
        focus (fun state => (state.1, state.2.1, state.2.2.istream))
          (fun state inner => (inner.1, inner.2.1, { state.2.2 with istream := inner.2.2 }))
          (others messageType) (state.1, state.2.1, extension)

theorem session_handles_leaves {κ : Type} [BlockIStream σ] {others : MarshallerCallback κ σ}
    (leaves : LeavesCoder others) :
    LeavesCoder (sessionHandles others : MarshallerCallback κ (MessagingExtension classes)) := by
  intro messageType coder mblock extension
  unfold sessionHandles
  dsimp only
  rcases extension.handleMessage messageType mblock with ⟨handled, next⟩
  cases handled with
  | true => exact ⟨mblock, next, .inl rfl⟩
  | false =>
      simp only [focus]
      obtain ⟨after, istream, accepted | refused | ⟨e, failed⟩⟩ :=
        leaves messageType coder mblock next.istream
      · rw [accepted]
        exact ⟨after, { next with istream }, .inl rfl⟩
      · rw [refused]
        exact ⟨after, { next with istream }, .inr (.inl rfl)⟩
      · rw [failed]
        exact ⟨after, { next with istream }, .inr (.inr ⟨e, rfl⟩)⟩

end MessagingExtension

/-- Streams and classes between which messages are carried. -/
structure CarriesMessages {Class τ σ : Type} [BlockOStream τ] [BlockIStream σ]
    (classes : MessageClasses Class τ σ) where
  /-- Between two messages. -/
  Settled : τ → Prop
  Valid : classes.Message → Prop
  Same : (of : Class) → classes.Fields of → classes.Fields of → Prop
  encode : classes.Message → List UInt8
  serializes : ∀ message, Valid message → ∀ acquired ostream, Settled ostream →
    ∃ (mblock : MemoryBlock) (next : τ),
      serialize (classes.write message.1 message.2) acquired ostream = (some mblock, next) ∧
      mblock.contents = acquired.block.contents ++ encode message ∧ Settled next
  reads : ∀ message, Valid message → ∀ (mblock : MemoryBlock) (istream : σ)
    (object : classes.Fields message.1) rest, mblock.contents = encode message ++ rest →
    ∃ read after, Runs (classes.read message.1) (object, deserialize mblock istream) () (read, after) ∧
      Same message.1 message.2 read

section Dispatching

variable {Class τ σ κ : Type} [DecidableEq Class] [BlockOStream τ] [BlockIStream σ]
variable {classes : MessageClasses Class τ σ}

/-- The class that a message's type was registered for, with the message's body. -/
def MessagingExtension.ofClass (extension : MessagingExtension classes)
    (message : MessageType × List UInt8) : Option (Class × List UInt8) :=
  (extension.find message.1).map fun of => (of, message.2)

namespace CarriesMessages

variable (carries : CarriesMessages classes)

/-- `MessagingExtension::sendMessage` puts this behind the header of a block. -/
def WrittenAs (message : classes.Message) (body : Class × List UInt8) : Prop :=
  body.1 = message.1 ∧ ∃ acquired ostream mblock next, carries.Settled ostream ∧
    serialize (classes.write message.1 message.2) acquired ostream = (some mblock, next) ∧
    mblock.contents = acquired.block.contents ++ body.2

def Calls (messages : List classes.Message) (invoked : List classes.Message) : Prop :=
  List.Forall₂ (fun message called =>
    ∃ read, called = ⟨message.1, read⟩ ∧ carries.Same message.1 message.2 read) messages invoked

def opened (blockSize : Nat) (message : classes.Message) : Class × List UInt8 :=
  (message.1, padded blockSize (carries.encode message))

/-- Every list of messages that the arrived ones are the bodies of has been dispatched, in its order. -/
structure Dispatched (blockSize : Nat) (first extension : MessagingExtension classes)
    (arrived : List (MessageType × List UInt8)) : Prop where
  callbacks : extension.callbacks = first.callbacks
  calls : ∀ messages, arrived.filterMap first.ofClass = messages.map (carries.opened blockSize) →
    (∀ message ∈ messages, carries.Valid message) →
    ∃ invoked, extension.calls = first.calls ++ invoked ∧ carries.Calls messages invoked

variable {carries}

omit [DecidableEq Class] in
theorem written_bodies {messages : List classes.Message} {bodies : List (Class × List UInt8)}
    (written : List.Forall₂ carries.WrittenAs messages bodies)
    (valid : ∀ message ∈ messages, carries.Valid message) :
    bodies = messages.map fun message => (message.1, carries.encode message) := by
  induction written with
  | nil => rfl
  | @cons message body _ _ first _ induction =>
      obtain ⟨sameClass, acquired, ostream, mblock, next, settled, serialized, contents⟩ := first
      obtain ⟨other, after, serializes, isEncoded, _⟩ :=
        carries.serializes message (valid message List.mem_cons_self) acquired ostream settled
      cases serialized.symm.trans serializes
      have sameBody := List.append_cancel_left (contents.symm.trans isEncoded)
      rw [List.map_cons, ← sameBody, ← sameClass,
        induction fun other member => valid other (List.mem_cons_of_mem _ member)]

theorem handle_message_calls {extension : MessagingExtension classes} {message : classes.Message}
    (valid : carries.Valid message) {messageType : MessageType}
    (found : extension.find messageType = some message.1) {mblock : MemoryBlock} {rest : List UInt8}
    (body : mblock.contents = carries.encode message ++ rest) :
    ∃ read next, extension.handleMessage messageType mblock = (true, next) ∧
      carries.Same message.1 message.2 read ∧ next.callbacks = extension.callbacks ∧
      next.calls = extension.calls ++ [⟨message.1, read⟩] := by
  obtain ⟨read, after, runs, same⟩ :=
    carries.reads message valid mblock extension.istream (extension.objects message.1) rest body
  unfold Runs at runs
  refine ⟨read, { extension with
      objects := Function.update extension.objects message.1 read
      istream := after
      calls := extension.calls ++ [⟨message.1, read⟩] }, ?_, same, rfl, rfl⟩
  simp only [MessagingExtension.handleMessage, found, runs]

omit [BlockOStream τ] in
theorem handle_message_callbacks (messageType : MessageType) (mblock : MemoryBlock)
    (extension : MessagingExtension classes) :
    (extension.handleMessage messageType mblock).2.callbacks = extension.callbacks := by
  unfold MessagingExtension.handleMessage
  split
  · rfl
  · split <;> rfl

omit [BlockOStream τ] in
theorem handle_message_unknown {messageType : MessageType} {extension : MessagingExtension classes}
    (unknown : extension.find messageType = none) (mblock : MemoryBlock) :
    extension.handleMessage messageType mblock = (false, extension) := by
  simp only [MessagingExtension.handleMessage, unknown]

omit [DecidableEq Class] in
theorem dispatched_nothing {blockSize : Nat} (first : MessagingExtension classes) :
    carries.Dispatched blockSize first first [] := by
  refine ⟨rfl, ?_⟩
  intro messages arrived _
  have none : messages = [] := List.map_eq_nil_iff.mp arrived.symm
  subst none
  exact ⟨[], (List.append_nil _).symm, .nil⟩

theorem Dispatched.handle_message {blockSize : Nat} {first extension : MessagingExtension classes}
    {arrived : List (MessageType × List UInt8)}
    (dispatched : carries.Dispatched blockSize first extension arrived) (messageType : MessageType)
    (mblock : MemoryBlock) :
    carries.Dispatched blockSize first (extension.handleMessage messageType mblock).2
      (arrived ++ [(messageType, mblock.contents)]) := by
  have sameFind : extension.find messageType = first.find messageType := by
    rw [MessagingExtension.find, dispatched.callbacks]
    rfl
  refine ⟨(handle_message_callbacks messageType mblock extension).trans dispatched.callbacks, ?_⟩
  intro messages bodies valid
  rw [List.filterMap_append] at bodies
  cases found : first.find messageType with
  | none =>
      have other : [(messageType, mblock.contents)].filterMap first.ofClass = [] := by
        simp [MessagingExtension.ofClass, found]
      rw [other, List.append_nil] at bodies
      rw [handle_message_unknown (sameFind.trans found)]
      exact dispatched.calls messages bodies valid
  | some of =>
      have body : [(messageType, mblock.contents)].filterMap first.ofClass = [(of, mblock.contents)] := by
        simp [MessagingExtension.ofClass, found]
      rw [body] at bodies
      obtain ⟨earlier, last, rfl, before, lastBody⟩ := List.map_eq_append_iff.mp bodies.symm
      obtain ⟨message, rfl, isOpened⟩ := List.map_eq_singleton_iff.mp lastBody
      obtain ⟨rfl, contents⟩ := Prod.mk.inj isOpened
      obtain ⟨invoked, calls, each⟩ := dispatched.calls earlier before.symm
        fun other member => valid other (List.mem_append_left _ member)
      obtain ⟨read, next, handled, same, _, nextCalls⟩ := handle_message_calls
        (valid message (List.mem_append_right _ (List.mem_singleton_self _))) (sameFind.trans found)
        contents.symm
      rw [handled]
      refine ⟨invoked ++ [⟨message.1, read⟩], ?_, List.rel_append each (.cons ⟨read, rfl, same⟩ .nil)⟩
      rw [nextCalls, calls, List.append_assoc]

theorem session_handles_dispatches (carries : CarriesMessages classes) (blockSize : Nat)
    (first : MessagingExtension classes) (others : MarshallerCallback κ σ) :
    Endpoint.KeepsArrived (MessagingExtension.sessionHandles others)
    (carries.Dispatched blockSize first) := by
  intro messageType coder mblock extension arrived dispatched
  have handled := dispatched.handle_message messageType mblock
  unfold MessagingExtension.sessionHandles
  dsimp only
  revert handled
  rcases extension.handleMessage messageType mblock with ⟨isHandled, next⟩
  intro handled
  cases isHandled with
  | true => exact handled
  | false =>
      simp only [focus]
      cases others messageType (coder, mblock, next.istream) with
      | ok accepted after => exact ⟨handled.callbacks, handled.calls⟩
      | error e after => exact ⟨handled.callbacks, handled.calls⟩

end CarriesMessages

end Dispatching

end Sne.Session
