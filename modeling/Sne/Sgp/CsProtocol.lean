import Sne.Library.Endian

/-!
# Client and server messages

`Message.h`, `CsMessage.h`, `CsProtocol.h` and `sgp.h`. A message type is a C++
enumeration over an `int`: -1 is unknown and 0 to 255 are valid. A packet starts
with the size of its body, 2 bytes, and its message type, 1 byte.
-/

namespace Sne.Sgp

open Sne.Library.Endian

set_option autoImplicit false

abbrev MessageType := Int

def mtUnknown : MessageType := -1
def mtFirst : MessageType := 0
def mtLast : MessageType := 255

def isValidMessage (mt : MessageType) : Bool := mtFirst ≤ mt && mt ≤ mtLast

theorem is_valid_message_iff (mt : Int) : isValidMessage mt = true ↔ 0 ≤ mt ∧ mt ≤ 255 := by
  simp only [isValidMessage, Bool.and_eq_true, decide_eq_true_eq]
  rfl

def csmtSystemFirst : MessageType := 0
def csmtSystemHeartbeat : MessageType := csmtSystemFirst
def csmtSystemExchangeSeed : MessageType := 1
def csmtSystemExchangePublicKey : MessageType := 2
def csmtSystemConfirmSeed : MessageType := 3
def csmtSystemLast : MessageType := 4
def csmtUserDefinedBegin : MessageType := 21
def csmtRpc : MessageType := csmtUserDefinedBegin

def isSystemMessage (mt : MessageType) : Bool := csmtSystemFirst ≤ mt && mt < csmtSystemLast

theorem rpc_message_valid : isValidMessage csmtRpc = true := by
  decide

abbrev BodySize := UInt16

structure CsPacketHeader where
  bodySize : BodySize
  messageType : MessageType
  deriving DecidableEq, Repr

namespace CsPacketHeader

def getHeaderSize : Nat := 2 + 1

/-- The state after `reset()`, which is also that of a new header. -/
def empty : CsPacketHeader := { bodySize := 0, messageType := mtUnknown }

def isValid (header : CsPacketHeader) : Bool := 0 ≤ header.bodySize && isValidMessage header.messageType

def write (header : CsPacketHeader) : List UInt8 :=
  littleEndian 2 header.bodySize.toNat ++ [UInt8.ofInt header.messageType]

def read (buffer : List UInt8) : CsPacketHeader :=
  { bodySize := UInt16.ofNat (ofLittleEndian (buffer.take 2))
    messageType := (buffer.getD 2 0).toNat }

@[simp] theorem write_length (header : CsPacketHeader) : header.write.length = getHeaderSize := by
  simp [write, getHeaderSize]

theorem is_valid_eq (header : CsPacketHeader) :
    header.isValid = isValidMessage header.messageType := by
  simp [isValid]

theorem empty_not_valid : empty.isValid = false := by
  decide

theorem read_valid (buffer : List UInt8) : (read buffer).isValid = true := by
  have bound := (buffer.getD 2 0).toNat_lt
  rw [is_valid_eq, is_valid_message_iff]
  simp only [read]
  omega

theorem read_write (header : CsPacketHeader) (valid : header.isValid = true) (rest : List UInt8) :
    read (header.write ++ rest) = header := by
  obtain ⟨bodySize, messageType⟩ := header
  rw [is_valid_eq, is_valid_message_iff] at valid
  simp only at valid
  have size : UInt16.ofNat (ofLittleEndian (littleEndian 2 bodySize.toNat)) = bodySize := by
    have bound := bodySize.toNat_lt
    apply UInt16.toNat_inj.mp
    rw [of_little_endian_little_endian, UInt16.toNat_ofNat']
    omega
  have type : ((UInt8.ofInt messageType).toNat : Int) = messageType := by
    obtain ⟨number, rfl⟩ := Int.eq_ofNat_of_zero_le valid.1
    have small : number < 256 := by omega
    rw [UInt8.ofInt, UInt8.toNat_ofNat']
    omega
  simp only [read, write, littleEndian, List.cons_append, List.nil_append, List.take_succ_cons,
    List.take_zero, List.getD_cons_succ, List.getD_cons_zero] at size ⊢
  rw [size, type]

theorem read_take (buffer : List UInt8) (count : Nat) (enough : getHeaderSize ≤ count) :
    read (buffer.take count) = read buffer := by
  unfold getHeaderSize at enough
  simp only [read, List.take_take, List.getD_eq_getElem?_getD, List.getElem?_take]
  rw [Nat.min_eq_left (by omega), if_pos (by omega)]

theorem read_append (buffer more : List UInt8) (enough : getHeaderSize ≤ buffer.length) :
    read (buffer ++ more) = read buffer := by
  unfold getHeaderSize at enough
  simp only [read, List.getD_eq_getElem?_getD]
  rw [List.take_append_of_le_length (by omega), List.getElem?_append_left (by omega)]

end CsPacketHeader

end Sne.Sgp
