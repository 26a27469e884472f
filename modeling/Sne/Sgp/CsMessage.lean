import Sne.Core.ByteStream
import Sne.Core.IBitStream
import Sne.Core.OBitStream
import Sne.Sgp.CsProtocol

/-!
# System messages

`CsMessage.h`. The messages that a session handles itself, with their `serialize`
methods for an output and for an input stream. A string has a 16-bit length. The
session chooses the kind of the streams when it is created.
-/

namespace Sne.Sgp

open Sne.Core

set_option autoImplicit false

/-- `operator<<` for a `std::string`. -/
def writeText {σ : Type} [OStream σ] (value : List UInt8) : StreamM σ Unit :=
  OStream.writeString value ushrtMax 16

/-- `operator>>` for a `std::string`. -/
def readText {σ : Type} [IStream σ] : StreamM σ (List UInt8) :=
  IStream.readString ushrtMax 16

structure ExchangeSeedMessage where
  publicKey : List UInt8 := []
  seedForEncrypt : List UInt8 := []
  seedForDecrypt : List UInt8 := []
  deriving DecidableEq, Repr

def ExchangeSeedMessage.isEmpty (message : ExchangeSeedMessage) : Bool :=
  message.publicKey.isEmpty && message.seedForEncrypt.isEmpty && message.seedForDecrypt.isEmpty

structure ExchangePublicKeyMessage where
  publicKey : List UInt8
  deriving DecidableEq, Repr

inductive CsMessage where
  | heartbeat
  | exchangeSeed (message : ExchangeSeedMessage)
  | exchangePublicKey (message : ExchangePublicKeyMessage)
  | confirmSeed
  deriving DecidableEq, Repr

namespace CsMessage

def messageType : CsMessage → MessageType
  | heartbeat => csmtSystemHeartbeat
  | exchangeSeed _ => csmtSystemExchangeSeed
  | exchangePublicKey _ => csmtSystemExchangePublicKey
  | confirmSeed => csmtSystemConfirmSeed

def write {σ : Type} [OStream σ] : CsMessage → StreamM σ Unit
  | exchangeSeed message => do
      writeText message.publicKey
      writeText message.seedForEncrypt
      writeText message.seedForDecrypt
  | exchangePublicKey message => writeText message.publicKey
  | heartbeat => pure ()
  | confirmSeed => pure ()

theorem message_type_valid (message : CsMessage) : isValidMessage message.messageType = true := by
  cases message <;> rfl

end CsMessage

def ExchangeSeedMessage.read {σ : Type} [IStream σ] : StreamM σ ExchangeSeedMessage := do
  let publicKey ← readText
  let seedForEncrypt ← readText
  let seedForDecrypt ← readText
  pure { publicKey, seedForEncrypt, seedForDecrypt }

def ExchangePublicKeyMessage.read {σ : Type} [IStream σ] : StreamM σ ExchangePublicKeyMessage := do
  let publicKey ← readText
  pure { publicKey }

structure SneStreamFactory where
  shouldUseUtf8ForString : Bool
  useBitPacking : Bool

namespace SneStreamFactory

/-- `SessionImpl::serialize`: the body of the message. -/
def serialize (factory : SneStreamFactory) (message : CsMessage) : Except Exception (List UInt8) :=
  if factory.useBitPacking then
    match (message.write *> OStream.align)
      (OBitStream.create (ByteQueue.mk []) factory.shouldUseUtf8ForString) with
    | .ok _ ostream => .ok ostream.streamBuffer.items
    | .error e _ => .error e
  else
    match (message.write *> OStream.align)
      (OByteStream.mk (ByteQueue.mk []) factory.shouldUseUtf8ForString) with
    | .ok _ ostream => .ok ostream.streamBuffer.items
    | .error e _ => .error e

/-- `SessionImpl::deserialize` and a `serialize` method on the stream that it gives. -/
def deserialize {α : Type} (factory : SneStreamFactory)
    (read : {σ : Type} → [IStream σ] → StreamM σ α) (body : List UInt8) : Except Exception α :=
  if factory.useBitPacking then
    match read (IBitStream.create (ByteQueue.mk body) factory.shouldUseUtf8ForString) with
    | .ok message _ => .ok message
    | .error e _ => .error e
  else
    match read (IByteStream.mk (ByteQueue.mk body) factory.shouldUseUtf8ForString) with
    | .ok message _ => .ok message
    | .error e _ => .error e

end SneStreamFactory

end Sne.Sgp
