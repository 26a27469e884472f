import Sne.Sgp.CsMessage
import Sne.Sgp.PacketCoder

/-!
# Seed exchangers

`PacketSeedExchangerImpl.cpp`. What an exchanger does outside of itself is a list
of effects in the order of the calls: messages given to the session, seeds given to
the coder and calls of the session's callback. The RSA functions of the callback
are parameters.
-/

namespace Sne.Sgp

set_option autoImplicit false

/-- `PacketSeedExchangerCallback` without `seedExchanged`. A function that fails
returns nothing. -/
structure PacketSeedExchangerCallback where
  generatePublicAndPrivateKey : Option (List UInt8 × List UInt8)
  encryptSeed : Seed → List UInt8 → Seed
  decryptSeed : Seed → Option Seed

inductive ExchangeEffect where
  | generateCipherSeed (encryptSeed decryptSeed : Seed)
  | sendMessage (message : CsMessage)
  | setEncryptSeed (seed : Seed)
  | setDecryptSeed (seed : Seed)
  | extendCipherKeyTimeLimit
  | seedExchanged
  deriving DecidableEq, Repr

structure PacketSeedExchangerForServer where
  privateKey : List UInt8 := []
  otherSidePublicKey : List UInt8 := []
  exchangingDecryptSeed : Seed := []
  deriving DecidableEq, Repr

structure PacketSeedExchangerForClient where
  privateKey : List UInt8 := []
  otherSidePublicKey : List UInt8 := []
  deriving DecidableEq, Repr

namespace PacketSeedExchangerForServer

variable {κ : Type} [PacketCoder κ]

abbrev Outcome := PacketSeedExchangerForServer × List ExchangeEffect

def exchangePublicKey (coder : κ) (exchanger : PacketSeedExchangerForServer) : Outcome :=
  if !PacketCoder.hasPacketCipher coder then
    (exchanger, [.seedExchanged])
  else
    (exchanger, [])

def exchangeSeed (callback : PacketSeedExchangerCallback) (clock : UInt32) (coder : κ)
    (publicKey : List UInt8) (exchanger : PacketSeedExchangerForServer) : Outcome :=
  if !exchanger.exchangingDecryptSeed.isEmpty then
    (exchanger, [])
  else
    let (seedForEncrypt, seedForDecrypt) := PacketCoder.generateCipherSeed clock coder
    let message : ExchangeSeedMessage :=
      { publicKey
        seedForEncrypt := callback.encryptSeed seedForEncrypt exchanger.otherSidePublicKey
        seedForDecrypt := callback.encryptSeed seedForDecrypt exchanger.otherSidePublicKey }
    ({ exchanger with exchangingDecryptSeed := seedForDecrypt },
      [.generateCipherSeed seedForEncrypt seedForDecrypt, .sendMessage (.exchangeSeed message),
        .setEncryptSeed seedForEncrypt])

def exchangeNextSeed (callback : PacketSeedExchangerCallback) (now : TimePoint) (clock : UInt32)
    (coder : κ) (exchanger : PacketSeedExchangerForServer) : Outcome :=
  if !PacketCoder.shouldExchangeCipherSeed coder || !PacketCoder.isCipherKeyExpired now coder then
    (exchanger, [])
  else
    let (exchanger, effects) := exchangeSeed callback clock coder [] exchanger
    (exchanger, effects ++ [.extendCipherKeyTimeLimit])

def exchangeFirstSeed (callback : PacketSeedExchangerCallback) (clock : UInt32) (coder : κ)
    (publicKey : List UInt8) (exchanger : PacketSeedExchangerForServer) : Outcome :=
  if !PacketCoder.shouldExchangeCipherSeed coder then
    (exchanger, [])
  else
    exchangeSeed callback clock coder publicKey { exchanger with exchangingDecryptSeed := [] }

def onExchangePublicKey (callback : PacketSeedExchangerCallback) (clock : UInt32) (coder : κ)
    (message : ExchangePublicKeyMessage) (exchanger : PacketSeedExchangerForServer) : Outcome :=
  if !PacketCoder.shouldExchangeCipherSeed coder then
    (exchanger, [.sendMessage (.exchangeSeed {}), .seedExchanged])
  else
    let exchanger := { exchanger with otherSidePublicKey := message.publicKey }
    match callback.generatePublicAndPrivateKey with
    | none => (exchanger, [])
    | some (myPublicKey, privateKey) =>
        exchangeFirstSeed callback clock coder myPublicKey { exchanger with privateKey }

def onConfirmSeed (exchanger : PacketSeedExchangerForServer) : Outcome :=
  ({ exchanger with exchangingDecryptSeed := [] },
    [.setDecryptSeed exchanger.exchangingDecryptSeed, .seedExchanged])

end PacketSeedExchangerForServer

namespace PacketSeedExchangerForClient

variable {κ : Type} [PacketCoder κ]

abbrev Outcome := PacketSeedExchangerForClient × List ExchangeEffect

def exchangePublicKey (callback : PacketSeedExchangerCallback) (coder : κ)
    (exchanger : PacketSeedExchangerForClient) : Outcome :=
  if !PacketCoder.hasPacketCipher coder then
    (exchanger, [.seedExchanged])
  else
    match callback.generatePublicAndPrivateKey with
    | none => (exchanger, [.seedExchanged])
    | some (publicKey, privateKey) =>
        ({ exchanger with privateKey }, [.sendMessage (.exchangePublicKey { publicKey })])

def onExchangeSeed (callback : PacketSeedExchangerCallback) (message : ExchangeSeedMessage)
    (exchanger : PacketSeedExchangerForClient) : Outcome :=
  if message.isEmpty then
    (exchanger, [.seedExchanged])
  else
    let exchanger := { exchanger with otherSidePublicKey := message.publicKey }
    match callback.decryptSeed message.seedForEncrypt with
    | none => (exchanger, [])
    | some decryptedSeedForEncrypt =>
        match callback.decryptSeed message.seedForDecrypt with
        | none => (exchanger, [])
        | some decryptedSeedForDecrypt =>
            (exchanger, [.setDecryptSeed decryptedSeedForEncrypt, .sendMessage .confirmSeed,
              .setEncryptSeed decryptedSeedForDecrypt, .seedExchanged])

end PacketSeedExchangerForClient

end Sne.Sgp
