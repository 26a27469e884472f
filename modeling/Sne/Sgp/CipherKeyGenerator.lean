import Sne.Security.BlockCipher
import Sne.Sgp.PacketCoder

/-!
# Cipher keys

`CipherKeyGenerator.cpp` and the seed functions of `SecurePacketCoder.cpp`. A seed
is a decimal number in a string. The static generator gives its seed as the key of
every packet; the dynamic one draws a new key for each packet from `boost::rand48`,
which is a parameter here.
-/

namespace Sne.Sgp

open Sne.Security

set_option autoImplicit false

/-- `boost::rand48`: seeded with the bits of an `int32_t`. -/
structure Rand48 where
  State : Type
  seed : UInt32 → State
  next : State → UInt32 × State

def isSpace (character : UInt8) : Bool := character == 32 || (9 ≤ character && character ≤ 13)

def isDigit (character : UInt8) : Bool := 48 ≤ character && character ≤ 57

def digitsValue (digits : List UInt8) : Int :=
  digits.foldl (fun value digit => 10 * value + (digit.toNat - 48 : Int)) 0

/-- `atoi`: a `strtol`, which stops at the limits of a 64-bit integer, cut to 32 bits. -/
def atoi (text : List UInt8) : UInt32 :=
  let trimmed := text.dropWhile isSpace
  let negative := trimmed.head? == some 45
  let unsigned := if negative || trimmed.head? == some 43 then trimmed.tail else trimmed
  let magnitude := digitsValue (unsigned.takeWhile isDigit)
  UInt32.ofInt (max (-2 ^ 63) (min (2 ^ 63 - 1) (if negative then -magnitude else magnitude)))

/-- `formatString("%d", value)`. -/
def formatDecimal (value : UInt32) : List UInt8 :=
  let number := value.toInt32.toInt
  let digits := (Nat.toDigits 10 number.natAbs).map fun digit => UInt8.ofNat digit.toNat
  if number < 0 then 45 :: digits else digits

def toCipherKey (seed : Seed) : Key := atoi seed

inductive CipherKeyGenerator (random : Rand48) where
  | static (encryptSeed decryptSeed : Key)
  | dynamic (encryptKey decryptKey : random.State)

namespace CipherKeyGenerator

variable {random : Rand48}

def staticDefaultSeed : Key := 0x20100301

def dynamicDefaultSeed : UInt32 := 0x19720212

def create (useDynamicKey : Bool) : CipherKeyGenerator random :=
  if useDynamicKey then
    .dynamic (random.seed dynamicDefaultSeed) (random.seed dynamicDefaultSeed)
  else
    .static staticDefaultSeed staticDefaultSeed

def isDynamic : CipherKeyGenerator random → Bool
  | .static _ _ => false
  | .dynamic _ _ => true

def reset (generator : CipherKeyGenerator random) : CipherKeyGenerator random :=
  create generator.isDynamic

def setEncryptCipherKey (newKey : Key) : CipherKeyGenerator random → CipherKeyGenerator random
  | .static _ decryptSeed => .static newKey decryptSeed
  | .dynamic _ decryptKey => .dynamic (random.seed newKey) decryptKey

def setDecryptCipherKey (newKey : Key) : CipherKeyGenerator random → CipherKeyGenerator random
  | .static encryptSeed _ => .static encryptSeed newKey
  | .dynamic encryptKey _ => .dynamic encryptKey (random.seed newKey)

def getEncryptCipherKey : CipherKeyGenerator random → Key × CipherKeyGenerator random
  | .static encryptSeed decryptSeed => (encryptSeed, .static encryptSeed decryptSeed)
  | .dynamic encryptKey decryptKey =>
      ((random.next encryptKey).1, .dynamic (random.next encryptKey).2 decryptKey)

def getDecryptCipherKey : CipherKeyGenerator random → Key × CipherKeyGenerator random
  | .static encryptSeed decryptSeed => (decryptSeed, .static encryptSeed decryptSeed)
  | .dynamic encryptKey decryptKey =>
      ((random.next decryptKey).1, .dynamic encryptKey (random.next decryptKey).2)

/-- One direction of a generator: where its next keys come from. -/
inductive KeySource (random : Rand48) where
  | static (seed : Key)
  | dynamic (state : random.State)

namespace KeySource

def key : KeySource random → Key
  | .static seed => seed
  | .dynamic state => (random.next state).1

def advance : KeySource random → KeySource random
  | .static seed => .static seed
  | .dynamic state => .dynamic (random.next state).2

def seeded (isDynamic : Bool) (newKey : Key) : KeySource random :=
  if isDynamic then .dynamic (random.seed newKey) else .static newKey

end KeySource

def encryptSource : CipherKeyGenerator random → KeySource random
  | .static encryptSeed _ => .static encryptSeed
  | .dynamic encryptKey _ => .dynamic encryptKey

def decryptSource : CipherKeyGenerator random → KeySource random
  | .static _ decryptSeed => .static decryptSeed
  | .dynamic _ decryptKey => .dynamic decryptKey

@[simp] theorem get_encrypt_key (generator : CipherKeyGenerator random) :
    generator.getEncryptCipherKey.1 = generator.encryptSource.key := by
  cases generator <;> rfl

@[simp] theorem get_decrypt_key (generator : CipherKeyGenerator random) :
    generator.getDecryptCipherKey.1 = generator.decryptSource.key := by
  cases generator <;> rfl

@[simp] theorem get_encrypt_encryptSource (generator : CipherKeyGenerator random) :
    generator.getEncryptCipherKey.2.encryptSource = generator.encryptSource.advance := by
  cases generator <;> rfl

@[simp] theorem get_encrypt_decryptSource (generator : CipherKeyGenerator random) :
    generator.getEncryptCipherKey.2.decryptSource = generator.decryptSource := by
  cases generator <;> rfl

@[simp] theorem get_decrypt_decryptSource (generator : CipherKeyGenerator random) :
    generator.getDecryptCipherKey.2.decryptSource = generator.decryptSource.advance := by
  cases generator <;> rfl

@[simp] theorem get_decrypt_encryptSource (generator : CipherKeyGenerator random) :
    generator.getDecryptCipherKey.2.encryptSource = generator.encryptSource := by
  cases generator <;> rfl

@[simp] theorem set_encrypt_encryptSource (generator : CipherKeyGenerator random) (newKey : Key) :
    (generator.setEncryptCipherKey newKey).encryptSource = .seeded generator.isDynamic newKey := by
  cases generator <;> rfl

@[simp] theorem set_decrypt_decryptSource (generator : CipherKeyGenerator random) (newKey : Key) :
    (generator.setDecryptCipherKey newKey).decryptSource = .seeded generator.isDynamic newKey := by
  cases generator <;> rfl

theorem create_sources (useDynamicKey : Bool) :
    (create useDynamicKey : CipherKeyGenerator random).encryptSource =
      (create useDynamicKey : CipherKeyGenerator random).decryptSource := by
  cases useDynamicKey <;> rfl

end CipherKeyGenerator

end Sne.Sgp
