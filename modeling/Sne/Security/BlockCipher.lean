import Mathlib.Data.List.Basic

/-!
# Block ciphers

`BlockCipherImpl.h`. The engines are those of Crypto++, which is not part of the
repository: an engine is a parameter here, and `Engine.Lawful` states what its
documentation promises of the two engines in use, "tea" and "aes".
-/

namespace Sne.Security

set_option autoImplicit false

abbrev Key := UInt32

/-- A pair of Crypto++ engines; both functions take the key that was set last. -/
structure Engine where
  blockSize : Nat
  keyLength : Nat
  encryptBlock : List Key → List UInt8 → List UInt8
  decryptBlock : List Key → List UInt8 → List UInt8

structure Engine.Lawful (engine : Engine) : Prop where
  sizes : engine.blockSize = 8 ∨ engine.blockSize = 16
  encrypt_length : ∀ key block, block.length = engine.blockSize →
    (engine.encryptBlock key block).length = engine.blockSize
  decrypt_encrypt : ∀ key block, block.length = engine.blockSize →
    engine.decryptBlock key (engine.encryptBlock key block) = block

/-- The key words that `updateKey` hands to the engine. The operator between the
two shifts is the logical one, so that every word is 0 or 1. -/
def expandKey (keyLength : Nat) (cipherKey : Key) : List Key :=
  (List.range (keyLength / 4)).map fun i =>
    if cipherKey >>> UInt32.ofNat i ≠ 0 ∨ cipherKey <<< UInt32.ofNat i ≠ 0 then 1 else 0

/-- The engine holds the key that was noted last. -/
structure BlockCipherAlgorithm (keyLength : Nat) where
  engineKey : List Key
  prevUpdatedKey : Key
  keyed : engineKey = expandKey keyLength prevUpdatedKey

namespace BlockCipherAlgorithm

variable {keyLength : Nat}

/-- The constructor notes the key 0xFFFFFFFF, so that its `updateKey(0)` sets a key. -/
def create : BlockCipherAlgorithm keyLength :=
  { engineKey := expandKey keyLength 0, prevUpdatedKey := 0, keyed := rfl }

def updateKey (cipherKey : Key) (algorithm : BlockCipherAlgorithm keyLength) :
    BlockCipherAlgorithm keyLength :=
  if cipherKey = algorithm.prevUpdatedKey then
    algorithm
  else
    { engineKey := expandKey keyLength cipherKey, prevUpdatedKey := cipherKey, keyed := rfl }

theorem update_key_engineKey (cipherKey : Key) (algorithm : BlockCipherAlgorithm keyLength) :
    (algorithm.updateKey cipherKey).engineKey = expandKey keyLength cipherKey := by
  unfold updateKey
  split
  · rename_i same
    rw [algorithm.keyed, same]
  · rfl

end BlockCipherAlgorithm

def precondition (blockSize : Nat) (input : List UInt8) : Bool :=
  0 < input.length && input.length % blockSize == 0

/-- The loop of `process`, which runs at most once for each byte. -/
def process (processBlock : List UInt8 → List UInt8) (blockSize : Nat) : Nat → List UInt8 → List UInt8
  | 0, _ => []
  | fuel + 1, input =>
      if input.length ≤ 0 then
        []
      else
        processBlock (input.take blockSize) ++
          process processBlock blockSize fuel (input.drop blockSize)

structure BlockCipher (keyLength : Nat) where
  encryptor : BlockCipherAlgorithm keyLength
  decryptor : BlockCipherAlgorithm keyLength

/-- The result of `encrypt` or `decrypt`: no output when the precondition fails. -/
structure Ciphered (keyLength : Nat) where
  output : Option (List UInt8)
  cipher : BlockCipher keyLength

namespace BlockCipher

def create {keyLength : Nat} : BlockCipher keyLength := { encryptor := .create, decryptor := .create }

def encrypt (engine : Engine) (input : List UInt8) (cipherKey : Key)
    (cipher : BlockCipher engine.keyLength) : Ciphered engine.keyLength :=
  if precondition engine.blockSize input then
    let encryptor := cipher.encryptor.updateKey cipherKey
    { output := some (process (engine.encryptBlock encryptor.engineKey) engine.blockSize
        input.length input)
      cipher := { cipher with encryptor } }
  else
    { output := none, cipher }

def decrypt (engine : Engine) (input : List UInt8) (cipherKey : Key)
    (cipher : BlockCipher engine.keyLength) : Ciphered engine.keyLength :=
  if precondition engine.blockSize input then
    let decryptor := cipher.decryptor.updateKey cipherKey
    { output := some (process (engine.decryptBlock decryptor.engineKey) engine.blockSize
        input.length input)
      cipher := { cipher with decryptor } }
  else
    { output := none, cipher }

end BlockCipher

theorem Engine.Lawful.block_positive {engine : Engine} (lawful : engine.Lawful) :
    0 < engine.blockSize := by
  rcases lawful.sizes with eight | sixteen <;> omega

/-- Whole blocks stay whole blocks, and decryption takes them back one by one. -/
theorem process_inverse {engine : Engine} (lawful : engine.Lawful) (key : List Key)
    (blocks fuel otherFuel : Nat) (input : List UInt8)
    (whole : input.length = blocks * engine.blockSize) (enough : blocks ≤ fuel)
    (otherEnough : blocks ≤ otherFuel) :
    (process (engine.encryptBlock key) engine.blockSize fuel input).length = input.length ∧
      process (engine.decryptBlock key) engine.blockSize otherFuel
        (process (engine.encryptBlock key) engine.blockSize fuel input) = input := by
  have positive := lawful.block_positive
  induction blocks generalizing fuel otherFuel input with
  | zero =>
      rw [Nat.zero_mul] at whole
      have none : input = [] := List.length_eq_zero_iff.mp whole
      subst none
      constructor
      · cases fuel <;> rfl
      · cases fuel <;> cases otherFuel <;> rfl
  | succ blocks induction =>
      obtain ⟨fuel, rfl⟩ : ∃ less, fuel = less + 1 := ⟨fuel - 1, by omega⟩
      obtain ⟨otherFuel, rfl⟩ : ∃ less, otherFuel = less + 1 := ⟨otherFuel - 1, by omega⟩
      rw [Nat.succ_mul] at whole
      have firstLength : (input.take engine.blockSize).length = engine.blockSize := by
        rw [List.length_take]
        omega
      have encryptedLength := lawful.encrypt_length key _ firstLength
      obtain ⟨restLength, restBack⟩ := induction fuel otherFuel (input.drop engine.blockSize)
        (by rw [List.length_drop]; omega) (by omega) (by omega)
      have encrypted : process (engine.encryptBlock key) engine.blockSize (fuel + 1) input =
          engine.encryptBlock key (input.take engine.blockSize) ++
            process (engine.encryptBlock key) engine.blockSize fuel
              (input.drop engine.blockSize) := by
        rw [process, if_neg (by omega)]
      constructor
      · rw [encrypted, List.length_append, encryptedLength, restLength, List.length_drop]
        omega
      · rw [encrypted, process, if_neg (by rw [List.length_append]; omega),
          List.take_left' encryptedLength, List.drop_left' encryptedLength, restBack,
          lawful.decrypt_encrypt key _ firstLength, List.take_append_drop]

namespace BlockCipher

def encrypted (engine : Engine) (cipherKey : Key) (input : List UInt8) : List UInt8 :=
  process (engine.encryptBlock (expandKey engine.keyLength cipherKey)) engine.blockSize
    input.length input

theorem encrypt_output (engine : Engine) (input : List UInt8) (cipherKey : Key)
    (cipher : BlockCipher engine.keyLength) (whole : precondition engine.blockSize input = true) :
    (cipher.encrypt engine input cipherKey).output = some (encrypted engine cipherKey input) := by
  simp only [encrypt, whole, if_true, BlockCipherAlgorithm.update_key_engineKey, encrypted]

theorem decrypt_output {engine : Engine} (lawful : engine.Lawful) (input : List UInt8)
    (cipherKey : Key) (cipher : BlockCipher engine.keyLength)
    (whole : precondition engine.blockSize input = true) :
    (encrypted engine cipherKey input).length = input.length ∧
      (cipher.decrypt engine (encrypted engine cipherKey input) cipherKey).output = some input := by
  have positive := lawful.block_positive
  simp only [precondition, Bool.and_eq_true, decide_eq_true_eq, beq_iff_eq] at whole
  obtain ⟨blocks, count⟩ := Nat.dvd_of_mod_eq_zero whole.2
  have bound : blocks ≤ input.length := by
    rw [count]
    exact Nat.le_mul_of_pos_left blocks positive
  rw [Nat.mul_comm] at count
  obtain ⟨sameLength, back⟩ := process_inverse lawful (expandKey engine.keyLength cipherKey) blocks
    input.length input.length input count bound bound
  refine ⟨sameLength, ?_⟩
  have stillWhole : precondition engine.blockSize (encrypted engine cipherKey input) = true := by
    simp only [precondition, encrypted, sameLength, Bool.and_eq_true, decide_eq_true_eq, beq_iff_eq]
    exact whole
  simp only [decrypt, stillWhole, if_true, BlockCipherAlgorithm.update_key_engineKey]
  simp only [encrypted, sameLength, back]

end BlockCipher

end Sne.Security
