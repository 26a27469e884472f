import Sne.Library.ByteMemory
import Sne.Library.Runs
import Sne.Sgp.TeaSuite

/-!
# Any history of cipher calls

`BlockCipherImpl.h` with pointers: the blocks are read and written in memory one after
another, so that the output may be where the input is. Each algorithm notes the key that it
set last. The constructor notes 0xFFFFFFFF without setting it, which is a key like any
other; its `updateKey(0)` makes the note true before the first call.
-/

namespace Sne.Security.CipherHistory

open Sne.Library.ByteMemory Sne.Library.Runs

set_option autoImplicit false

/-- An engine that makes a block of a block in both directions. -/
structure EngineLaws (engine : Engine) : Prop extends engine.Lawful where
  decrypt_length : ∀ key block, block.length = engine.blockSize →
    (engine.decryptBlock key block).length = engine.blockSize

inductive Direction where
  | encrypt
  | decrypt
  deriving DecidableEq, Repr

def processBlock (engine : Engine) : Direction → List Key → List UInt8 → List UInt8
  | .encrypt => engine.encryptBlock
  | .decrypt => engine.decryptBlock

/-- A Crypto++ object without a key, and the note. -/
structure Algorithm where
  engineKey : Option (List Key)
  prevUpdatedKey : Key
  deriving DecidableEq, Repr

namespace Algorithm

def updateKey (keyLength : Nat) (cipherKey : Key) (algorithm : Algorithm) : Algorithm :=
  if cipherKey = algorithm.prevUpdatedKey then
    algorithm
  else
    { engineKey := some (expandKey keyLength cipherKey), prevUpdatedKey := cipherKey }

def create (keyLength : Nat) : Algorithm :=
  updateKey keyLength 0 { engineKey := none, prevUpdatedKey := 0xFFFFFFFF }

def Keyed (keyLength : Nat) (algorithm : Algorithm) : Prop :=
  algorithm.engineKey = some (expandKey keyLength algorithm.prevUpdatedKey)

theorem create_keyed (keyLength : Nat) : (create keyLength).Keyed keyLength := rfl

theorem update_key_keyed (keyLength : Nat) (cipherKey : Key) (algorithm : Algorithm)
    (keyed : algorithm.Keyed keyLength) : (algorithm.updateKey keyLength cipherKey).Keyed keyLength := by
  unfold updateKey
  split
  · exact keyed
  · rfl

theorem update_key_sets (keyLength : Nat) (cipherKey : Key) (algorithm : Algorithm)
    (keyed : algorithm.Keyed keyLength) :
    (algorithm.updateKey keyLength cipherKey).engineKey = some (expandKey keyLength cipherKey) := by
  unfold updateKey
  split
  · rename_i same
    rw [same]
    exact keyed
  · rfl

end Algorithm

def processLoop (block : List UInt8 → List UInt8) (blockSize : Nat) :
    Nat → Nat → Nat → Nat → Memory → Memory
  | 0, _, _, _, memory => memory
  | fuel + 1, length, first, output, memory =>
      if length ≤ 0 then
        memory
      else
        processLoop block blockSize fuel (length - blockSize) (first + blockSize) (output + blockSize)
          (write memory output (block (read memory first blockSize)))

/-- A call of `encrypt` or `decrypt`: `length` bytes at `first`, the result at `output`. -/
structure Call where
  direction : Direction
  first : Nat
  length : Nat
  output : Nat
  cipherKey : Key
  deriving DecidableEq, Repr

structure Cipher where
  encryptor : Algorithm
  decryptor : Algorithm
  deriving DecidableEq, Repr

structure Performed where
  succeeded : Bool
  memory : Memory
  cipher : Cipher

def validLength (blockSize length : Nat) : Bool := 0 < length && length % blockSize == 0

namespace Cipher

def create (engine : Engine) : Cipher :=
  { encryptor := .create engine.keyLength, decryptor := .create engine.keyLength }

def perform (engine : Engine) (call : Call) (memory : Memory) (cipher : Cipher) : Performed :=
  if validLength engine.blockSize call.length then
    match call.direction with
    | .encrypt =>
        let encryptor := cipher.encryptor.updateKey engine.keyLength call.cipherKey
        { succeeded := true
          memory := processLoop (processBlock engine .encrypt (encryptor.engineKey.getD []))
            engine.blockSize call.length call.length call.first call.output memory
          cipher := { cipher with encryptor } }
    | .decrypt =>
        let decryptor := cipher.decryptor.updateKey engine.keyLength call.cipherKey
        { succeeded := true
          memory := processLoop (processBlock engine .decrypt (decryptor.engineKey.getD []))
            engine.blockSize call.length call.length call.first call.output memory
          cipher := { cipher with decryptor } }
  else
    { succeeded := false, memory, cipher }

end Cipher

/-- What a call is to return and to leave in memory, from its data and its key alone. -/
def outcome (engine : Engine) (call : Call) (memory : Memory) : Bool × Memory :=
  if validLength engine.blockSize call.length then
    (true, processLoop (processBlock engine call.direction (expandKey engine.keyLength call.cipherKey))
      engine.blockSize call.length call.length call.first call.output memory)
  else
    (false, memory)

/-- A call on some memory; the caller may have changed it since the last one. -/
structure Event where
  call : Call
  memory : Memory

def Performs (engine : Engine) (cipher : Cipher) (event : Event) (next : Cipher) : Prop :=
  next = (cipher.perform engine event.call event.memory).cipher

structure Keyed (engine : Engine) (cipher : Cipher) : Prop where
  encryptor : cipher.encryptor.Keyed engine.keyLength
  decryptor : cipher.decryptor.Keyed engine.keyLength

theorem create_keyed (engine : Engine) : Keyed engine (.create engine) where
  encryptor := Algorithm.create_keyed engine.keyLength
  decryptor := Algorithm.create_keyed engine.keyLength

theorem perform_keyed (engine : Engine) (call : Call) (memory : Memory) (cipher : Cipher)
    (keyed : Keyed engine cipher) : Keyed engine (cipher.perform engine call memory).cipher := by
  unfold Cipher.perform
  split
  · split
    · exact ⟨Algorithm.update_key_keyed _ _ _ keyed.encryptor, keyed.decryptor⟩
    · exact ⟨keyed.encryptor, Algorithm.update_key_keyed _ _ _ keyed.decryptor⟩
  · exact keyed

theorem run_keyed (engine : Engine) {cipher : Cipher} {history : List Event}
    (run : Run (Performs engine) (.create engine) history cipher) : Keyed engine cipher := by
  apply run.invariant (fun _ cipher => Keyed engine cipher) (create_keyed engine)
  rintro _ cipher event _ keyed rfl
  exact perform_keyed engine event.call event.memory cipher keyed

/-- The engine is keyed with the key of the call, whichever key it had before. -/
theorem perform_outcome (engine : Engine) (call : Call) (memory : Memory) (cipher : Cipher)
    (keyed : Keyed engine cipher) :
    ((cipher.perform engine call memory).succeeded, (cipher.perform engine call memory).memory) =
      outcome engine call memory := by
  rcases call with ⟨direction, first, length, output, cipherKey⟩
  by_cases valid : validLength engine.blockSize length = true
  · cases direction with
    | encrypt =>
        simp only [Cipher.perform, outcome, valid, if_true]
        rw [Algorithm.update_key_sets _ _ _ keyed.encryptor]
        rfl
    | decrypt =>
        simp only [Cipher.perform, outcome, valid, if_true]
        rw [Algorithm.update_key_sets _ _ _ keyed.decryptor]
        rfl
  · simp only [Cipher.perform, outcome, if_neg valid]

theorem perform_memory (engine : Engine) (call : Call) (memory : Memory) (cipher : Cipher)
    (keyed : Keyed engine cipher) :
    (cipher.perform engine call memory).memory = (outcome engine call memory).2 :=
  congrArg Prod.snd (perform_outcome engine call memory cipher keyed)

section Loop

variable {block : List UInt8 → List UInt8} {blockSize : Nat}

theorem process_loop_succ (positive : 0 < blockSize) (blocks fuel first output : Nat) (memory : Memory) :
    processLoop block blockSize (fuel + 1) ((blocks + 1) * blockSize) first output memory =
      processLoop block blockSize fuel (blocks * blockSize) (first + blockSize) (output + blockSize)
        (write memory output (block (read memory first blockSize))) := by
  rw [Nat.succ_mul, processLoop, if_neg (by omega), Nat.add_sub_cancel]

theorem process_loop_zero (fuel first output : Nat) (memory : Memory) :
    processLoop block blockSize fuel (0 * blockSize) first output memory = memory := by
  rw [Nat.zero_mul]
  cases fuel <;> rfl

/-- Nothing is written outside of the output. -/
theorem process_loop_outside (positive : 0 < blockSize)
    (fits : ∀ bytes, bytes.length = blockSize → (block bytes).length = blockSize)
    (blocks fuel first output : Nat) (memory : Memory) (enough : blocks ≤ fuel) (address : Nat)
    (outside : address < output ∨ output + blocks * blockSize ≤ address) :
    processLoop block blockSize fuel (blocks * blockSize) first output memory address = memory address := by
  induction blocks generalizing fuel first output memory with
  | zero => rw [process_loop_zero]
  | succ blocks induction =>
      obtain ⟨fuel, rfl⟩ : ∃ less, fuel = less + 1 := ⟨fuel - 1, by omega⟩
      have written := fits _ (read_length memory first blockSize)
      rw [Nat.succ_mul] at outside
      rw [process_loop_succ positive, induction _ _ _ _ (by omega) (by omega)]
      exact write_outside _ _ _ _ (by omega)

/-- What is written depends on the data only. -/
theorem process_loop_agree (positive : 0 < blockSize)
    (fits : ∀ bytes, bytes.length = blockSize → (block bytes).length = blockSize)
    (blocks fuel first output : Nat) (memory other : Memory) (enough : blocks ≤ fuel)
    (agree : Agree memory other first (blocks * blockSize)) (address : Nat)
    (known : memory address = other address ∨
      output ≤ address ∧ address < output + blocks * blockSize) :
    processLoop block blockSize fuel (blocks * blockSize) first output memory address =
      processLoop block blockSize fuel (blocks * blockSize) first output other address := by
  induction blocks generalizing fuel first output memory other with
  | zero =>
      rw [process_loop_zero, process_loop_zero]
      rw [Nat.zero_mul] at known
      exact known.resolve_right (by omega)
  | succ blocks induction =>
      obtain ⟨fuel, rfl⟩ : ∃ less, fuel = less + 1 := ⟨fuel - 1, by omega⟩
      have written := fits _ (read_length memory first blockSize)
      rw [Nat.succ_mul] at agree known
      have sameBlock : read memory first blockSize = read other first blockSize :=
        Agree.read (agree.sub (Nat.le_refl _) (by omega))
      have same : ∀ address, memory address = other address ∨
          output ≤ address ∧ address < output + blockSize →
          write memory output (block (read memory first blockSize)) address =
            write other output (block (read other first blockSize)) address := by
        intro address known
        rw [← sameBlock]
        by_cases inside : output ≤ address ∧ address < output + blockSize
        · rw [write, write, if_pos (by omega), if_pos (by omega)]
        · rw [write_outside _ _ _ _ (by omega), write_outside _ _ _ _ (by omega)]
          exact known.resolve_right inside
      rw [process_loop_succ positive, process_loop_succ positive]
      apply induction _ _ _ _ _ (by omega)
      · intro inner lower upper
        exact same inner (Or.inl (agree inner (by omega) (by omega)))
      · rcases known with equal | inside
        · exact Or.inl (same address (Or.inl equal))
        · by_cases front : address < output + blockSize
          · exact Or.inl (same address (Or.inr ⟨inside.1, front⟩))
          · exact Or.inr ⟨by omega, by omega⟩

/-- With the output not inside of the data that is still to be read, in place for one, the loop
does to memory what `process` does to a list. -/
theorem process_loop_read (positive : 0 < blockSize)
    (fits : ∀ bytes, bytes.length = blockSize → (block bytes).length = blockSize)
    (blocks fuel first output : Nat) (memory : Memory) (enough : blocks ≤ fuel)
    (apart : output ≤ first ∨ first + blocks * blockSize ≤ output) :
    read (processLoop block blockSize fuel (blocks * blockSize) first output memory) output
        (blocks * blockSize) =
      process block blockSize fuel (read memory first (blocks * blockSize)) := by
  induction blocks generalizing fuel first output memory with
  | zero =>
      rw [Nat.zero_mul]
      cases fuel <;> rfl
  | succ blocks induction =>
      obtain ⟨fuel, rfl⟩ : ∃ less, fuel = less + 1 := ⟨fuel - 1, by omega⟩
      have written := fits _ (read_length memory first blockSize)
      rw [Nat.succ_mul] at apart
      rw [process_loop_succ positive, Nat.succ_mul, Nat.add_comm (blocks * blockSize), read_add,
        read_add, process, if_neg (by simp only [List.length_append, read_length]; omega),
        List.take_left' (read_length _ _ _), List.drop_left' (read_length _ _ _)]
      congr 1
      · have kept : read (processLoop block blockSize fuel (blocks * blockSize) (first + blockSize)
            (output + blockSize) (write memory output (block (read memory first blockSize)))) output
              blockSize = read (write memory output (block (read memory first blockSize))) output
                blockSize := by
          apply Agree.read
          intro address lower upper
          exact process_loop_outside positive fits _ _ _ _ _ (by omega) _ (Or.inl (by omega))
        rw [kept]
        exact read_write _ _ written
      · rw [induction _ _ _ _ (by omega) (by omega), read_write_apart _ _ _ _ _ (by omega)]

end Loop

section Calls

variable {engine : Engine}

theorem process_block_fits (laws : EngineLaws engine) (direction : Direction) (key : List Key)
    (bytes : List UInt8) (exact : bytes.length = engine.blockSize) :
    (processBlock engine direction key bytes).length = engine.blockSize := by
  cases direction with
  | encrypt => exact laws.encrypt_length key bytes exact
  | decrypt => exact laws.decrypt_length key bytes exact

theorem valid_length_iff (blockSize length : Nat) :
    validLength blockSize length = true ↔ 0 < length ∧ length % blockSize = 0 := by
  simp only [validLength, Bool.and_eq_true, decide_eq_true_eq, beq_iff_eq]

theorem valid_length_blocks (laws : EngineLaws engine) {length : Nat}
    (valid : validLength engine.blockSize length = true) :
    ∃ blocks, length = blocks * engine.blockSize ∧ blocks ≤ length := by
  rcases Nat.dvd_of_mod_eq_zero ((valid_length_iff _ _).mp valid).2 with ⟨blocks, count⟩
  refine ⟨blocks, by rw [count, Nat.mul_comm], ?_⟩
  rw [count]
  exact Nat.le_mul_of_pos_left blocks laws.block_positive

theorem outcome_outside (laws : EngineLaws engine) (call : Call) (memory : Memory) (address : Nat)
    (outside : address < call.output ∨ call.output + call.length ≤ address) :
    (outcome engine call memory).2 address = memory address := by
  unfold outcome
  split
  · rename_i valid
    rcases valid_length_blocks laws valid with ⟨blocks, count, enough⟩
    rw [count] at outside enough ⊢
    exact process_loop_outside laws.block_positive (process_block_fits laws _ _) blocks _ _ _ _
      enough address outside
  · rfl

theorem outcome_agree (laws : EngineLaws engine) (call : Call) (memory other : Memory)
    (agree : Agree memory other call.first call.length)
    (succeeded : (outcome engine call memory).1 = true) :
    Agree (outcome engine call memory).2 (outcome engine call other).2 call.output call.length := by
  unfold outcome at succeeded ⊢
  split at succeeded
  · rename_i valid
    rcases valid_length_blocks laws valid with ⟨blocks, count, enough⟩
    rw [if_pos valid, if_pos valid]
    rw [count] at agree enough ⊢
    intro address lower upper
    exact process_loop_agree laws.block_positive (process_block_fits laws _ _) blocks _ _ _ _ _
      enough agree address (Or.inr ⟨lower, upper⟩)
  · cases succeeded

theorem outcome_read (laws : EngineLaws engine) (call : Call) (memory : Memory)
    (valid : validLength engine.blockSize call.length = true)
    (apart : call.output ≤ call.first ∨ call.first + call.length ≤ call.output) :
    read (outcome engine call memory).2 call.output call.length =
      process (processBlock engine call.direction (expandKey engine.keyLength call.cipherKey))
        engine.blockSize call.length (read memory call.first call.length) := by
  rcases valid_length_blocks laws valid with ⟨blocks, count, enough⟩
  rw [outcome, if_pos valid]
  rw [count] at apart enough ⊢
  exact process_loop_read laws.block_positive (process_block_fits laws _ _) blocks _ _ _ _ enough apart

theorem outcome_inverse (laws : EngineLaws engine) (first length output target : Nat) (cipherKey : Key)
    (memory later : Memory) (valid : validLength engine.blockSize length = true)
    (apart : output ≤ first ∨ first + length ≤ output)
    (targetApart : target ≤ output ∨ output + length ≤ target)
    (kept : Agree later
      (outcome engine { direction := .encrypt, first, length, output, cipherKey } memory).2
        output length) :
    read (outcome engine
        { direction := .decrypt, first := output, length, output := target, cipherKey } later).2
          target length = read memory first length := by
  rcases valid_length_blocks laws valid with ⟨blocks, count, enough⟩
  have encrypted := outcome_read laws { direction := .encrypt, first, length, output, cipherKey } memory
    valid apart
  have decrypted := outcome_read laws
    { direction := .decrypt, first := output, length, output := target, cipherKey } later valid targetApart
  have whole : (read memory first length).length = blocks * engine.blockSize := by
    rw [read_length, count]
  have inverse := (process_inverse laws.toLawful (expandKey engine.keyLength cipherKey) blocks length
    length (read memory first length) whole enough enough).2
  calc
    _ = _ := decrypted
    _ = process (engine.decryptBlock (expandKey engine.keyLength cipherKey)) engine.blockSize length
        (process (engine.encryptBlock (expandKey engine.keyLength cipherKey)) engine.blockSize length
          (read memory first length)) := by
      rw [kept.read]
      exact congrArg _ encrypted
    _ = read memory first length := inverse

end Calls

/-- What a call returns and writes is the same after every history. It depends on the data and
the key of the call; a length that is not a positive number of blocks is refused and
nothing is written; what was encrypted is decrypted, in place or not. -/
theorem cipher_history_independent {engine : Engine} (laws : EngineLaws engine) {history : List Event}
    {cipher : Cipher} (run : Run (Performs engine) (.create engine) history cipher) :
    (∀ call memory, ((cipher.perform engine call memory).succeeded,
      (cipher.perform engine call memory).memory) = outcome engine call memory) ∧
    (∀ call memory other, Agree memory other call.first call.length →
      (outcome engine call memory).1 = (outcome engine call other).1 ∧
      ((outcome engine call memory).1 = true →
        Agree (outcome engine call memory).2 (outcome engine call other).2 call.output call.length)) ∧
    (∀ call memory address, (address < call.output ∨ call.output + call.length ≤ address) →
      (outcome engine call memory).2 address = memory address) ∧
    (∀ call memory, (0 < call.length ∧ call.length % engine.blockSize = 0 →
        (outcome engine call memory).1 = true) ∧
      (¬(0 < call.length ∧ call.length % engine.blockSize = 0) →
        outcome engine call memory = (false, memory))) ∧
    ∀ (others : List Event) (another : Cipher), Run (Performs engine) (.create engine) others another →
      ∀ (first length output target : Nat) (cipherKey : Key) (memory later : Memory),
        0 < length ∧ length % engine.blockSize = 0 →
        (output ≤ first ∨ first + length ≤ output) → (target ≤ output ∨ output + length ≤ target) →
        Agree later (cipher.perform engine
          { direction := .encrypt, first, length, output, cipherKey } memory).memory output length →
        read (another.perform engine
          { direction := .decrypt, first := output, length, output := target, cipherKey }
            later).memory target length = read memory first length := by
  have keyed := run_keyed engine run
  refine ⟨?_, ?_, ?_, ?_, ?_⟩
  · intro call memory
    exact perform_outcome engine call memory cipher keyed
  · intro call memory other agree
    refine ⟨?_, outcome_agree laws call memory other agree⟩
    unfold outcome
    split
    · rfl
    · rfl
  · intro call memory address outside
    exact outcome_outside laws call memory address outside
  · intro call memory
    rw [← valid_length_iff]
    constructor
    · intro valid
      rw [outcome, if_pos valid]
    · intro invalid
      rw [outcome, if_neg invalid]
  · intro others another otherRun first length output target cipherKey memory later valid apart
      targetApart kept
    rw [perform_memory _ _ _ _ keyed] at kept
    rw [perform_memory _ _ _ _ (run_keyed engine otherRun)]
    exact outcome_inverse laws first length output target cipherKey memory later
      ((valid_length_iff _ _).mpr valid) apart targetApart kept

theorem tea_engine_laws : EngineLaws Sgp.Tea.engine where
  toLawful := Sgp.Tea.engine_lawful
  decrypt_length key block _ := by
    simp [Sgp.Tea.engine, Sgp.Tea.ofWords]

def numbered : Memory := UInt8.ofNat

def callWith (direction : Direction) (cipherKey : Key) : Call :=
  { direction, first := 0, length := 16, output := 0, cipherKey }

def usedCipher : Cipher :=
  (((Cipher.create Sgp.Tea.engine).perform Sgp.Tea.engine (callWith .encrypt 0xFFFFFFFF)
    numbered).cipher.perform Sgp.Tea.engine (callWith .decrypt 0) numbered).cipher

theorem cipher_history_independent_tea :
    read (usedCipher.perform Sgp.Tea.engine (callWith .decrypt 0)
      (usedCipher.perform Sgp.Tea.engine (callWith .encrypt 0) numbered).memory).memory 0 16 =
        read numbered 0 16 ∧
    read (usedCipher.perform Sgp.Tea.engine (callWith .decrypt 0xFFFFFFFF)
      (usedCipher.perform Sgp.Tea.engine (callWith .encrypt 0xFFFFFFFF) numbered).memory).memory 0 16 =
        read numbered 0 16 := by
  have run : Run (Performs Sgp.Tea.engine) (.create Sgp.Tea.engine)
      ([] ++ [⟨callWith .encrypt 0xFFFFFFFF, numbered⟩] ++ [⟨callWith .decrypt 0, numbered⟩]) usedCipher :=
    .next (.next (.start _) rfl) rfl
  have restored := (cipher_history_independent tea_engine_laws run).2.2.2.2 _ _ run 0 16 0 0
  constructor
  · exact restored 0 numbered _ (by decide) (Or.inl (Nat.le_refl _)) (Or.inl (Nat.le_refl _))
      (fun _ _ _ => rfl)
  · exact restored 0xFFFFFFFF numbered _ (by decide) (Or.inl (Nat.le_refl _)) (Or.inl (Nat.le_refl _))
      (fun _ _ _ => rfl)

end Sne.Security.CipherHistory
