import Mathlib.Data.Nat.Size
import Mathlib.NumberTheory.Padics.PadicVal.Basic
import Sne.Security.BlockCipher

/-!
# The key material of a block cipher

A word of the material says only whether one of two shifts of the cipher key is left with a
set bit. The words are 1 up to an index that the highest and the lowest set bit of the key
decide, and 0 from there on; nothing else of the key reaches the engine.
-/

namespace Sne.Security

set_option autoImplicit false

/-- The words that are 1, when there are as many words as bits: the highest set bit stays
until it is shifted out to the right, the lowest until it is shifted out to the left. -/
def spread (cipherKey : Key) : Nat :=
  if cipherKey = 0 then 0 else max cipherKey.toNat.size (32 - padicValNat 2 cipherKey.toNat)

theorem spread_bound (cipherKey : Key) : spread cipherKey ≤ 32 := by
  unfold spread
  split
  · exact Nat.zero_le 32
  · exact Nat.max_le.mpr ⟨Nat.size_le.mpr cipherKey.toNat_lt, Nat.sub_le _ _⟩

theorem shift_count (index : Nat) : (UInt32.ofNat index).toNat % 32 = index % 32 := by
  rw [UInt32.toNat_ofNat']
  omega

theorem right_shift_left_over (cipherKey : Key) (index : Nat) :
    cipherKey >>> UInt32.ofNat index ≠ 0 ↔ index % 32 < cipherKey.toNat.size := by
  have shifted : (cipherKey >>> UInt32.ofNat index).toNat = cipherKey.toNat / 2 ^ (index % 32) := by
    rw [UInt32.toNat_shiftRight, shift_count, Nat.shiftRight_eq_div_pow]
  rw [Nat.lt_size, ← UInt32.toNat_inj.ne, shifted]
  change cipherKey.toNat / 2 ^ (index % 32) ≠ 0 ↔ _
  rw [Nat.div_ne_zero_iff]
  have positive : 2 ^ (index % 32) ≠ 0 := Nat.ne_of_gt (Nat.two_pow_pos _)
  exact ⟨And.right, fun most => ⟨positive, most⟩⟩

theorem left_shift_left_over {cipherKey : Key} (some : cipherKey ≠ 0) (index : Nat) :
    cipherKey <<< UInt32.ofNat index ≠ 0 ↔ index % 32 < 32 - padicValNat 2 cipherKey.toNat := by
  have inside : index % 32 < 32 := Nat.mod_lt _ (by decide)
  have shifted : (cipherKey <<< UInt32.ofNat index).toNat =
      cipherKey.toNat * 2 ^ (index % 32) % 2 ^ 32 := by
    rw [UInt32.toNat_shiftLeft, shift_count, Nat.shiftLeft_eq]
  have number : cipherKey.toNat ≠ 0 := by
    intro zero
    exact some (UInt32.toNat_inj.mp zero)
  have whole : 2 ^ 32 = 2 ^ (32 - index % 32) * 2 ^ (index % 32) := by
    rw [← Nat.pow_add, Nat.sub_add_cancel (Nat.le_of_lt inside)]
  have gone : 2 ^ 32 ∣ cipherKey.toNat * 2 ^ (index % 32) ↔
      32 - index % 32 ≤ padicValNat 2 cipherKey.toNat := by
    rw [whole, Nat.mul_dvd_mul_iff_right (Nat.two_pow_pos _), padicValNat_dvd_iff_le number]
  rw [← UInt32.toNat_inj.ne, shifted]
  change cipherKey.toNat * 2 ^ (index % 32) % 2 ^ 32 ≠ 0 ↔ _
  rw [Ne, ← Nat.dvd_iff_mod_eq_zero, gone]
  omega

/-- The word at an index of the material, for any number of words. -/
theorem word_iff (cipherKey : Key) (index : Nat) :
    (cipherKey >>> UInt32.ofNat index ≠ 0 ∨ cipherKey <<< UInt32.ofNat index ≠ 0) ↔
      index % 32 < spread cipherKey := by
  unfold spread
  split
  · rename_i zero
    rw [zero, UInt32.zero_shiftRight, UInt32.zero_shiftLeft]
    simp
  · rename_i some
    rw [right_shift_left_over, left_shift_left_over some, lt_max_iff]

theorem expand_key_spread (keyLength : Nat) (cipherKey : Key) :
    expandKey keyLength cipherKey =
      (List.range (keyLength / 4)).map fun index => if index % 32 < spread cipherKey then 1 else 0 := by
  unfold expandKey
  apply List.map_congr_left
  intro index _
  simp only [word_iff]

/-- Two keys give the same material exactly when their spreads agree within the words. -/
theorem expand_key_eq_iff (keyLength : Nat) (first second : Key) :
    expandKey keyLength first = expandKey keyLength second ↔
      min (keyLength / 4) (spread first) = min (keyLength / 4) (spread second) := by
  have firstBound := spread_bound first
  have secondBound := spread_bound second
  rw [expand_key_spread, expand_key_spread, List.map_inj_left]
  constructor
  · intro same
    have agree : ∀ index < keyLength / 4, (index % 32 < spread first ↔ index % 32 < spread second) := by
      intro index inside
      have word := same index (List.mem_range.mpr inside)
      by_cases firstSet : index % 32 < spread first
      · by_cases secondSet : index % 32 < spread second
        · exact ⟨fun _ => secondSet, fun _ => firstSet⟩
        · rw [if_pos firstSet, if_neg secondSet] at word
          exact absurd word (by decide)
      · by_cases secondSet : index % 32 < spread second
        · rw [if_neg firstSet, if_pos secondSet] at word
          exact absurd word (by decide)
        · exact ⟨fun set => absurd set firstSet, fun set => absurd set secondSet⟩
    by_contra differ
    by_cases less : spread first < spread second
    · have word := agree (spread first) (by omega)
      omega
    · have word := agree (spread second) (by omega)
      omega
  · intro same index member
    have inside := List.mem_range.mp member
    have agree : index % 32 < spread first ↔ index % 32 < spread second := by omega
    rw [if_congr agree rfl rfl]

theorem spread_zero : spread 0 = 0 := by
  unfold spread
  rw [if_pos rfl]

/-- The lowest set bit is not above the highest, so that one of them stays for more than half of the
shifts. -/
theorem spread_large {cipherKey : Key} (some : cipherKey ≠ 0) : 17 ≤ spread cipherKey := by
  have positive : 0 < cipherKey.toNat := by
    apply Nat.pos_of_ne_zero
    intro zero
    exact some (UInt32.toNat_inj.mp zero)
  have lowest : padicValNat 2 cipherKey.toNat < cipherKey.toNat.size :=
    Nat.lt_size.mpr (Nat.le_of_dvd positive pow_padicValNat_dvd)
  unfold spread
  rw [if_neg some]
  omega

/-- Up to 17 words, and so for the four of both engines in use, the material tells only the
key 0 from the others. -/
theorem short_material {keyLength : Nat} (some : 4 ≤ keyLength) (few : keyLength / 4 ≤ 17)
    (first second : Key) :
    expandKey keyLength first = expandKey keyLength second ↔ (first = 0 ↔ second = 0) := by
  rw [expand_key_eq_iff]
  by_cases firstZero : first = 0
  · by_cases secondZero : second = 0
    · rw [firstZero, secondZero]
      simp
    · have large := spread_large secondZero
      rw [firstZero, spread_zero]
      have differ : min (keyLength / 4) 0 ≠ min (keyLength / 4) (spread second) := by omega
      exact ⟨fun same => absurd same differ, fun agree => absurd (agree.mp rfl) secondZero⟩
  · have firstLarge := spread_large firstZero
    by_cases secondZero : second = 0
    · rw [secondZero, spread_zero]
      have differ : min (keyLength / 4) (spread first) ≠ min (keyLength / 4) 0 := by omega
      exact ⟨fun same => absurd same differ, fun agree => absurd (agree.mpr rfl) firstZero⟩
    · have secondLarge := spread_large secondZero
      have same : min (keyLength / 4) (spread first) = min (keyLength / 4) (spread second) := by omega
      exact ⟨fun _ => ⟨fun zero => absurd zero firstZero, fun zero => absurd zero secondZero⟩,
        fun _ => same⟩

structure EncryptCall where
  input : List UInt8
  cipherKey : Key
  deriving DecidableEq, Repr

/-- The calls that encrypt something: the key they are given, and the key that the engine
holds while it processes the blocks. -/
def engineKeys (engine : Engine) :
    List EncryptCall → BlockCipher engine.keyLength → List (Key × List Key)
  | [], _ => []
  | call :: calls, cipher =>
      let after := (cipher.encrypt engine call.input call.cipherKey).cipher
      if precondition engine.blockSize call.input then
        (call.cipherKey, after.encryptor.engineKey) :: engineKeys engine calls after
      else
        engineKeys engine calls after

theorem engine_keys_expand (engine : Engine) (calls : List EncryptCall)
    (cipher : BlockCipher engine.keyLength) :
    ∀ used ∈ engineKeys engine calls cipher, used.2 = expandKey engine.keyLength used.1 := by
  induction calls generalizing cipher with
  | nil =>
      intro used member
      cases member
  | cons call calls induction =>
      rw [engineKeys]
      by_cases whole : precondition engine.blockSize call.input = true
      · rw [if_pos whole, List.forall_mem_cons]
        refine ⟨?_, induction _⟩
        simp only [BlockCipher.encrypt, whole, if_true, BlockCipherAlgorithm.update_key_engineKey]
      · rw [if_neg whole]
        exact induction _

/-- Which keys give different material, and so which packets of any sequence of calls are
encrypted under different engine keys. -/
theorem key_material_differs_iff (engine : Engine) (calls : List EncryptCall)
    (cipher : BlockCipher engine.keyLength) :
    (∀ first second, expandKey engine.keyLength first ≠ expandKey engine.keyLength second ↔
      min (engine.keyLength / 4) (spread first) ≠ min (engine.keyLength / 4) (spread second)) ∧
    (∀ used ∈ engineKeys engine calls cipher, ∀ other ∈ engineKeys engine calls cipher,
      (used.2 ≠ other.2 ↔
        min (engine.keyLength / 4) (spread used.1) ≠ min (engine.keyLength / 4) (spread other.1))) ∧
    (8 ≤ engine.keyLength → engine.keyLength / 4 ≤ 17 → ∀ first second,
      (expandKey engine.keyLength first ≠ expandKey engine.keyLength second ↔
        ¬(first = 0 ↔ second = 0))) := by
  refine ⟨?_, ?_, ?_⟩
  · intro first second
    rw [Ne, expand_key_eq_iff]
  · intro used member other otherMember
    rw [engine_keys_expand engine calls cipher used member,
      engine_keys_expand engine calls cipher other otherMember, Ne, expand_key_eq_iff]
  · intro some few first second
    rw [Ne, short_material (by omega) few]

theorem key_material_repeats :
    ¬∀ (keyLength : Nat) (first second : Key), 8 ≤ keyLength → first ≠ second →
      expandKey keyLength first ≠ expandKey keyLength second := by
  intro claim
  exact claim 16 1 2 (by decide) (by decide) (by decide)

end Sne.Security
