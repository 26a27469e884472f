import Sne.Sgp.SecurePacketCoder

/-!
# The "tea" suite

Concrete functions for the parameters of the secure coder, from the published
algorithms: the Tiny Encryption Algorithm with big-endian blocks and keys and 32 cycles, the
48-bit linear congruence of `rand48` with 31 output bits, and the reflected CRC-32.
The results about the coder hold for every lawful suite; this one shows that there
is one, and concrete runs use it.
-/

namespace Sne.Sgp

open Sne.Security Sne.Library.Endian

set_option autoImplicit false

namespace Tea

def delta : UInt32 := 0x9E3779B9

def sums : List UInt32 := (List.range 32).map fun cycle => delta * UInt32.ofNat (cycle + 1)

abbrev Words := UInt32 × UInt32

def mix (word sum first second : UInt32) : UInt32 :=
  ((word <<< 4) + first) ^^^ (word + sum) ^^^ ((word >>> 5) + second)

def bigEndian (word : UInt32) : List UInt8 := (littleEndian 4 word.toNat).reverse

def ofBigEndian (bytes : List UInt8) : UInt32 := UInt32.ofNat (ofLittleEndian bytes.reverse)

/-- The cipher reads the bytes of the key big-endian. They lie in memory as a little-endian host has
stored the words of the array. -/
def keyWord (key : List Key) (index : Nat) : UInt32 :=
  ofBigEndian (littleEndian 4 (key.getD index 0).toNat)

def encryptCycle (key : List Key) (words : Words) (sum : UInt32) : Words :=
  let y := words.1 + mix words.2 sum (keyWord key 0) (keyWord key 1)
  (y, words.2 + mix y sum (keyWord key 2) (keyWord key 3))

def decryptCycle (key : List Key) (words : Words) (sum : UInt32) : Words :=
  let z := words.2 - mix words.1 sum (keyWord key 2) (keyWord key 3)
  (words.1 - mix z sum (keyWord key 0) (keyWord key 1), z)

def toWords (block : List UInt8) : Words := (ofBigEndian (block.take 4), ofBigEndian (block.drop 4))

def ofWords (words : Words) : List UInt8 := bigEndian words.1 ++ bigEndian words.2

def engine : Engine where
  blockSize := 8
  keyLength := 16
  encryptBlock key block := ofWords (sums.foldl (encryptCycle key) (toWords block))
  decryptBlock key block := ofWords (sums.reverse.foldl (decryptCycle key) (toWords block))

theorem decrypt_cycle_encrypt_cycle (key : List Key) (words : Words) (sum : UInt32) :
    decryptCycle key (encryptCycle key words sum) sum = words := by
  obtain ⟨y, z⟩ := words
  simp [decryptCycle, encryptCycle]

theorem cycles_inverse (key : List Key) (schedule : List UInt32) (words : Words) :
    schedule.reverse.foldl (decryptCycle key) (schedule.foldl (encryptCycle key) words) = words := by
  induction schedule generalizing words with
  | nil => rfl
  | cons sum rest induction =>
      rw [List.foldl_cons, List.reverse_cons, List.foldl_append, induction]
      exact decrypt_cycle_encrypt_cycle key words sum

@[simp] theorem big_endian_length (word : UInt32) : (bigEndian word).length = 4 := by
  simp [bigEndian]

theorem of_big_endian_big_endian (word : UInt32) : ofBigEndian (bigEndian word) = word := by
  have bound := word.toNat_lt
  apply UInt32.toNat_inj.mp
  rw [ofBigEndian, bigEndian, List.reverse_reverse, of_little_endian_little_endian,
    UInt32.toNat_ofNat']
  omega

theorem big_endian_of_big_endian (bytes : List UInt8) (exact : bytes.length = 4) :
    bigEndian (ofBigEndian bytes) = bytes := by
  have back := little_endian_of_little_endian bytes.reverse
  have bound := of_little_endian_lt bytes.reverse
  rw [List.length_reverse, exact] at back bound
  rw [bigEndian, ofBigEndian, UInt32.toNat_ofNat_of_lt' (by simpa using bound), back,
    List.reverse_reverse]

theorem to_words_of_words (words : Words) : toWords (ofWords words) = words := by
  rw [toWords, ofWords, List.take_left' (big_endian_length _), List.drop_left' (big_endian_length _),
    of_big_endian_big_endian, of_big_endian_big_endian]

theorem of_words_to_words (block : List UInt8) (exact : block.length = 8) :
    ofWords (toWords block) = block := by
  have front : (block.take 4).length = 4 := by
    rw [List.length_take]
    omega
  have back : (block.drop 4).length = 4 := by
    rw [List.length_drop]
    omega
  rw [ofWords, toWords, big_endian_of_big_endian _ front, big_endian_of_big_endian _ back,
    List.take_append_drop]

theorem engine_lawful : engine.Lawful where
  sizes := Or.inl rfl
  encrypt_length key block _ := by
    simp [engine, ofWords]
  decrypt_encrypt key block exact := by
    simp only [engine]
    rw [to_words_of_words, cycles_inverse, of_words_to_words block exact]

end Tea

/-- The generator of `drand48`, which gives the upper 31 bits of its state. -/
def rand48 : Rand48 where
  State := Nat
  seed value := value.toNat * 2 ^ 16 + 0x330E
  next state :=
    let after := (0x5DEECE66D * state + 0xB) % 2 ^ 48
    (UInt32.ofNat (after / 2 ^ 17), after)

/-- Eight steps of the reflected CRC-32. -/
def crcByte (crc : UInt32) (byte : UInt8) : UInt32 :=
  (List.range 8).foldl
    (fun crc _ => if crc &&& 1 = 1 then (crc >>> 1) ^^^ 0xEDB88320 else crc >>> 1)
    (crc ^^^ byte.toUInt32)

def crc32 (bytes : List UInt8) : UInt32 := bytes.foldl crcByte 0xFFFFFFFF ^^^ 0xFFFFFFFF

def teaSuite : CipherSuite := { engine := Tea.engine, random := rand48, crc32 }

theorem tea_suite_lawful : teaSuite.engine.Lawful := Tea.engine_lawful

end Sne.Sgp
