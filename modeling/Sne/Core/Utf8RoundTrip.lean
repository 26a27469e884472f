import Mathlib.Algebra.Group.Nat.Defs
import Mathlib.Tactic.Ring
import Mathlib.Tactic.Linarith
import Sne.Core.Unicode

/-!
# UTF-8 round trip

Code units that are not negative are encoded in one to six octets and decoded to
themselves, those of Unicode in at most four. A string cut in the middle of a
character loses that character and all that follow it.
-/

namespace Sne.Core

set_option autoImplicit false

def WChar.Valid (wc : WChar) : Prop := wc.toNat ≤ 0x10ffff

instance (wc : WChar) : Decidable wc.Valid := inferInstanceAs (Decidable (wc.toNat ≤ 0x10ffff))

def WChar.Natural (wc : WChar) : Prop := wc.toNat ≤ 0x7fffffff

instance (wc : WChar) : Decidable wc.Natural := inferInstanceAs (Decidable (wc.toNat ≤ 0x7fffffff))

theorem WChar.Valid.natural {wc : WChar} (valid : wc.Valid) : wc.Natural :=
  Nat.le_trans valid (by decide)

namespace Utf8

theorem natural_to_int {wc : WChar} (natural : wc.Natural) : wc.toInt = wc.toNat := by
  have bound : wc.toNat ≤ 0x7fffffff := natural
  rw [BitVec.toInt_eq_toNat_cond, if_pos (by omega)]

/-- The code unit is not negative, so the shift is a division. -/
theorem shift_to_nat {wc : WChar} (natural : wc.Natural) (count : Nat) :
    (wc.sshiftRight count).toNat = wc.toNat / 2 ^ count := by
  have bound : wc.toNat ≤ 0x7fffffff := natural
  have positive : wc.msb = false := by
    rw [BitVec.msb_eq_decide]
    simp
    omega
  rw [BitVec.sshiftRight_eq_of_msb_false positive, BitVec.toNat_ushiftRight,
    Nat.shiftRight_eq_div_pow]

theorem low_mask_to_nat (number : BitVec 32) (count : Nat) (short : count < 32) :
    (number &&& BitVec.ofNat 32 (2 ^ count - 1)).toNat = number.toNat % 2 ^ count := by
  have power : 2 ^ count < 2 ^ 32 := Nat.pow_lt_pow_right (by omega) short
  rw [BitVec.toNat_and, BitVec.toNat_ofNat, Nat.mod_eq_of_lt (by omega),
    Nat.and_two_pow_sub_one_eq_mod]

/-- The sign of a `char` does not reach the bits that a mask of the decoder keeps. -/
theorem octet_mask_to_nat (octet : UInt8) (count : Nat) (short : count ≤ 8) :
    (octet.toBitVec.signExtend 32 &&& BitVec.ofNat 32 (2 ^ count - 1)).toNat =
      octet.toNat % 2 ^ count := by
  rw [low_mask_to_nat _ _ (by omega)]
  apply Nat.eq_of_testBit_eq
  intro index
  rw [Nat.testBit_mod_two_pow, Nat.testBit_mod_two_pow, ← BitVec.getLsbD, BitVec.getLsbD_signExtend]
  by_cases inside : index < count
  · simp [inside, show index < 32 by omega, show index < 8 by omega, BitVec.getLsbD]
  · simp [inside]

theorem cont_octet_to_nat {wc : WChar} (natural : wc.Natural) (count : Nat) :
    (UInt8.ofBitVec ((0x80 + ((wc.sshiftRight (6 * count)) &&& 0x3f)).setWidth 8)).toNat =
      128 + wc.toNat / 64 ^ count % 64 := by
  have group : (wc.sshiftRight (6 * count) &&& 0x3f).toNat = wc.toNat / 64 ^ count % 64 := by
    have masked := low_mask_to_nat (wc.sshiftRight (6 * count)) 6 (by omega)
    rw [shift_to_nat natural, Nat.pow_mul] at masked
    exact masked
  rw [UInt8.toNat_ofBitVec, BitVec.toNat_setWidth, BitVec.toNat_add, group]
  simp
  omega

theorem shift_or_to_nat (number low : BitVec 32) (small : number.toNat < 2 ^ 26)
    (lowSmall : low.toNat < 64) : ((number <<< 6) ||| low).toNat = number.toNat * 64 + low.toNat := by
  have shifted : (number <<< 6).toNat = number.toNat <<< 6 := by
    rw [BitVec.toNat_shiftLeft, Nat.shiftLeft_eq, Nat.mod_eq_of_lt (by omega)]
  rw [BitVec.toNat_or, shifted, ← Nat.shiftLeft_add_eq_or_of_lt (by simpa using lowSmall),
    Nat.shiftLeft_eq]

@[simp] theorem cont_octets_length (wc : WChar) (count : Nat) :
    (contOctets wc count).length = count := by
  induction count with
  | zero => rfl
  | succ count induction => rw [contOctets, List.length_cons, induction]

theorem decode_cont_octets {wc : WChar} (natural : wc.Natural) (count : Nat) (head : WChar)
    (small : (head.toNat + 1) * 64 ^ count ≤ 2 ^ 32) :
    ∃ result, decodeCont head (contOctets wc count) = some result ∧
      result.toNat = head.toNat * 64 ^ count + wc.toNat % 64 ^ count := by
  induction count generalizing head with
  | zero => exact ⟨head, rfl, by simp [Nat.mod_one]⟩
  | succ count induction =>
      have power : 0 < 64 ^ count := Nat.pow_pos (by omega)
      have group : wc.toNat / 64 ^ count % 64 < 64 := Nat.mod_lt _ (by omega)
      have octet := cont_octet_to_nat natural count
      rw [contOctets]
      generalize UInt8.ofBitVec ((0x80 + ((wc.sshiftRight (6 * count)) &&& 0x3f)).setWidth 8) = byte
        at octet
      have low : (byte.toBitVec.signExtend 32 &&& 0x3f).toNat = wc.toNat / 64 ^ count % 64 := by
        have masked := octet_mask_to_nat byte 6 (by omega)
        rw [octet] at masked
        rw [show (0x3f : WChar) = BitVec.ofNat 32 (2 ^ 6 - 1) from rfl, masked]
        omega
      have continuing : invalidContinuingOctet byte = false := by
        simp only [invalidContinuingOctet, Bool.or_eq_false_iff, decide_eq_false_iff_not,
          UInt8.lt_iff_toNat_lt, octet]
        constructor
        · simp
        · simp
          omega
      have room : head.toNat < 2 ^ 26 := by
        rw [Nat.pow_succ] at small
        nlinarith
      have next := shift_or_to_nat head _ room (by rw [low]; exact group)
      rw [low] at next
      rw [Nat.pow_succ] at small
      rcases induction ((head <<< 6) ||| (byte.toBitVec.signExtend 32 &&& 0x3f)) (by
        rw [next]
        nlinarith) with ⟨result, decoded, value⟩
      refine ⟨result, ?_, ?_⟩
      · rw [decodeCont, continuing]
        exact decoded
      · rw [value, next, Nat.pow_succ, Nat.mod_mul]
        ring

/-- A leading octet that announces `count` octets and carries the bits over them. -/
structure Leads (wc : WChar) (lead : UInt8) (count : Nat) : Prop where
  few : count ≤ 5
  leading : invalidLeadingOctet lead = false
  announces : getContOctetCount lead = count
  carries : (lead.toBitVec.signExtend 32 &&& inModifierTable.getD count 0).toNat =
    wc.toNat / 64 ^ count
  least : ¬wc.toInt < minvalTable.getD count 0

theorem decode_of_leads {wc : WChar} (natural : wc.Natural) {lead : UInt8} {count : Nat}
    (leads : Leads wc lead count) (rest : List UInt8) :
    decode (lead :: (contOctets wc count ++ rest)) = some (wc, count + 1) := by
  have bound : wc.toNat ≤ 0x7fffffff := natural
  have split : wc.toNat / 64 ^ count * 64 ^ count + wc.toNat % 64 ^ count = wc.toNat :=
    Nat.div_add_mod' _ _
  have power : 64 ^ count ≤ 64 ^ 5 := Nat.pow_le_pow_right (by omega) leads.few
  have small : (wc.toNat / 64 ^ count + 1) * 64 ^ count ≤ 2 ^ 32 := by
    rw [Nat.add_mul, Nat.one_mul]
    omega
  rcases decode_cont_octets natural count _ (leads.carries ▸ small) with ⟨result, decoded, value⟩
  rw [leads.carries, split] at value
  have same : result = wc := BitVec.eq_of_toNat_eq value
  have enough : ¬(contOctets wc count ++ rest).length < count := by
    rw [List.length_append, cont_octets_length]
    omega
  have taken : (contOctets wc count ++ rest).take count = contOctets wc count :=
    List.take_left' (cont_octets_length wc count)
  rw [same] at decoded
  simp only [decode, leads.leading, leads.announces, enough, taken, decoded, leads.least,
    if_false, Bool.false_eq_true]

theorem lead_to_nat {wc : WChar} (natural : wc.Natural) (count : Nat) (mark : WChar)
    (small : mark.toNat + wc.toNat / 64 ^ count < 256) :
    (UInt8.ofBitVec ((mark + wc.sshiftRight (6 * count)).setWidth 8)).toNat =
      mark.toNat + wc.toNat / 64 ^ count := by
  have shifted : (wc.sshiftRight (6 * count)).toNat = wc.toNat / 64 ^ count := by
    rw [shift_to_nat natural, Nat.pow_mul]
  rw [UInt8.toNat_ofBitVec, BitVec.toNat_setWidth, BitVec.toNat_add, shifted]
  omega

theorem octet_classes (octet : UInt8) :
    (octet.toNat < 128 → invalidLeadingOctet octet = false ∧ getContOctetCount octet = 0) ∧
    (192 ≤ octet.toNat → octet.toNat < 224 →
      invalidLeadingOctet octet = false ∧ getContOctetCount octet = 1) ∧
    (224 ≤ octet.toNat → octet.toNat < 240 →
      invalidLeadingOctet octet = false ∧ getContOctetCount octet = 2) ∧
    (240 ≤ octet.toNat → octet.toNat < 248 →
      invalidLeadingOctet octet = false ∧ getContOctetCount octet = 3) ∧
    (248 ≤ octet.toNat → octet.toNat < 252 →
      invalidLeadingOctet octet = false ∧ getContOctetCount octet = 4) ∧
    (252 ≤ octet.toNat → octet.toNat < 254 →
      invalidLeadingOctet octet = false ∧ getContOctetCount octet = 5) := by
  simp only [invalidLeadingOctet, getContOctetCount, getOctetCount, UInt8.lt_iff_toNat_lt,
    UInt8.le_iff_toNat_le, Bool.or_eq_false_iff, Bool.and_eq_false_iff, Bool.and_eq_true,
    decide_eq_false_iff_not, decide_eq_true_eq, UInt8.reduceToNat]
  refine ⟨?_, ?_, ?_, ?_, ?_, ?_⟩
  · intro high
    split_ifs <;> omega
  · intro low high
    split_ifs <;> omega
  · intro low high
    split_ifs <;> omega
  · intro low high
    split_ifs <;> omega
  · intro low high
    split_ifs <;> omega
  · intro low high
    split_ifs <;> omega

/-- One row of the tables: `count` octets follow, the leading one is `mark` and less than
`limit` more, and the decoder keeps its low `kept` bits. -/
structure Row (count kept limit mark minval : Nat) : Prop where
  few : count ≤ 5
  narrow : kept ≤ 8
  out : (outModifierTable.getD count 0).toNat = mark
  mask : inModifierTable.getD count 0 = BitVec.ofNat 32 (2 ^ kept - 1)
  least : minvalTable.getD count 0 = minval
  above : mark % 2 ^ kept = 0
  limited : limit ≤ 2 ^ kept
  fits : mark + limit ≤ 256
  range : limit * 64 ^ count ≤ 2 ^ 31
  found : ∀ octet : UInt8, mark ≤ octet.toNat → octet.toNat < mark + limit →
    invalidLeadingOctet octet = false ∧ getContOctetCount octet = count

theorem row_one : Row 0 8 128 0 0 :=
  ⟨by decide, by decide, rfl, rfl, rfl, rfl, by decide, by decide, by decide,
    fun octet _ => (Nat.zero_add 128).symm ▸ (octet_classes octet).1⟩

theorem row_two : Row 1 5 32 192 0x80 :=
  ⟨by decide, by decide, rfl, rfl, rfl, rfl, by decide, by decide, by decide,
    fun octet => (octet_classes octet).2.1⟩

theorem row_three : Row 2 4 16 224 0x800 :=
  ⟨by decide, by decide, rfl, rfl, rfl, rfl, by decide, by decide, by decide,
    fun octet => (octet_classes octet).2.2.1⟩

theorem row_four : Row 3 3 8 240 0x10000 :=
  ⟨by decide, by decide, rfl, rfl, rfl, rfl, by decide, by decide, by decide,
    fun octet => (octet_classes octet).2.2.2.1⟩

theorem row_five : Row 4 2 4 248 0x110000 :=
  ⟨by decide, by decide, rfl, rfl, rfl, rfl, by decide, by decide, by decide,
    fun octet => (octet_classes octet).2.2.2.2.1⟩

theorem row_six : Row 5 1 2 252 0x4000000 :=
  ⟨by decide, by decide, rfl, rfl, rfl, rfl, by decide, by decide, by decide,
    fun octet => (octet_classes octet).2.2.2.2.2⟩

section Row

variable {count kept limit mark minval : Nat}

theorem Row.head (row : Row count kept limit mark minval) {octet : UInt8} (low : mark ≤ octet.toNat)
    (high : octet.toNat < mark + limit) :
    (octet.toBitVec.signExtend 32 &&& inModifierTable.getD count 0).toNat = octet.toNat - mark := by
  have limited := row.limited
  have whole : octet.toNat = mark + (octet.toNat - mark) := by omega
  rw [row.mask, octet_mask_to_nat octet kept row.narrow, whole, Nat.add_mod, row.above, Nat.zero_add,
    Nat.mod_mod, Nat.mod_eq_of_lt (by omega)]
  omega

theorem Row.leads (row : Row count kept limit mark minval) {wc : WChar} (natural : wc.Natural)
    (counts : getContOctetOutCount wc = count) (high : wc.toNat / 64 ^ count < limit)
    (low : minval ≤ wc.toNat) :
      ∃ lead count, encode wc = lead :: contOctets wc count ∧ Leads wc lead count := by
  have fits := row.fits
  have octet := lead_to_nat natural count (outModifierTable.getD count 0) (by rw [row.out]; omega)
  rw [row.out] at octet
  refine ⟨UInt8.ofBitVec ((outModifierTable.getD count 0 + wc.sshiftRight (6 * count)).setWidth 8),
    count, ?_, ?_⟩
  · unfold encode
    rw [counts]
  · generalize UInt8.ofBitVec ((outModifierTable.getD count 0 +
      wc.sshiftRight (6 * count)).setWidth 8) = lead at octet ⊢
    generalize carried : wc.toNat / 64 ^ count = bits at octet high
    rcases row.found lead (by omega) (by omega) with ⟨leading, announces⟩
    refine ⟨row.few, leading, announces, ?_, ?_⟩
    · rw [row.head (by omega) (by omega), octet, carried, Nat.add_sub_cancel_left]
    · rw [natural_to_int natural, row.least]
      omega

end Row

theorem out_counts {wc : WChar} (natural : wc.Natural) :
    (wc.toNat < 0x80 → getContOctetOutCount wc = 0) ∧
    (0x80 ≤ wc.toNat → wc.toNat < 0x800 → getContOctetOutCount wc = 1) ∧
    (0x800 ≤ wc.toNat → wc.toNat < 0x10000 → getContOctetOutCount wc = 2) ∧
    (0x10000 ≤ wc.toNat → wc.toNat < 0x200000 → getContOctetOutCount wc = 3) ∧
    (0x200000 ≤ wc.toNat → wc.toNat < 0x4000000 → getContOctetOutCount wc = 4) ∧
    (0x4000000 ≤ wc.toNat → getContOctetOutCount wc = 5) := by
  unfold getContOctetOutCount
  rw [natural_to_int natural]
  refine ⟨?_, ?_, ?_, ?_, ?_, ?_⟩
  · intro high
    split_ifs <;> omega
  · intro low high
    split_ifs <;> omega
  · intro low high
    split_ifs <;> omega
  · intro low high
    split_ifs <;> omega
  · intro low high
    split_ifs <;> omega
  · intro low
    split_ifs <;> omega

theorem leads_encode {wc : WChar} (natural : wc.Natural) :
    ∃ lead count, encode wc = lead :: contOctets wc count ∧ Leads wc lead count := by
  have bound : wc.toNat ≤ 0x7fffffff := natural
  rcases out_counts natural with ⟨zero, one, two, three, four, five⟩
  by_cases below1 : wc.toNat < 0x80
  · exact row_one.leads natural (zero below1) (by omega) (by omega)
  by_cases below2 : wc.toNat < 0x800
  · exact row_two.leads natural (one (by omega) below2) (by omega) (by omega)
  by_cases below3 : wc.toNat < 0x10000
  · exact row_three.leads natural (two (by omega) below3) (by omega) (by omega)
  by_cases below4 : wc.toNat < 0x200000
  · exact row_four.leads natural (three (by omega) below4) (by omega) (by omega)
  by_cases below5 : wc.toNat < 0x4000000
  · exact row_five.leads natural (four (by omega) below5) (by omega) (by omega)
  · exact row_six.leads natural (five (by omega)) (by omega) (by omega)

theorem decode_encode {wc : WChar} (natural : wc.Natural) (rest : List UInt8) :
    decode (encode wc ++ rest) = some (wc, (encode wc).length) := by
  rcases leads_encode natural with ⟨lead, count, encoded, leads⟩
  rw [encoded, List.cons_append, decode_of_leads natural leads, List.length_cons, cont_octets_length]

/-- A character of which the last octets are missing is not decoded. -/
theorem decode_partial {wc : WChar} (natural : wc.Natural) (count : Nat)
    (short : count < (encode wc).length) : decode ((encode wc).take count) = none := by
  rcases leads_encode natural with ⟨lead, octets, encoded, leads⟩
  rw [encoded, List.length_cons, cont_octets_length] at short
  rw [encoded]
  cases count with
  | zero => rfl
  | succ count =>
      have missing : ((contOctets wc octets).take count).length < octets := by
        rw [List.length_take, cont_octets_length]
        omega
      rw [List.take_succ_cons]
      simp only [decode, leads.leading, leads.announces, missing, if_true, if_false,
        Bool.false_eq_true]

theorem encode_length_pos (wc : WChar) : 0 < (encode wc).length := by
  unfold encode
  exact Nat.succ_pos _

/-- Decoding the first octets of an encoded string gives its first characters: as many as
are whole there. -/
theorem decode_all_take {ucs : List WChar} (natural : ∀ wc ∈ ucs, wc.Natural) (count fuel : Nat)
    (enough : ((toUtf8 ucs).take count).length ≤ fuel) :
    ∃ characters ≤ ucs.length, decodeAll fuel ((toUtf8 ucs).take count) = ucs.take characters ∧
      (toUtf8 (ucs.take characters)).length ≤ count ∧
      ∀ more ≤ ucs.length, characters < more → count < (toUtf8 (ucs.take more)).length := by
  induction ucs generalizing count fuel with
  | nil =>
      refine ⟨0, Nat.le_refl _, ?_, Nat.zero_le _, ?_⟩
      · cases fuel with
        | zero => rfl
        | succ fuel => simp [toUtf8, decodeAll, decode]
      · intro more bound beyond
        exact absurd beyond (Nat.not_lt.mpr bound)
  | cons wc rest induction =>
      rw [List.forall_mem_cons] at natural
      have split : ∀ more, toUtf8 (wc :: more) = encode wc ++ toUtf8 more := fun _ => rfl
      have some := encode_length_pos wc
      rw [split] at enough ⊢
      by_cases whole : (encode wc).length ≤ count
      · rw [List.take_append, List.take_of_length_le whole, List.length_append] at enough
        rw [List.take_append, List.take_of_length_le whole]
        obtain ⟨fuel, rfl⟩ : ∃ less, fuel = less + 1 := ⟨fuel - 1, by omega⟩
        rcases induction natural.2 (count - (encode wc).length) fuel (by omega) with
          ⟨characters, bound, decoded, fits, longest⟩
        refine ⟨characters + 1, by simpa using bound, ?_, ?_, ?_⟩
        · rw [decodeAll, decode_encode natural.1]
          simp only
          rw [List.drop_left' rfl, decoded, List.take_succ_cons]
        · rw [List.take_succ_cons, split, List.length_append]
          omega
        · intro more moreBound beyond
          obtain ⟨less, rfl⟩ : ∃ less, more = less + 1 := ⟨more - 1, by omega⟩
          have longer := longest less (by simpa using moreBound) (by omega)
          rw [List.take_succ_cons, split, List.length_append]
          omega
      · refine ⟨0, Nat.zero_le _, ?_, Nat.zero_le _, ?_⟩
        · rw [List.take_append_of_le_length (by omega)]
          cases fuel with
          | zero => rfl
          | succ fuel => rw [decodeAll, decode_partial natural.1 count (by omega), List.take_zero]
        · intro more _ beyond
          obtain ⟨less, rfl⟩ : ∃ less, more = less + 1 := ⟨more - 1, by omega⟩
          rw [List.take_succ_cons, split, List.length_append]
          omega

end Utf8

theorem from_utf8_take {ucs : List WChar} (natural : ∀ wc ∈ ucs, wc.Natural) (count : Nat) :
    ∃ characters ≤ ucs.length, fromUtf8 ((toUtf8 ucs).take count) = ucs.take characters ∧
      (toUtf8 (ucs.take characters)).length ≤ count ∧
      ∀ more ≤ ucs.length, characters < more → count < (toUtf8 (ucs.take more)).length :=
  Utf8.decode_all_take natural count _ (Nat.le_refl _)

/-- All characters come back when no octet is missing, and not all when one is. -/
theorem from_utf8_all {ucs : List WChar} (natural : ∀ wc ∈ ucs, wc.Natural) (count : Nat) :
    ∃ characters ≤ ucs.length, fromUtf8 ((toUtf8 ucs).take count) = ucs.take characters ∧
      (characters = ucs.length ↔ (toUtf8 ucs).length ≤ count) := by
  rcases from_utf8_take natural count with ⟨characters, bound, decoded, fits, longest⟩
  refine ⟨characters, bound, decoded, ?_, ?_⟩
  · rintro rfl
    rw [List.take_length] at fits
    exact fits
  · intro whole
    by_contra fewer
    have longer := longest ucs.length (Nat.le_refl _) (by omega)
    rw [List.take_length] at longer
    omega

/-- Decoding the octets that the size field counts gives back the cut string exactly when
no octet is missing. -/
theorem wide_string_restored_iff {ucs : List WChar} (valid : ∀ wc ∈ ucs, wc.Valid) {maxLength : Nat}
    (short : ucs.length ≤ maxLength) (count : Nat) :
    (fromUtf8 ((toUtf8 ucs).take count)).take maxLength = ucs ↔ (toUtf8 ucs).length ≤ count := by
  rcases from_utf8_all (fun wc member => (valid wc member).natural) count with
    ⟨characters, bound, decoded, all⟩
  rw [decoded, ← all, List.take_take]
  constructor
  · intro same
    have lengths := congrArg List.length same
    rw [List.length_take] at lengths
    omega
  · intro same
    exact List.take_of_length_le (by omega)

theorem to_utf8_monotone {first ucs : List WChar} (among : first <+: ucs) :
    toUtf8 first <+: toUtf8 ucs := by
  rcases among with ⟨rest, rfl⟩
  unfold toUtf8
  rw [List.flatMap_append]
  exact List.prefix_append _ _

/-- The decoded octets are the longest prefix of the string that is whole among them. -/
theorem from_utf8_longest {ucs : List WChar} (natural : ∀ wc ∈ ucs, wc.toNat ≤ 0x7fffffff)
    (count : Nat) :
    (fromUtf8 ((toUtf8 ucs).take count) <+: ucs ∧
      toUtf8 (fromUtf8 ((toUtf8 ucs).take count)) <+: (toUtf8 ucs).take count ∧
      ∀ longer, longer <+: ucs → toUtf8 longer <+: (toUtf8 ucs).take count →
        longer <+: fromUtf8 ((toUtf8 ucs).take count)) ∧
    fromUtf8 (toUtf8 ucs) = ucs := by
  constructor
  · rcases from_utf8_take natural count with ⟨characters, bound, decoded, fits, longest⟩
    rw [decoded]
    refine ⟨List.take_prefix _ _, ?_, ?_⟩
    · exact List.prefix_take_iff.mpr ⟨to_utf8_monotone (List.take_prefix _ _), fits⟩
    · intro longer among whole
      have short := (List.prefix_take_iff.mp whole).2
      rw [List.prefix_iff_eq_take.mp among] at short
      have within : longer.length ≤ characters := by
        by_contra beyond
        have more := longest longer.length among.length_le (by omega)
        omega
      exact List.prefix_take_iff.mpr ⟨among, within⟩
  · rcases from_utf8_all natural (toUtf8 ucs).length with ⟨characters, bound, decoded, all⟩
    rw [List.take_length] at decoded
    rw [decoded, all.mpr (Nat.le_refl _), List.take_length]

theorem from_utf8_longest_cut :
    fromUtf8 ((toUtf8 [0x61, 0x7fffffff]).take 5) <+: [0x61, 0x7fffffff] ∧
      fromUtf8 (toUtf8 [0x61, 0x7fffffff]) = [0x61, 0x7fffffff] := by
  have natural : ∀ wc ∈ ([0x61, 0x7fffffff] : List WChar), wc.toNat ≤ 0x7fffffff := by simp
  have decoded := from_utf8_longest natural 5
  exact ⟨decoded.1.1, decoded.2⟩

end Sne.Core
