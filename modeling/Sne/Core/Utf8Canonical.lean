import Sne.Core.Utf8RoundTrip

/-!
# What the UTF-8 decoder accepts

Each row of the decoder's tables accepts the shortest form of a code unit, except the row of
five octets: its least value is 0x110000, while the encoder takes five octets only from
0x200000 on. The code units between are accepted in a form that is not their own.
-/

namespace Sne.Core

set_option autoImplicit false

namespace Utf8

theorem continuing_to_nat {octet : UInt8} (continuing : invalidContinuingOctet octet = false) :
    128 ≤ octet.toNat ∧ octet.toNat < 192 := by
  simp only [invalidContinuingOctet, Bool.or_eq_false_iff, decide_eq_false_iff_not,
    UInt8.lt_iff_toNat_lt, UInt8.reduceToNat] at continuing
  omega

/-- The decoder took exactly the continuing octets of what it made of them. -/
theorem decode_cont_inverts {octets : List UInt8} {head wc : WChar}
    (small : (head.toNat + 1) * 64 ^ octets.length ≤ 2 ^ 31)
    (decoded : decodeCont head octets = some wc) :
    wc.toNat / 64 ^ octets.length = head.toNat ∧ octets = contOctets wc octets.length := by
  induction octets generalizing head with
  | nil =>
      cases decoded
      exact ⟨by simp, rfl⟩
  | cons octet rest induction =>
      rw [decodeCont] at decoded
      split at decoded
      · cases decoded
      · rename_i continuing
        have range := continuing_to_nat (by simpa using continuing)
        rw [List.length_cons, Nat.pow_succ] at small
        have power : 0 < 64 ^ rest.length := Nat.pow_pos (by omega)
        have low : (octet.toBitVec.signExtend 32 &&& 0x3f).toNat = octet.toNat - 128 := by
          have masked := octet_mask_to_nat octet 6 (by omega)
          rw [show (0x3f : WChar) = BitVec.ofNat 32 (2 ^ 6 - 1) from rfl, masked]
          omega
        have room : head.toNat < 2 ^ 26 := by
          nlinarith
        have next := shift_or_to_nat head _ room (by rw [low]; omega)
        rw [low] at next
        have bound : (head.toNat * 64 + (octet.toNat - 128) + 1) * 64 ^ rest.length ≤ 2 ^ 31 := by
          have below : head.toNat * 64 + (octet.toNat - 128) + 1 ≤ (head.toNat + 1) * 64 := by omega
          nlinarith
        rcases induction (by rw [next]; exact bound) decoded with ⟨value, same⟩
        rw [next] at value
        have natural : wc.Natural := by
          have above : wc.toNat < (wc.toNat / 64 ^ rest.length + 1) * 64 ^ rest.length :=
            Nat.lt_mul_of_div_lt (Nat.lt_succ_self _) power
          rw [value] at above
          unfold WChar.Natural
          omega
        have carried := cont_octet_to_nat natural rest.length
        rw [value] at carried
        constructor
        · rw [List.length_cons, Nat.pow_succ, ← Nat.div_div_eq_div_mul, value]
          omega
        · rw [List.length_cons, contOctets, ← same]
          congr 1
          apply UInt8.toNat_inj.mp
          rw [carried]
          omega

theorem leading_classes {octet : UInt8} (leading : invalidLeadingOctet octet = false) :
    octet.toNat < 128 ∨ (192 ≤ octet.toNat ∧ octet.toNat < 254) := by
  simp only [invalidLeadingOctet, Bool.or_eq_false_iff, Bool.and_eq_false_iff, decide_eq_false_iff_not,
    UInt8.lt_iff_toNat_lt, UInt8.reduceToNat] at leading
  omega

def form (wc : WChar) (count : Nat) : List UInt8 :=
  UInt8.ofBitVec ((outModifierTable.getD count 0 + wc.sshiftRight (6 * count)).setWidth 8) ::
    contOctets wc count

theorem encode_form (wc : WChar) : encode wc = form wc (getContOctetOutCount wc) :=
  rfl

/-- What the decoder accepts with the tables of one row. -/
theorem Row.accepts {count kept limit mark minval : Nat} (row : Row count kept limit mark minval)
    {octet : UInt8} {rest : List UInt8} {wc : WChar} {used : Nat} (low : mark ≤ octet.toNat)
    (high : octet.toNat < mark + limit) (decoded : decode (octet :: rest) = some (wc, used)) :
    used = count + 1 ∧ wc.Natural ∧ minval ≤ wc.toNat ∧ wc.toNat < limit * 64 ^ count ∧
      (octet :: rest).take used = form wc count := by
  rcases row.found octet low high with ⟨leading, announces⟩
  have fits := row.fits
  have power : 0 < 64 ^ count := Nat.pow_pos (by omega)
  simp only [decode, leading, announces, Bool.false_eq_true, if_false] at decoded
  split at decoded
  · cases decoded
  · rename_i enough
    have octets : (rest.take count).length = count := List.length_take_of_le (by omega)
    have head := row.head low high
    have small : ((octet.toBitVec.signExtend 32 &&& inModifierTable.getD count 0).toNat + 1) *
        64 ^ (rest.take count).length ≤ 2 ^ 31 := by
      rw [head, octets]
      calc (octet.toNat - mark + 1) * 64 ^ count ≤ limit * 64 ^ count :=
            Nat.mul_le_mul_right _ (by omega)
        _ ≤ 2 ^ 31 := row.range
    cases result : decodeCont (octet.toBitVec.signExtend 32 &&& inModifierTable.getD count 0)
        (rest.take count) with
    | none =>
        rw [result] at decoded
        cases decoded
    | some value =>
        rw [result] at decoded
        simp only at decoded
        split at decoded
        · cases decoded
        · rename_i least
          cases decoded
          rcases decode_cont_inverts small result with ⟨carried, same⟩
          rw [octets, head] at carried
          rw [octets] at same
          have below : wc.toNat < limit * 64 ^ count :=
            (Nat.div_lt_iff_lt_mul power).mp (by omega)
          have natural : wc.Natural := by
            have range := row.range
            unfold WChar.Natural
            omega
          rw [natural_to_int natural, row.least] at least
          have lead := lead_to_nat natural count (outModifierTable.getD count 0) (by
            rw [row.out]
            omega)
          refine ⟨rfl, natural, by omega, below, ?_⟩
          rw [List.take_succ_cons, form, ← same]
          congr 1
          apply UInt8.toNat_inj.mp
          rw [lead, row.out, carried]
          omega

/-- One round of the decoder: the shortest form of a code unit, or five octets where four
would do. -/
theorem decode_accepts {input : List UInt8} {wc : WChar} {used : Nat}
    (decoded : decode input = some (wc, used)) :
    wc.Natural ∧ (input.take used = encode wc ∨
      (0x110000 ≤ wc.toNat ∧ wc.toNat < 0x200000 ∧ input.take used = form wc 4)) := by
  cases input with
  | nil => cases decoded
  | cons octet rest =>
      have leading : invalidLeadingOctet octet = false := by
        by_contra invalid
        simp [decode, invalid] at decoded
      have shortest : ∀ count, wc.Natural → getContOctetOutCount wc = count →
          (octet :: rest).take used = form wc count → wc.Natural ∧ ((octet :: rest).take used = encode wc ∨
            (0x110000 ≤ wc.toNat ∧ wc.toNat < 0x200000 ∧ (octet :: rest).take used = form wc 4)) := by
        intro count natural counts same
        rw [encode_form, counts]
        exact ⟨natural, .inl same⟩
      have classes := leading_classes leading
      by_cases one : octet.toNat < 128
      · rcases row_one.accepts (by omega) (by omega) decoded with ⟨_, natural, least, below, same⟩
        exact shortest 0 natural ((out_counts natural).1 (by omega)) same
      by_cases two : octet.toNat < 224
      · rcases row_two.accepts (by omega) (by omega) decoded with ⟨_, natural, least, below, same⟩
        exact shortest 1 natural ((out_counts natural).2.1 least (by omega)) same
      by_cases three : octet.toNat < 240
      · rcases row_three.accepts (by omega) (by omega) decoded with ⟨_, natural, least, below, same⟩
        exact shortest 2 natural ((out_counts natural).2.2.1 least (by omega)) same
      by_cases four : octet.toNat < 248
      · rcases row_four.accepts (by omega) (by omega) decoded with ⟨_, natural, least, below, same⟩
        exact shortest 3 natural ((out_counts natural).2.2.2.1 least (by omega)) same
      by_cases five : octet.toNat < 252
      · rcases row_five.accepts (by omega) (by omega) decoded with ⟨_, natural, least, below, same⟩
        -- the one row whose least value is not where the encoder begins to use it
        by_cases large : 0x200000 ≤ wc.toNat
        · exact shortest 4 natural ((out_counts natural).2.2.2.2.1 large (by omega)) same
        · exact ⟨natural, .inr ⟨least, by omega, same⟩⟩
      · rcases row_six.accepts (by omega) (by omega) decoded with ⟨_, natural, least, below, same⟩
        exact shortest 5 natural ((out_counts natural).2.2.2.2.2 least) same

theorem small_natural {wc : WChar} (below : wc.toNat < 0x200000) : wc.Natural :=
  Nat.le_trans (Nat.le_of_lt below) (by decide)

theorem five_form {wc : WChar} (below : wc.toNat < 0x200000) : form wc 4 = 0xf8 :: contOctets wc 4 := by
  have natural := small_natural below
  have nothing : wc.toNat / 64 ^ 4 = 0 := Nat.div_eq_of_lt (by omega)
  have lead := lead_to_nat natural 4 (outModifierTable.getD 4 0) (by rw [nothing]; decide)
  rw [form]
  congr 1
  apply UInt8.toNat_inj.mp
  rw [lead, nothing]
  rfl

/-- The form of five octets is decoded from 0x110000 on. -/
theorem decode_five {wc : WChar} (least : 0x110000 ≤ wc.toNat) (below : wc.toNat < 0x200000)
    (rest : List UInt8) : decode (0xf8 :: (contOctets wc 4 ++ rest)) = some (wc, 5) := by
  have natural := small_natural below
  apply decode_of_leads natural
  refine ⟨by decide, by decide, by decide, ?_, ?_⟩
  · rw [Nat.div_eq_of_lt (by omega)]
    decide
  · rw [natural_to_int natural]
    change ¬((wc.toNat : Int) < 0x110000)
    omega

theorem encode_four {wc : WChar} (least : 0x110000 ≤ wc.toNat) (below : wc.toNat < 0x200000) :
    ∃ lead octets, encode wc = lead :: octets ∧ lead ≠ 0xf8 := by
  have natural := small_natural below
  have counts : getContOctetOutCount wc = 3 := (out_counts natural).2.2.2.1 (by omega) below
  have few : wc.toNat / 64 ^ 3 < 8 := by omega
  have lead := lead_to_nat natural 3 (outModifierTable.getD 3 0) (by
    change 240 + _ < 256
    omega)
  refine ⟨_, contOctets wc 3, by rw [encode_form, counts, form], ?_⟩
  intro same
  rw [same] at lead
  change 248 = 240 + wc.toNat / 64 ^ 3 at lead
  omega

theorem decode_all_follows {ucs : List WChar} (natural : ∀ wc ∈ ucs, wc.Natural) (rest : List UInt8)
    (fuel : Nat) : decodeAll (ucs.length + fuel) (toUtf8 ucs ++ rest) = ucs ++ decodeAll fuel rest := by
  induction ucs with
  | nil =>
      rw [List.length_nil, Nat.zero_add]
      rfl
  | cons wc more induction =>
      rw [List.forall_mem_cons] at natural
      have split : toUtf8 (wc :: more) ++ rest = encode wc ++ (toUtf8 more ++ rest) := by
        rw [← List.append_assoc]
        rfl
      rw [split, List.length_cons, Nat.add_right_comm, decodeAll, decode_encode natural.1]
      simp only
      rw [List.drop_left' rfl, induction natural.2, List.cons_append]

end Utf8

/-- After characters in their shortest form, five octets for a code unit that has a form of
four. -/
def HasOverlong (octets : List UInt8) : Prop :=
  ∃ ucs wc rest, (∀ earlier ∈ ucs, WChar.Natural earlier) ∧ 0x110000 ≤ wc.toNat ∧ wc.toNat < 0x200000 ∧
    octets = toUtf8 ucs ++ (0xf8 :: (Utf8.contOctets wc 4 ++ rest))

/-- The octets that are decoded are the shortest forms of what is decoded, and no such form
at the start of the octets is left out. -/
def DecodesShortest (octets : List UInt8) : Prop :=
  toUtf8 (fromUtf8 octets) <+: octets ∧
    ∀ ucs, (∀ wc ∈ ucs, WChar.Natural wc) → toUtf8 ucs <+: octets → ucs <+: fromUtf8 octets

theorem to_utf8_cons (wc : WChar) (ucs : List WChar) :
    toUtf8 (wc :: ucs) = Utf8.encode wc ++ toUtf8 ucs :=
  rfl

theorem to_utf8_length (ucs : List WChar) : ucs.length ≤ (toUtf8 ucs).length := by
  induction ucs with
  | nil => exact Nat.le_refl 0
  | cons wc ucs induction =>
      have some := Utf8.encode_length_pos wc
      rw [to_utf8_cons, List.length_cons, List.length_append]
      omega

theorem decode_all_shortest (fuel : Nat) {octets : List UInt8} (shortest : ¬HasOverlong octets) :
    toUtf8 (Utf8.decodeAll fuel octets) <+: octets := by
  induction fuel generalizing octets with
  | zero => exact List.nil_prefix
  | succ fuel induction =>
      rw [Utf8.decodeAll]
      cases decoded : Utf8.decode octets with
      | none => exact List.nil_prefix
      | some found =>
          obtain ⟨wc, used⟩ := found
          have split := List.take_append_drop used octets
          rcases Utf8.decode_accepts decoded with ⟨natural, same | ⟨least, below, same⟩⟩
          · rw [same] at split
            have later : ¬HasOverlong (octets.drop used) := by
              rintro ⟨ucs, wide, rest, earlier, least, below, whole⟩
              apply shortest
              refine ⟨wc :: ucs, wide, rest, ?_, least, below, ?_⟩
              · exact List.forall_mem_cons.mpr ⟨natural, earlier⟩
              · rw [← split, whole, to_utf8_cons, List.append_assoc]
            have rest := induction later
            simp only
            rw [to_utf8_cons]
            conv_rhs => rw [← split]
            exact (List.prefix_append_right_inj _).mpr rest
          · rw [same, Utf8.five_form below] at split
            exact absurd ⟨[], wc, octets.drop used, by simp, least, below, split.symm⟩ shortest

/-- What follows the characters is decoded with the fuel that is left. -/
theorem from_utf8_follows {ucs : List WChar} (natural : ∀ wc ∈ ucs, wc.Natural) (rest : List UInt8) :
    ∃ fuel ≥ rest.length, fromUtf8 (toUtf8 ucs ++ rest) = ucs ++ Utf8.decodeAll fuel rest := by
  have long := to_utf8_length ucs
  obtain ⟨fuel, enough⟩ : ∃ fuel, (toUtf8 ucs ++ rest).length = ucs.length + fuel := by
    rw [List.length_append]
    exact ⟨(toUtf8 ucs).length + rest.length - ucs.length, by omega⟩
  refine ⟨fuel, ?_, ?_⟩
  · rw [List.length_append] at enough
    omega
  · rw [fromUtf8, enough, Utf8.decode_all_follows natural]

/-- The decoder keeps to shortest forms exactly on the octets in which no form of five octets
takes the place of one of four. -/
theorem decodes_shortest_iff (octets : List UInt8) : DecodesShortest octets ↔ ¬HasOverlong octets := by
  constructor
  · rintro ⟨shortest, _⟩ ⟨ucs, wc, rest, natural, least, below, rfl⟩
    rcases from_utf8_follows natural (0xf8 :: (Utf8.contOctets wc 4 ++ rest)) with ⟨fuel, enough, decoded⟩
    obtain ⟨fuel, rfl⟩ : ∃ less, fuel = less + 1 := by
      rw [List.length_cons] at enough
      exact ⟨fuel - 1, by omega⟩
    rw [decoded, Utf8.decodeAll, Utf8.decode_five least below] at shortest
    rcases Utf8.encode_four least below with ⟨lead, cont, encoded, differs⟩
    unfold toUtf8 at shortest
    rw [List.flatMap_append, List.flatMap_cons, encoded, List.prefix_append_right_inj, List.cons_append,
      List.cons_prefix_cons] at shortest
    exact differs shortest.1
  · intro shortest
    refine ⟨decode_all_shortest _ shortest, ?_⟩
    rintro ucs natural ⟨rest, rfl⟩
    rcases from_utf8_follows natural rest with ⟨fuel, _, decoded⟩
    rw [decoded]
    exact List.prefix_append _ _

/-- The code unit 0x110000 in five octets comes back in four. -/
theorem overlong_accepted :
    ¬toUtf8 (fromUtf8 [0xf8, 0x84, 0x90, 0x80, 0x80]) <+: [0xf8, 0x84, 0x90, 0x80, 0x80] := by
  decide +kernel

end Sne.Core
