import Mathlib.Data.List.Basic

/-!
# UTF-8 conversion

`toUtf8` and `fromUtf8` of `Unicode.cpp`, for a platform whose `wchar_t` is a
signed 32-bit integer and whose `char` is signed. Comparisons of code units are
therefore comparisons of two's complement values, and a code unit that leaves
the representable range wraps.
-/

namespace Sne.Core

set_option autoImplicit false

abbrev WChar := BitVec 32

def invalidLeadingOctet (octet : UInt8) : Bool :=
  (0x7f < octet && octet < 0xc0) || 0xfd < octet

def invalidContinuingOctet (octet : UInt8) : Bool :=
  octet < 0x80 || 0xbf < octet

def getOctetCount (leadOctet : UInt8) : Nat :=
  if leadOctet ≤ 0x7f then 1
  else if 0xc0 ≤ leadOctet && leadOctet ≤ 0xdf then 2
  else if 0xe0 ≤ leadOctet && leadOctet ≤ 0xef then 3
  else if 0xf0 ≤ leadOctet && leadOctet ≤ 0xf7 then 4
  else if 0xf8 ≤ leadOctet && leadOctet ≤ 0xfb then 5
  else 6

def getContOctetCount (leadOctet : UInt8) : Nat :=
  getOctetCount leadOctet - 1

def getContOctetOutCount (word : WChar) : Nat :=
  if word.toInt < 0x80 then 0
  else if word.toInt < 0x800 then 1
  else if word.toInt < 0x10000 then 2
  else if word.toInt < 0x200000 then 3
  else if word.toInt < 0x4000000 then 4
  else 5

namespace Utf8

def outModifierTable : List WChar := [0x00, 0xc0, 0xe0, 0xf0, 0xf8, 0xfc]

def inModifierTable : List WChar := [0xff, 0x1f, 0x0f, 0x07, 0x03, 0x01]

def minvalTable : List Int := [0, 0x80, 0x800, 0x10000, 0x110000, 0x4000000]

def contOctets (wc : WChar) : Nat → List UInt8
  | 0 => []
  | count + 1 =>
      UInt8.ofBitVec ((0x80 + ((wc.sshiftRight (6 * count)) &&& 0x3f)).setWidth 8) ::
        contOctets wc count

def encode (wc : WChar) : List UInt8 :=
  let count := getContOctetOutCount wc
  UInt8.ofBitVec ((outModifierTable.getD count 0 + wc.sshiftRight (6 * count)).setWidth 8) ::
    contOctets wc count

def decodeCont (wc : WChar) : List UInt8 → Option WChar
  | [] => some wc
  | octet :: rest =>
      if invalidContinuingOctet octet then none
      else decodeCont ((wc <<< 6) ||| (octet.toBitVec.signExtend 32 &&& 0x3f)) rest

/-- One round of the decoding loop: the character at the head of the input and
the number of octets it takes. -/
def decode : List UInt8 → Option (WChar × Nat)
  | [] => none
  | octet :: rest =>
      if invalidLeadingOctet octet then none
      else
        let count := getContOctetCount octet
        if rest.length < count then none
        else
          match decodeCont (octet.toBitVec.signExtend 32 &&& inModifierTable.getD count 0)
              (rest.take count) with
          | none => none
          | some wc => if wc.toInt < minvalTable.getD count 0 then none else some (wc, count + 1)

def decodeAll : Nat → List UInt8 → List WChar
  | 0, _ => []
  | fuel + 1, input =>
      match decode input with
      | none => []
      | some (wc, used) => wc :: decodeAll fuel (input.drop used)

end Utf8

def toUtf8 (ucs : List WChar) : List UInt8 := ucs.flatMap Utf8.encode

/-- Every round takes at least one octet, so the length of the input is enough fuel. -/
def fromUtf8 (utf8 : List UInt8) : List WChar := Utf8.decodeAll utf8.length utf8

end Sne.Core
