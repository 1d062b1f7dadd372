import Mathlib.Algebra.GroupWithZero.Nat
import Mathlib.Data.Nat.Basic
import Mathlib.Order.Lattice
import SriovMacSync.Data.Text

namespace SriovMacSync.Data

/-- A hardware address, `[u8; 6]` in the source. -/
structure Mac where
  (octet0 octet1 octet2 octet3 octet4 octet5 : UInt8)
deriving DecidableEq, Repr

namespace Mac

def octets (mac : Mac) : List UInt8 :=
  [mac.octet0, mac.octet1, mac.octet2, mac.octet3, mac.octet4, mac.octet5]

def zero : Mac := ⟨0, 0, 0, 0, 0, 0⟩

/-- The address as a big-endian number, which is how arrays of octets compare. -/
def toNat (mac : Mac) : Nat :=
  mac.octets.foldl (fun value octet => value * 256 + octet.toNat) 0

theorem toNat_injective : Function.Injective toNat := by
  rintro ⟨a0, a1, a2, a3, a4, a5⟩ ⟨b0, b1, b2, b3, b4, b5⟩ same
  simp only [toNat, octets, List.foldl_cons, List.foldl_nil] at same
  have below := UInt8.toNat_lt
  have := below a0; have := below a1; have := below a2
  have := below a3; have := below a4; have := below a5
  have := below b0; have := below b1; have := below b2
  have := below b3; have := below b4; have := below b5
  simp only [Mac.mk.injEq, ← UInt8.toNat_inj]
  omega

instance : LinearOrder Mac := LinearOrder.lift' toNat toNat_injective

/-- The low bit of the first octet marks a group address. -/
def isUnicast (mac : Mac) : Bool := mac.octet0 &&& 1 == 0

/-- Whether an address may appear in a unicast filter at all: unicast, and not
the all-zero address a never-configured interface reports. -/
def isRegisterable (mac : Mac) : Bool := mac.isUnicast && mac != zero

end Mac

def hexDigit (value : Nat) : Char :=
  if value < 10 then Char.ofNat (48 + value) else Char.ofNat (87 + value)

def hexOctet (octet : UInt8) : Text :=
  [hexDigit (octet.toNat / 16), hexDigit (octet.toNat % 16)]

def formatMac (mac : Mac) : Text := [':'].intercalate (mac.octets.map hexOctet)

def isHexDigit (char : Char) : Bool :=
  let code := char.toNat
  (48 ≤ code && code ≤ 57) || (65 ≤ code && code ≤ 70) || (97 ≤ code && code ≤ 102)

def hexValue (char : Char) : Nat :=
  let code := char.toNat
  if code ≤ 57 then code - 48 else if code ≤ 70 then code - 55 else code - 87

def utf8Length (text : Text) : Nat := (text.map Char.utf8Size).sum

/-- The groups of an address one by one.  Checking the characters is the only
way to accept exactly two hexadecimal digits, since a number parser would also
take a sign. -/
def parseOctets : List Text → List UInt8 → Option (List UInt8)
  | [], out => some out
  | part :: rest, out =>
      if out.length = 6 ∨ utf8Length part ≠ 2 ∨ ¬ part.all isHexDigit then none
      else parseOctets rest
        (out ++ [UInt8.ofNat (part.foldl (fun value char => value * 16 + hexValue char) 0)])

def parseMac (text : Text) : Option Mac :=
  match parseOctets (text.splitOn ':') [] with
  | some [a, b, c, d, e, f] => some ⟨a, b, c, d, e, f⟩
  | _ => none

section RoundTrip

private theorem hexDigit_spec : ∀ value < 16,
    isHexDigit (hexDigit value) = true ∧ hexValue (hexDigit value) = value ∧
      (hexDigit value).utf8Size = 1 ∧ hexDigit value ≠ ':' ∧
      isWhitespace (hexDigit value) = false := by
  decide

private theorem nibbles (octet : UInt8) : octet.toNat / 16 < 16 ∧ octet.toNat % 16 < 16 := by
  have bound := octet.toNat_lt
  omega

theorem parseOctets_hexOctet (octet : UInt8) (rest : List Text) {out : List UInt8}
    (room : out.length < 6) :
    parseOctets (hexOctet octet :: rest) out = parseOctets rest (out ++ [octet]) := by
  obtain ⟨highHex, highValue, highSize, -⟩ := hexDigit_spec _ (nibbles octet).1
  obtain ⟨lowHex, lowValue, lowSize, -⟩ := hexDigit_spec _ (nibbles octet).2
  have plain : ¬ (out.length = 6 ∨ utf8Length (hexOctet octet) ≠ 2 ∨
      ¬ (hexOctet octet).all isHexDigit = true) := by
    simp only [hexOctet, utf8Length, List.map_cons, List.map_nil, List.sum_cons, List.sum_nil,
      highSize, lowSize, List.all_cons, List.all_nil, highHex, lowHex]
    simp
    omega
  have value : UInt8.ofNat ((hexOctet octet).foldl
      (fun value char => value * 16 + hexValue char) 0) = octet := by
    simp only [hexOctet, List.foldl_cons, List.foldl_nil, highValue, lowValue]
    have split : (0 * 16 + octet.toNat / 16) * 16 + octet.toNat % 16 = octet.toNat := by omega
    rw [split, UInt8.ofNat_toNat]
  rw [parseOctets, if_neg plain, value]

theorem parseMac_formatMac (mac : Mac) : parseMac (formatMac mac) = some mac := by
  have groups : (formatMac mac).splitOn ':' = mac.octets.map hexOctet := by
    refine List.splitOn_intercalate _ ?_ (by simp [Mac.octets])
    intro group member
    obtain ⟨octet, -, rfl⟩ := List.mem_map.mp member
    have high := (hexDigit_spec _ (nibbles octet).1).2.2.2.1
    have low := (hexDigit_spec _ (nibbles octet).2).2.2.2.1
    simp [hexOctet, high.symm, low.symm]
  simp only [parseMac, groups, Mac.octets, List.map_cons, List.map_nil]
  rw [parseOctets_hexOctet _ _ (by simp), parseOctets_hexOctet _ _ (by simp),
    parseOctets_hexOctet _ _ (by simp), parseOctets_hexOctet _ _ (by simp),
    parseOctets_hexOctet _ _ (by simp), parseOctets_hexOctet _ _ (by simp)]
  rfl

theorem isField_formatMac (mac : Mac) : IsField (formatMac mac) := by
  refine ⟨by simp [formatMac, Mac.octets, hexOctet], ?_⟩
  have octet (octet : UInt8) : ∀ char ∈ hexOctet octet, isWhitespace char = false := by
    intro char member
    rcases List.mem_pair.mp member with rfl | rfl
    · exact (hexDigit_spec _ (nibbles octet).1).2.2.2.2
    · exact (hexDigit_spec _ (nibbles octet).2).2.2.2.2
  have separator : isWhitespace ':' = false := by decide
  intro char member
  simp only [formatMac, Mac.octets, List.map_cons, List.map_nil, List.intercalate_cons_cons,
    List.intercalate_singleton, List.mem_append, List.mem_singleton] at member
  rcases member with (member | rfl) | (member | rfl) | (member | rfl) | (member | rfl) |
      (member | rfl) | member <;>
    first
      | exact octet _ _ member
      | exact separator

end RoundTrip

end SriovMacSync.Data
