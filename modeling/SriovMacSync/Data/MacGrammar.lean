import Mathlib.Data.List.Basic
import SriovMacSync.Data.Mac

namespace SriovMacSync.Data

/-! The grammar of a written hardware address, and that `parse_mac` accepts
this grammar and no other text. -/

/-- The ASCII hexadecimal digits. -/
def hexDigits : List Char :=
  ['0', '1', '2', '3', '4', '5', '6', '7', '8', '9', 'a', 'b', 'c', 'd', 'e', 'f',
    'A', 'B', 'C', 'D', 'E', 'F']

/-- Exactly two hexadecimal digits. -/
def IsOctetText (group : Text) : Prop :=
  ∃ high ∈ hexDigits, ∃ low ∈ hexDigits, group = [high, low]

/-- Six groups of two hexadecimal digits with single colons between them. -/
def IsAddress (text : Text) : Prop :=
  ∃ groups : List Text, groups.length = 6 ∧ (∀ group ∈ groups, IsOctetText group) ∧
    text = [':'].intercalate groups

/-- `u8::is_ascii_hexdigit`. -/
def isHexByte (byte : UInt8) : Bool :=
  (48 ≤ byte && byte ≤ 57) || (65 ≤ byte && byte ≤ 70) || (97 ≤ byte && byte ≤ 102)

/-- `str::bytes`. -/
def utf8Bytes (text : Text) : List UInt8 := text.flatMap String.utf8EncodeChar

section Characters

theorem isHexDigit_iff {char : Char} : isHexDigit char = true ↔ char ∈ hexDigits := by
  constructor
  · intro digit
    have back : Char.ofNat char.toNat = char := Char.ofNat_toNat char
    have listed : ∀ code, (48 ≤ code ∧ code ≤ 57 ∨ 65 ≤ code ∧ code ≤ 70) ∨
        97 ≤ code ∧ code ≤ 102 → Char.ofNat code ∈ hexDigits := by
      intro code within
      have small : code < 103 := by omega
      revert within
      revert code
      decide
    rw [← back]
    apply listed
    simpa [isHexDigit] using digit
  · have checked : hexDigits.all isHexDigit = true := by decide
    exact List.all_eq_true.mp checked char

theorem hexDigits_spec : ∀ char ∈ hexDigits, hexValue char < 16 ∧
    hexDigit (hexValue char) = char.toLower ∧ char.utf8Size = 1 ∧ char ≠ ':' := by
  have checked : (hexDigits.all fun char => decide (hexValue char < 16 ∧
    hexDigit (hexValue char) = char.toLower ∧ char.utf8Size = 1 ∧ char ≠ ':')) = true := by decide
  exact fun char member => of_decide_eq_true (List.all_eq_true.mp checked char member)

theorem length_utf8Bytes (text : Text) : (utf8Bytes text).length = utf8Length text := by
  simp [utf8Bytes, utf8Length, List.length_flatMap]

/-- A byte is a hexadecimal digit when its number is one. -/
private theorem isHexByte_ofNat {code : Nat} (small : code < 256) :
    isHexByte (UInt8.ofNat code) =
      ((48 ≤ code && code ≤ 57) || (65 ≤ code && code ≤ 70) || (97 ≤ code && code ≤ 102)) := by
  have value : (UInt8.ofNat code).toNat = code := by simp; omega
  simp only [isHexByte, UInt8.le_iff_toNat_le, value]
  rfl

private theorem all_isHexByte_char (char : Char) :
    (String.utf8EncodeChar char).all isHexByte = isHexDigit char := by
  have code : char.toNat = char.val.toNat := rfl
  -- every byte of a longer encoding has its top bit set, the first one included
  have upper : ∀ byte, 128 ≤ byte → byte < 256 → isHexByte (UInt8.ofNat byte) = false := by
    intro byte high small
    rw [isHexByte_ofNat small]
    simp
    omega
  fun_cases String.utf8EncodeChar char with
  | case1 value ascii =>
      simp only [List.all_cons, List.all_nil, Bool.and_true]
      rw [isHexByte_ofNat (by omega), isHexDigit, code]
  | case2 value wide =>
      simp only [List.all_cons, upper (value / 64 % 32 + 192) (by omega) (by omega)]
      simp [isHexDigit]
      omega
  | case3 value wide wider =>
      simp only [List.all_cons, upper (value / 4096 % 16 + 224) (by omega) (by omega)]
      simp [isHexDigit]
      omega
  | case4 value wide wider widest =>
      simp only [List.all_cons, upper (value / 262144 % 8 + 240) (by omega) (by omega)]
      simp [isHexDigit]
      omega

/-- A character outside ASCII is written with bytes that are no digits, so the
test on the bytes is the test on the characters. -/
theorem all_isHexByte (text : Text) : (utf8Bytes text).all isHexByte = text.all isHexDigit := by
  simp [utf8Bytes, List.all_flatMap, all_isHexByte_char]

/-- What the loop asks of a group leaves the pairs of digits. -/
theorem isOctetText_iff {group : Text} :
    IsOctetText group ↔ utf8Length group = 2 ∧ group.all isHexDigit = true := by
  constructor
  · intro facts
    obtain ⟨high, highHex, low, lowHex, written⟩ := facts
    subst written
    obtain ⟨-, -, highSize, -⟩ := hexDigits_spec high highHex
    obtain ⟨-, -, lowSize, -⟩ := hexDigits_spec low lowHex
    simp [utf8Length, highSize, lowSize, isHexDigit_iff.mpr highHex, isHexDigit_iff.mpr lowHex]
  · intro facts
    obtain ⟨length, digits⟩ := facts
    have hex : ∀ char ∈ group, char ∈ hexDigits := fun char member =>
      isHexDigit_iff.mp (List.all_eq_true.mp digits char member)
    have sizes : utf8Length group = group.length := by
      have ones : group.map Char.utf8Size = group.map fun _ => 1 :=
        List.map_congr_left fun char member => (hexDigits_spec char (hex char member)).2.2.1
      simp [utf8Length, ones]
    rw [sizes] at length
    obtain ⟨high, low, written⟩ := List.length_eq_two.mp length
    subst written
    exact ⟨high, hex high (by simp), low, hex low (by simp), rfl⟩

/-- The same test as the source makes it, on the bytes of the group. -/
theorem isOctetText_bytes {group : Text} :
    IsOctetText group ↔ (utf8Bytes group).length = 2 ∧ (utf8Bytes group).all isHexByte = true := by
  rw [length_utf8Bytes, all_isHexByte, isOctetText_iff]

end Characters

section Groups

/-- `u8::from_str_radix` on a group. -/
def octetOf (group : Text) : UInt8 :=
  UInt8.ofNat (group.foldl (fun value char => value * 16 + hexValue char) 0)

theorem hexOctet_octetOf {group : Text} (octet : IsOctetText group) :
    hexOctet (octetOf group) = group.map Char.toLower := by
  obtain ⟨high, highHex, low, lowHex, rfl⟩ := octet
  obtain ⟨highSmall, highBack, -⟩ := hexDigits_spec high highHex
  obtain ⟨lowSmall, lowBack, -⟩ := hexDigits_spec low lowHex
  have value : (octetOf [high, low]).toNat = hexValue high * 16 + hexValue low := by
    simp [octetOf]
    omega
  have upper : (hexValue high * 16 + hexValue low) / 16 = hexValue high := by omega
  have lower : (hexValue high * 16 + hexValue low) % 16 = hexValue low := by omega
  rw [hexOctet, value, upper, lower, highBack, lowBack]
  rfl

/-- The loop takes a list of groups when it fits the room left and holds pairs
of digits only, and hands back one octet a group. -/
theorem parseOctets_eq_some {groups : List Text} {out octets : List UInt8}
    (room : out.length ≤ 6) :
    parseOctets groups out = some octets ↔ out.length + groups.length ≤ 6 ∧
      (∀ group ∈ groups, IsOctetText group) ∧ octets = out ++ groups.map octetOf := by
  induction groups generalizing out with
  | nil => simp [parseOctets, room, eq_comm]
  | cons group rest ih =>
      rw [parseOctets]
      split
      next refused =>
        suffices ¬ (out.length + (group :: rest).length ≤ 6 ∧
            ∀ other ∈ group :: rest, IsOctetText other) by grind
        intro facts
        obtain ⟨fits, octet⟩ := facts
        obtain ⟨length, digits⟩ := isOctetText_iff.mp (octet group (by simp))
        simp only [List.length_cons] at fits
        have full : out.length ≠ 6 := by omega
        simp [full, length, digits] at refused
      next taken =>
        simp only [not_or, not_not] at taken
        obtain ⟨more, length, digits⟩ := taken
        have octet := isOctetText_iff.mpr ⟨length, digits⟩
        rw [show UInt8.ofNat _ = octetOf group from rfl, ih (by simp; omega)]
        simp [octet, Nat.add_assoc, Nat.add_comm 1]

private theorem map_intercalate (groups : List Text) :
    ([':'].intercalate groups).map Char.toLower =
      [':'].intercalate (groups.map (List.map Char.toLower)) := by
  induction groups with
  | nil => rfl
  | cons group rest ih =>
      cases rest with
      | nil => simp
      | cons next rest =>
          rw [List.intercalate_cons_cons, List.map_cons, List.map_cons, List.intercalate_cons_cons,
            List.map_append, List.map_append, ih]
          rfl

theorem splitOn_address {groups : List Text} (six : groups.length = 6)
    (octets : ∀ group ∈ groups, IsOctetText group) :
    ([':'].intercalate groups).splitOn ':' = groups := by
  apply List.splitOn_intercalate
  · intro group member colon
    obtain ⟨high, highHex, low, lowHex, written⟩ := octets group member
    obtain ⟨-, -, -, highApart⟩ := hexDigits_spec high highHex
    obtain ⟨-, -, -, lowApart⟩ := hexDigits_spec low lowHex
    simp [written, highApart.symm, lowApart.symm] at colon
  · intro empty
    simp [empty] at six

end Groups

/-- The parser reads an address out of the groups of the text, and of no
other text. -/
theorem parseMac_eq_some {text : Text} {mac : Mac} :
    parseMac text = some mac ↔ ∃ groups : List Text, groups.length = 6 ∧
      (∀ group ∈ groups, IsOctetText group) ∧ text = [':'].intercalate groups ∧
      mac.octets = groups.map octetOf := by
  constructor
  · intro parsed
    rw [parseMac] at parsed
    split at parsed
    next a b c d e f read =>
      obtain ⟨-, octets, values⟩ := (parseOctets_eq_some (by simp)).mp read
      refine ⟨text.splitOn ':', ?_, octets, (List.intercalate_splitOn ':').symm, ?_⟩
      · have lengths := congrArg List.length values
        simpa using lengths.symm
      · cases parsed
        exact values
    next => cases parsed
  · intro facts
    obtain ⟨groups, six, octets, written, values⟩ := facts
    have read : parseOctets groups [] = some mac.octets :=
      (parseOctets_eq_some (by simp)).mpr ⟨by simp [six], octets, values⟩
    rw [parseMac, written, splitOn_address six octets, read]
    rfl

/-- `parse_mac` accepts exactly the written addresses, its result is written
back in lower case, and it takes back every address `format_mac` writes. -/
theorem parseMac_exact :
    (∀ text, ((parseMac text).isSome ↔ IsAddress text) ∧
      ∀ mac, parseMac text = some mac → formatMac mac = text.map Char.toLower) ∧
    ∀ mac, parseMac (formatMac mac) = some mac := by
  refine ⟨fun text => ⟨?_, ?_⟩, parseMac_formatMac⟩
  · constructor
    · intro accepted
      obtain ⟨mac, parsed⟩ := Option.isSome_iff_exists.mp accepted
      obtain ⟨groups, six, octets, written, -⟩ := parseMac_eq_some.mp parsed
      exact ⟨groups, six, octets, written⟩
    · intro ⟨groups, six, octets, written⟩
      match groups, six with
      | [a, b, c, d, e, f], six =>
        have parsed := parseMac_eq_some.mpr ⟨_, six, octets, written,
          (rfl : Mac.octets ⟨octetOf a, octetOf b, octetOf c, octetOf d, octetOf e, octetOf f⟩ = _)⟩
        simp [parsed]
  · intro mac parsed
    obtain ⟨groups, six, octets, written, values⟩ := parseMac_eq_some.mp parsed
    rw [formatMac, values, written, map_intercalate, List.map_map]
    congr 1
    apply List.map_congr_left
    intro group member
    exact hexOctet_octetOf (octets group member)

end SriovMacSync.Data
