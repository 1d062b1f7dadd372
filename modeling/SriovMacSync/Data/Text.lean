import Mathlib.Data.List.Basic

namespace SriovMacSync.Data

/-! Text as the state directory holds it: sequences of Unicode characters, with
the splitting and number rules of the standard library functions the source
calls on them. -/

abbrev Text := List Char

/-- The characters of Unicode's `White_Space` property. -/
def isWhitespace (char : Char) : Bool :=
  let code := char.toNat
  (9 ≤ code && code ≤ 13) || code == 32 || code == 0x85 || code == 0xA0 || code == 0x1680 ||
    (0x2000 ≤ code && code ≤ 0x200A) || code == 0x2028 || code == 0x2029 || code == 0x202F ||
    code == 0x205F || code == 0x3000

/-- The non-empty fields of a line, as `str::split_whitespace` yields them. -/
def splitWhitespace (text : Text) : List Text :=
  (text.splitOnP isWhitespace).filter (· ≠ [])

/-- The lines of a file, as `str::lines` yields them: a final newline opens no
further line, and a carriage return before a newline is dropped. -/
def lines (text : Text) : List Text :=
  let pieces := text.splitOn '\n'
  let pieces := if pieces.getLast? = some [] then pieces.dropLast else pieces
  pieces.map fun line => if line.getLast? = some '\r' then line.dropLast else line

def joinLines (lines : List Text) : Text :=
  ['\n'].intercalate lines ++ ['\n']

def decimal (number : Nat) : Text := Nat.toDigits 10 number

/-- An unsigned number as `str::parse` accepts it: an optional plus sign and at
least one decimal digit, nothing else. -/
def parseDecimal (text : Text) : Option Nat :=
  let digits := if text.head? = some '+' then text.tail else text
  if digits ≠ [] ∧ digits.all Char.isDigit then some (Nat.ofDigitChars 10 digits 0) else none

/-- Text that survives as one field of a line. -/
def IsField (text : Text) : Prop := text ≠ [] ∧ ∀ char ∈ text, isWhitespace char = false

instance (text : Text) : Decidable (IsField text) :=
  decidable_of_iff (text ≠ [] ∧ text.all (!isWhitespace ·) = true) (by simp [IsField])

theorem decimal_ne_nil (number : Nat) : decimal number ≠ [] := Nat.toDigits_ne_nil

theorem decimal_isDigit {number : Nat} {char : Char} (member : char ∈ decimal number) :
    char.isDigit = true :=
  Nat.isDigit_of_mem_toDigits (by decide) (by decide) member

private theorem isDigit_code {char : Char} (digit : char.isDigit = true) :
    48 ≤ char.toNat ∧ char.toNat ≤ 57 := by
  simpa [Char.isDigit, UInt32.le_iff_toNat_le] using digit

theorem isWhitespace_of_isDigit {char : Char} (digit : char.isDigit = true) :
    isWhitespace char = false := by
  have bounds := isDigit_code digit
  have outside : ∀ code, (code < 48 ∨ 57 < code) → ¬ char.toNat = code := by
    intro code apart
    omega
  simp only [isWhitespace, Bool.or_eq_false_iff, Bool.and_eq_false_iff, beq_eq_false_iff_ne, ne_eq,
    decide_eq_false_iff_not]
  refine ⟨⟨⟨⟨⟨⟨⟨⟨⟨⟨?_, ?_⟩, ?_⟩, ?_⟩, ?_⟩, ?_⟩, ?_⟩, ?_⟩, ?_⟩, ?_⟩, ?_⟩ <;>
    first
      | exact outside _ (by decide)
      | omega

theorem isField_decimal (number : Nat) : IsField (decimal number) :=
  ⟨decimal_ne_nil number, fun _ member => isWhitespace_of_isDigit (decimal_isDigit member)⟩

theorem parseDecimal_decimal (number : Nat) : parseDecimal (decimal number) = some number := by
  have unsigned : (decimal number).head? ≠ some '+' := by
    intro signed
    have digit := decimal_isDigit (List.mem_of_mem_head? signed)
    exact absurd digit (by decide)
  have digits : (decimal number).all Char.isDigit = true :=
    List.all_eq_true.mpr fun _ member => decimal_isDigit member
  simp only [parseDecimal, if_neg unsigned, digits, decimal_ne_nil, ne_eq, not_false_eq_true,
    and_self, if_true]
  exact congrArg some (Nat.ofDigitChars_toDigits (by decide) (by decide))

/-- Fields joined by single blanks come back out of the line they make. -/
theorem splitWhitespace_intercalate {fields : List Text} (nonempty : fields ≠ [])
    (valid : ∀ field ∈ fields, IsField field) :
    splitWhitespace ([' '].intercalate fields) = fields := by
  have pieces : ([' '].intercalate fields).splitOnP isWhitespace = fields := by
    induction fields with
    | nil => exact absurd rfl nonempty
    | cons field rest ih =>
        have plain := (valid field (by simp)).2
        cases rest with
        | nil =>
            simpa using List.splitOnP_eq_singleton (by simpa using plain)
        | cons next rest =>
            have tail := ih (by simp) fun other member => valid other (by simp [member])
            rw [List.intercalate_cons_cons, List.append_assoc, List.singleton_append,
              List.splitOnP_append_cons_of_forall_mem plain _ (by decide), tail]
  rw [splitWhitespace, pieces, List.filter_eq_self]
  intro field member
  simpa using (valid field member).1

/-- A line that `lines` hands back as it was written. -/
def IsLine (text : Text) : Prop := '\n' ∉ text ∧ text.getLast? ≠ some '\r'

private theorem intercalate_concat_nil (written : List Text) (nonempty : written ≠ []) :
    ['\n'].intercalate (written ++ [[]]) = ['\n'].intercalate written ++ ['\n'] := by
  induction written with
  | nil => exact absurd rfl nonempty
  | cons line rest ih =>
      cases rest with
      | nil => simp
      | cons next rest =>
          have tail := ih (by simp)
          rw [List.cons_append] at tail
          rw [List.cons_append, List.cons_append, List.intercalate_cons_cons, tail,
            List.intercalate_cons_cons]
          simp only [List.append_assoc]

/-- A line as `lines` hands it on. -/
def withoutReturn (line : Text) : Text := if line.getLast? = some '\r' then line.dropLast else line

theorem lines_joinLines_plain {written : List Text} (nonempty : written ≠ [])
    (plain : ∀ line ∈ written, '\n' ∉ line) :
    lines (joinLines written) = written.map withoutReturn := by
  have pieces : (joinLines written).splitOn '\n' = written ++ [[]] := by
    rw [joinLines, ← intercalate_concat_nil written nonempty]
    refine List.splitOn_intercalate _ ?_ (by simp)
    intro line member
    rcases List.mem_append.mp member with member | member
    · exact plain line member
    · rw [List.mem_singleton.mp member]
      exact List.not_mem_nil
  simp only [lines, pieces, List.getLast?_append, List.getLast?_singleton, Option.some_or, if_true,
    List.dropLast_concat]
  rfl

theorem lines_joinLines {written : List Text} (nonempty : written ≠ [])
    (valid : ∀ line ∈ written, IsLine line) : lines (joinLines written) = written := by
  have kept : ∀ line ∈ written, withoutReturn line = line := fun line member =>
    if_neg (valid line member).2
  rw [lines_joinLines_plain nonempty fun line member => (valid line member).1]
  exact (List.map_congr_left kept).trans (List.map_id written)

end SriovMacSync.Data
