import Mathlib.Data.Finset.Basic
import Mathlib.Data.Finset.Dedup
import Mathlib.Data.Finset.Lattice.Lemmas
import Mathlib.Data.List.DropRight
import SriovMacSync.Data.Mac

namespace SriovMacSync.Cache

open Data

/-! # The text of a note

One address to a line, in any order.  A writer that works in place adds lines at
the end, so a write that stopped leaves a last line that no newline ends; the
next writer cuts that line back before it adds its own. -/

/-- A text without the blanks around it, as `str::trim` leaves it. -/
def trim (text : Text) : Text := (text.dropWhile isWhitespace).rdropWhile isWhitespace

/-- The addresses a note names.  A line that is no address names nobody. -/
def noteSet (text : Text) : Finset Mac :=
  ((lines text).filterMap fun line => parseMac (trim line)).toFinset

/-- The lines an append writes. -/
def noteLines (macs : List Mac) : Text := (macs.map fun mac => formatMac mac ++ ['\n']).flatten

/-- A text up to its last newline. -/
def finished (text : Text) : Text := text.rdropWhile (· != '\n')

/-- What stands behind the last newline. -/
def lastLine (text : Text) : Text := text.rtakeWhile (· != '\n')

/-- The length of an address line without its newline. -/
def addressLength : Nat := 17

section Lines

theorem finished_append_lastLine (text : Text) : finished text ++ lastLine text = text :=
  List.rdropWhile_append_rtakeWhile

theorem newline_notMem_lastLine (text : Text) : '\n' ∉ lastLine text := by
  intro member
  simpa using List.mem_rtakeWhile_imp member

theorem finished_isPrefix (text : Text) : finished text <+: text := by
  exact List.rdropWhile_prefix _ _

theorem finished_of_notMem {text : Text} (plain : '\n' ∉ text) : finished text = [] := by
  rw [finished, List.rdropWhile_eq_nil_iff]
  intro char member
  simpa using fun same : char = '\n' => plain (same ▸ member)

theorem finished_append (text more : Text) :
    finished (text ++ more) = if '\n' ∈ more then text ++ finished more else finished text := by
  induction more using List.reverseRecOn with
  | nil => simp
  | append_singleton more char ih =>
      rw [← List.append_assoc]
      by_cases newline : char = '\n'
      · subst newline
        simp [finished, List.rdropWhile_concat_neg]
      · have apart : (char != '\n') = true := by simpa using newline
        have member : '\n' ∈ more ++ [char] ↔ '\n' ∈ more := by simp [Ne.symm newline]
        simp only [member]
        rw [finished, finished, List.rdropWhile_concat_pos (· != '\n') _ char apart,
          List.rdropWhile_concat_pos (· != '\n') _ char apart]
        exact ih

theorem lines_append_newline (text more : Text) :
    lines (text ++ '\n' :: more) = lines (text ++ ['\n']) ++ lines more := by
  have last : ([] : Text).splitOn '\n' = [[]] := by simp
  simp only [lines, List.splitOn_append_cons_self, last]
  rw [List.getLast?_append_of_ne_nil _ (List.splitOn_ne_nil _ _)]
  simp only [List.getLast?_append, List.getLast?_singleton, Option.some_or, if_true,
    List.dropLast_concat]
  split
  · rw [List.dropLast_append_of_ne_nil (List.splitOn_ne_nil _ _), List.map_append]
  · rw [List.map_append]

theorem finished_eq_self {text : Text} (ends : finished text = text) (nonempty : text ≠ []) :
    ∃ front, text = front ++ ['\n'] := by
  induction text using List.reverseRecOn with
  | nil => exact absurd rfl nonempty
  | append_singleton front char =>
      by_cases newline : char = '\n'
      · exact ⟨front, by rw [newline]⟩
      · have shorter := congrArg List.length ends
        have apart : (char != '\n') = true := by simpa using newline
        rw [finished, List.rdropWhile_concat_pos (· != '\n') _ char apart] at shorter
        have below := (finished_isPrefix front).length_le
        rw [finished] at below
        rw [List.length_append, List.length_singleton] at shorter
        omega

/-- What is added behind a newline is read on its own. -/
theorem noteSet_append {text : Text} (ends : finished text = text) (more : Text) :
    noteSet (text ++ more) = noteSet text ∪ noteSet more := by
  by_cases empty : text = []
  · subst empty
    simp [noteSet, lines]
  · obtain ⟨front, rfl⟩ := finished_eq_self ends empty
    rw [List.append_assoc, List.singleton_append]
    ext mac
    rw [noteSet, lines_append_newline, List.filterMap_append]
    simp only [noteSet, List.mem_toFinset, List.mem_append, Finset.mem_union]

end Lines

section Length

@[simp] theorem utf8Length_nil : utf8Length [] = 0 := rfl

@[simp] theorem utf8Length_append (text more : Text) :
    utf8Length (text ++ more) = utf8Length text + utf8Length more := by
  simp [utf8Length]

theorem eq_nil_of_utf8Length {text : Text} (nothing : utf8Length text = 0) : text = [] := by
  cases text with
  | nil => rfl
  | cons char rest =>
      have positive := Char.utf8Size_pos char
      simp only [utf8Length, List.map_cons, List.sum_cons] at nothing
      omega

theorem utf8Length_le_of_isPrefix {text more : Text} (front : text <+: more) :
    utf8Length text ≤ utf8Length more := by
  obtain ⟨rest, rfl⟩ := front
  simp

theorem utf8Length_le_of_suffix {text more : Text} (back : text <:+ more) :
    utf8Length text ≤ utf8Length more := by
  obtain ⟨rest, rfl⟩ := back
  simp

theorem utf8Length_trim_le (text : Text) : utf8Length (trim text) ≤ utf8Length text :=
  (utf8Length_le_of_isPrefix (List.rdropWhile_prefix _ _)).trans
    (utf8Length_le_of_suffix (List.dropWhile_suffix _))

/-- Every group an address is read from is two bytes long, and none is left out. -/
theorem parseOctets_groups {parts : List Text} {out octets : List UInt8}
    (read : parseOctets parts out = some octets) :
    (∀ part ∈ parts, utf8Length part = 2) ∧ octets.length = out.length + parts.length := by
  induction parts generalizing out with
  | nil =>
      cases read
      simp
  | cons part rest ih =>
      rw [parseOctets] at read
      split at read
      · cases read
      · rename_i valid
        obtain ⟨sizes, count⟩ := ih read
        simp only [not_or, not_not] at valid
        refine ⟨?_, by simp at count ⊢; omega⟩
        intro other member
        rcases List.mem_cons.mp member with rfl | member
        · exact valid.2.1
        · exact sizes other member

theorem utf8Length_intercalate {parts : List Text} (sizes : ∀ part ∈ parts, utf8Length part = 2)
    (nonempty : parts ≠ []) :
    utf8Length ([':'].intercalate parts) + 1 = 3 * parts.length := by
  induction parts with
  | nil => exact absurd rfl nonempty
  | cons part rest ih =>
      have size := sizes part (by simp)
      cases rest with
      | nil => simp [size]
      | cons next rest =>
          have tail := ih (fun other member => sizes other (by simp [member])) (by simp)
          have colon : utf8Length [':'] = 1 := rfl
          rw [List.intercalate_cons_cons, utf8Length_append, utf8Length_append, size, colon]
          simp only [List.length_cons] at tail ⊢
          omega

/-- Whatever reads as an address is as long as an address. -/
theorem utf8Length_of_parseMac {text : Text} {mac : Mac} (read : parseMac text = some mac) :
    utf8Length text = addressLength := by
  rw [parseMac] at read
  split at read
  · rename_i octets
    obtain ⟨sizes, count⟩ := parseOctets_groups octets
    have whole := utf8Length_intercalate sizes (List.splitOn_ne_nil _ _)
    rw [List.intercalate_splitOn] at whole
    simp only [List.length_cons, List.length_nil] at count
    rw [addressLength]
    omega
  · cases read

end Length

section Addresses

/-- A line too short for an address names nobody. -/
theorem noteSet_short {text : Text} (plain : '\n' ∉ text)
    (short : utf8Length text < addressLength) : noteSet text = ∅ := by
  have single : text.splitOn '\n' = [text] := List.splitOn_eq_singleton plain
  rw [noteSet, List.toFinset_eq_empty_iff, List.filterMap_eq_nil_iff]
  intro line member
  have within : utf8Length line ≤ utf8Length text := by
    simp only [lines, single, List.getLast?_singleton] at member
    split at member
    · simp at member
    · rw [List.map_singleton, List.mem_singleton] at member
      rw [member]
      split
      · exact utf8Length_le_of_isPrefix (List.dropLast_prefix _)
      · exact le_rfl
  by_contra named
  obtain ⟨mac, read⟩ := Option.ne_none_iff_exists'.mp named
  have size := utf8Length_of_parseMac read
  have trimmed := utf8Length_trim_le line
  omega

theorem newline_notMem_formatMac (mac : Mac) : '\n' ∉ formatMac mac := by
  intro member
  exact absurd ((isField_formatMac mac).2 _ member) (by decide)

theorem trim_formatMac (mac : Mac) : trim (formatMac mac) = formatMac mac := by
  have plain := (isField_formatMac mac).2
  have front : (formatMac mac).dropWhile isWhitespace = formatMac mac := by
    rw [List.dropWhile_eq_self_iff]
    intro nonempty
    rw [plain _ (List.getElem_mem _)]
    decide
  rw [trim, front, List.rdropWhile_eq_self_iff]
  intro nonempty
  rw [plain _ (List.getLast_mem _)]
  decide

theorem noteSet_line (mac : Mac) : noteSet (formatMac mac ++ ['\n']) = {mac} := by
  have line : IsLine (formatMac mac) := by
    refine ⟨newline_notMem_formatMac mac, ?_⟩
    intro last
    exact absurd ((isField_formatMac mac).2 _ (List.mem_of_getLast? last)) (by decide)
  have read : lines (joinLines [formatMac mac]) = [formatMac mac] :=
    lines_joinLines (by simp) (by simpa using line)
  rw [joinLines, List.intercalate_singleton] at read
  rw [noteSet, read]
  simp [trim_formatMac, parseMac_formatMac]

theorem noteLines_cons (mac : Mac) (macs : List Mac) :
    noteLines (mac :: macs) = (formatMac mac ++ ['\n']) ++ noteLines macs := by
  simp [noteLines]

theorem noteLines_append (macs more : List Mac) :
    noteLines (macs ++ more) = noteLines macs ++ noteLines more := by
  simp [noteLines]

theorem finished_line (mac : Mac) : finished (formatMac mac ++ ['\n']) = formatMac mac ++ ['\n'] := by
  simp [finished]

theorem finished_noteLines (macs : List Mac) : finished (noteLines macs) = noteLines macs := by
  induction macs with
  | nil => rfl
  | cons mac macs ih =>
      rw [noteLines_cons, finished_append, ih, finished_line]
      split <;> rename_i newline
      · rfl
      · rw [← ih, finished_of_notMem newline, List.append_nil]

/-- The lines an append writes read as the addresses it was given. -/
theorem noteSet_noteLines (macs : List Mac) : noteSet (noteLines macs) = macs.toFinset := by
  induction macs with
  | nil => rfl
  | cons mac macs ih =>
      rw [noteLines_cons, noteSet_append (finished_line mac), noteSet_line, ih,
        List.toFinset_cons, Finset.insert_eq]

end Addresses

section Succession

/-- `Succeeds earlier text`: a file that read `earlier` may since have come to read
`text`, if nobody cut back an unfinished line as long as an address: either text was
added, or a short last line was cut back and whole lines, if any, took its place. -/
def Succeeds (earlier text : Text) : Prop :=
  earlier <+: text ∨
    utf8Length (lastLine earlier) < addressLength ∧ finished earlier <+: finished text ∧
      (finished text = finished earlier ∨
        utf8Length (finished earlier) + addressLength < utf8Length (finished text))

theorem Succeeds.refl (text : Text) : Succeeds text text := .inl (List.prefix_refl text)

theorem lastLine_append_finished {base tail : Text} (ends : finished base = base)
    (plain : '\n' ∉ tail) : finished (base ++ tail) = base ∧ lastLine (base ++ tail) = tail := by
  have front : finished (base ++ tail) = base := by rw [finished_append, if_neg plain, ends]
  have whole := finished_append_lastLine (base ++ tail)
  rw [front] at whole
  exact ⟨front, List.append_cancel_left whole⟩

theorem finished_finished (text : Text) : finished (finished text) = finished text :=
  List.rdropWhile_idempotent _ _

theorem finished_isPrefix_finished {text more : Text} (front : text <+: more) :
    finished text <+: finished more := by
  obtain ⟨rest, rfl⟩ := front
  rw [finished_append]
  split
  · exact (finished_isPrefix text).trans (List.prefix_append _ _)
  · exact List.prefix_refl _

theorem Succeeds.kept {earlier text : Text} (later : Succeeds earlier text) :
    finished earlier <+: finished text :=
  later.elim finished_isPrefix_finished fun cut => cut.2.1

/-- Cutting back a short last line. -/
theorem Succeeds.cut {earlier text : Text} (later : Succeeds earlier text)
    (short : utf8Length (lastLine text) < addressLength) : Succeeds earlier (finished text) := by
  rcases later with front | ⟨short, front, size⟩
  · rcases List.prefix_or_prefix_of_prefix front (finished_isPrefix text) with front' | back
    · exact .inl front'
    · obtain ⟨tail, rfl⟩ := back
      have front : tail <+: lastLine text := by
        rw [← List.prefix_append_right_inj (finished text), finished_append_lastLine]
        exact front
      have plain : '\n' ∉ tail := fun member =>
        newline_notMem_lastLine text (front.subset member)
      obtain ⟨whole, last⟩ := lastLine_append_finished (finished_finished text) plain
      refine .inr ⟨?_, ?_, .inl ?_⟩
      · rw [last]
        have := utf8Length_le_of_isPrefix front
        omega
      · rw [whole, finished_finished]
      · rw [whole, finished_finished]
  · exact .inr ⟨short, by rwa [finished_finished], by rwa [finished_finished]⟩

theorem utf8Length_formatMac (mac : Mac) : utf8Length (formatMac mac) = addressLength :=
  utf8Length_of_parseMac (parseMac_formatMac mac)

theorem finished_of_append {base text : Text} (ends : finished base = base)
    (whole : finished (base ++ text) = base ++ text) : finished text = text := by
  rw [finished_append] at whole
  split at whole
  · exact List.append_cancel_left whole
  · rename_i plain
    rw [ends, List.self_eq_append_right] at whole
    rw [whole]
    rfl

/-- Whole address lines come in one length. -/
theorem utf8Length_whole_lines {text : Text} {macs : List Mac} (front : text <+: noteLines macs)
    (whole : finished text = text) : ∃ count, utf8Length text = count * (addressLength + 1) := by
  induction macs generalizing text with
  | nil => exact ⟨0, by rw [List.prefix_nil.mp front]; rfl⟩
  | cons mac macs ih =>
      rw [noteLines_cons] at front
      rcases List.prefix_or_prefix_of_prefix front (List.prefix_append _ _) with short | long
      · rcases List.prefix_concat_iff.mp short with rfl | within
        · exact ⟨1, by rw [utf8Length_append, utf8Length_formatMac]; rfl⟩
        · have plain : '\n' ∉ text := fun member =>
            newline_notMem_formatMac mac (within.subset member)
          exact ⟨0, by rw [← whole, finished_of_notMem plain]; simp⟩
      · obtain ⟨rest, rfl⟩ := long
        rw [List.prefix_append_right_inj] at front
        obtain ⟨count, size⟩ := ih front (finished_of_append (finished_line mac) whole)
        refine ⟨count + 1, ?_⟩
        rw [utf8Length_append, utf8Length_append, utf8Length_formatMac, size]
        have newline : utf8Length ['\n'] = 1 := rfl
        rw [newline, Nat.add_mul]
        omega

/-- The text is being added to: what stands behind `base` is the beginning of the
lines an append writes. -/
def Adds (text more : Text) : Prop :=
  ∃ base macs, finished base = base ∧ base <+: text ∧ text <+: more ∧ more <+: base ++ noteLines macs

theorem Adds.line {text more : Text} (adds : Adds text more)
    (longer : finished text ≠ finished more) :
    utf8Length (finished text) + addressLength < utf8Length (finished more) := by
  obtain ⟨base, macs, ends, started, front, within⟩ := adds
  have startedText : base <+: finished text := ends ▸ finished_isPrefix_finished started
  obtain ⟨written, splitText⟩ := startedText
  obtain ⟨further, splitMore⟩ := finished_isPrefix_finished front
  have wholeText : finished written = written :=
    finished_of_append ends (by rw [splitText, finished_finished])
  have wholeMore : finished (written ++ further) = written ++ further :=
    finished_of_append ends (by rw [← List.append_assoc, splitText, splitMore, finished_finished])
  have within : written ++ further <+: noteLines macs := by
    rw [← List.prefix_append_right_inj base, ← List.append_assoc, splitText, splitMore]
    exact (finished_isPrefix more).trans within
  obtain ⟨count, size⟩ :=
    utf8Length_whole_lines ((List.prefix_append written further).trans within) wholeText
  obtain ⟨count', size'⟩ := utf8Length_whole_lines within wholeMore
  have positive : utf8Length further ≠ 0 := by
    intro nothing
    rw [eq_nil_of_utf8Length nothing, List.append_nil] at splitMore
    exact longer splitMore
  rw [← splitMore, utf8Length_append, ← splitText, utf8Length_append]
  rw [utf8Length_append, size] at size'
  have more : count < count' := by
    by_contra fewer
    have := Nat.mul_le_mul_right (addressLength + 1) (Nat.le_of_not_lt fewer)
    omega
  have := Nat.mul_le_mul_right (addressLength + 1) (Nat.succ_le_of_lt more)
  rw [Nat.succ_mul] at this
  omega

/-- Adding lines, or a part of one. -/
theorem Succeeds.adds {earlier text more : Text} (later : Succeeds earlier text)
    (adds : Adds text more) : Succeeds earlier more := by
  have front : text <+: more := adds.choose_spec.choose_spec.2.2.1
  rcases later with within | ⟨short, kept, same | longer⟩
  · exact .inl (within.trans front)
  · refine .inr ⟨short, kept.trans (finished_isPrefix_finished front), ?_⟩
    by_cases still : finished text = finished more
    · exact .inl (by rw [← still, same])
    · exact .inr (by rw [← same]; exact adds.line still)
  · refine .inr ⟨short, kept.trans (finished_isPrefix_finished front), .inr ?_⟩
    have := utf8Length_le_of_isPrefix (finished_isPrefix_finished front)
    omega

theorem lastLine_isPrefix {text more : Text} (front : text <+: more)
    (same : finished text = finished more) : lastLine text <+: lastLine more := by
  rw [← finished_append_lastLine text, ← finished_append_lastLine more, same,
    List.prefix_append_right_inj] at front
  exact front

theorem noteSet_of_short {text : Text} (short : utf8Length (lastLine text) < addressLength) :
    noteSet text = noteSet (finished text) := by
  conv_lhs => rw [← finished_append_lastLine text]
  rw [noteSet_append (finished_finished text),
    noteSet_short (newline_notMem_lastLine text) short, Finset.union_empty]

/-- A text read between two looks that found the file equally long names what the
file named at the second. -/
theorem noteSet_eq_of_steady {before text after : Text} (first : Succeeds before text)
    (second : Succeeds text after) (whole : Succeeds before after)
    (size : utf8Length before = utf8Length after) : noteSet text = noteSet after := by
  have sizes (text : Text) :
      utf8Length (finished text) + utf8Length (lastLine text) = utf8Length text := by
    rw [← utf8Length_append, finished_append_lastLine]
  by_cases short : utf8Length (lastLine before) < addressLength
  · -- no newline was added, so nothing in between was longer than an unfinished line
    have ends : finished after = finished before := by
      rcases whole with ⟨rest, rfl⟩ | ⟨-, -, same | longer⟩
      · have nothing : rest = [] := eq_nil_of_utf8Length (by simpa using size)
        rw [nothing, List.append_nil]
      · exact same
      · have := sizes before
        have := sizes after
        omega
    have middle : finished text = finished before := by
      have back := second.kept
      rw [ends] at back
      exact (first.kept.eq_of_length_le back.length_le).symm
    have shortAfter : utf8Length (lastLine after) < addressLength := by
      have := sizes before
      have := sizes after
      rw [ends] at this
      omega
    have shortText : utf8Length (lastLine text) < addressLength := by
      rcases second with front | ⟨short, -⟩
      · have := utf8Length_le_of_isPrefix (lastLine_isPrefix front (by rw [middle, ends]))
        omega
      · exact short
    rw [noteSet_of_short shortText, noteSet_of_short shortAfter, middle, ends]
  · -- a line as long as an address is never cut back
    have grown {text : Text} (later : Succeeds before text) : before <+: text :=
      later.resolve_right fun cut => short cut.1
    obtain ⟨rest, rfl⟩ := grown whole
    have nothing : rest = [] := eq_nil_of_utf8Length (by simpa using size)
    subst nothing
    rw [List.append_nil] at second ⊢
    have front := grown first
    rcases second with back | ⟨short', kept, -⟩
    · rw [front.eq_of_length_le back.length_le]
    · have same := (finished_isPrefix_finished front).eq_of_length_le kept.length_le
      have := utf8Length_le_of_isPrefix (lastLine_isPrefix front same)
      omega

/-- Texts of one length name the same addresses. -/
theorem Succeeds.noteSet_eq {earlier text : Text} (later : Succeeds earlier text)
    (size : utf8Length earlier = utf8Length text) : noteSet earlier = noteSet text :=
  noteSet_eq_of_steady (.refl earlier) later later size

end Succession

end SriovMacSync.Cache
