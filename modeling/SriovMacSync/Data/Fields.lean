import Mathlib.Data.List.DropRight
import SriovMacSync.Data.Text

namespace SriovMacSync.Data

/-! # Words of a line

A text is split at every separator and the empty pieces are dropped, whatever stands
between the words and however much of it. -/

section Splitting

variable {sep : Char → Bool}

def fieldsBy (sep : Char → Bool) (text : Text) : List Text := (text.splitOnP sep).filter (· ≠ [])

/-- Words behind one another, at least one separator between two of them. -/
inductive Spaced (sep : Char → Bool) : List Text → Text → Prop where
  | blank {gap : Text} (empty : ∀ char ∈ gap, sep char = true) : Spaced sep [] gap
  | last {gap word : Text} (empty : ∀ char ∈ gap, sep char = true) (nonempty : word ≠ [])
      (solid : ∀ char ∈ word, sep char = false) : Spaced sep [word] (gap ++ word)
  | more {gap word rest : Text} {words : List Text} {char : Char} (empty : ∀ char ∈ gap, sep char = true)
      (nonempty : word ≠ []) (solid : ∀ char ∈ word, sep char = false) (apart : sep char = true)
      (later : Spaced sep words rest) : Spaced sep (word :: words) (gap ++ word ++ char :: rest)

/-- A separator ends what is before it. -/
theorem fieldsBy_append_cons (text rest : Text) {char : Char} (apart : sep char = true) :
    fieldsBy sep (text ++ char :: rest) = fieldsBy sep text ++ fieldsBy sep rest := by
  rw [fieldsBy, List.splitOnP_append_cons text rest apart, List.filter_append]
  rfl

theorem fieldsBy_nil : fieldsBy sep [] = [] := by simp [fieldsBy, List.splitOnP_nil]

theorem fieldsBy_cons (rest : Text) {char : Char} (apart : sep char = true) :
    fieldsBy sep (char :: rest) = fieldsBy sep rest := by
  have split := fieldsBy_append_cons [] rest apart
  rwa [fieldsBy_nil] at split

theorem fieldsBy_gap {gap : Text} (empty : ∀ char ∈ gap, sep char = true) (rest : Text) :
    fieldsBy sep (gap ++ rest) = fieldsBy sep rest := by
  induction gap with
  | nil => rfl
  | cons char gap ih =>
      rw [List.cons_append, fieldsBy_cons _ (empty char List.mem_cons_self)]
      exact ih fun other member => empty other (List.mem_cons_of_mem _ member)

theorem fieldsBy_word {word : Text} (nonempty : word ≠ []) (solid : ∀ char ∈ word, sep char = false) :
    fieldsBy sep word = [word] := by
  rw [fieldsBy, List.splitOnP_eq_singleton solid]
  simp [nonempty]

theorem fieldsBy_spaced {words : List Text} {text : Text} (spaced : Spaced sep words text) :
    fieldsBy sep text = words := by
  induction spaced with
  | blank empty => simpa [fieldsBy_nil] using fieldsBy_gap empty []
  | last empty nonempty solid => rw [fieldsBy_gap empty, fieldsBy_word nonempty solid]
  | more empty nonempty solid apart later ih =>
      rw [List.append_assoc, fieldsBy_gap empty, fieldsBy_append_cons _ _ apart, fieldsBy_word nonempty solid, ih]
      rfl

end Splitting

section Ends

variable {drop : Char → Bool}

/-- What is dropped around a text stops at a character that is not. -/
theorem dropWhile_append_cons (front rest : Text) {char : Char} (solid : drop char = false) :
    (front ++ char :: rest).dropWhile drop = front.dropWhile drop ++ char :: rest := by
  rw [List.dropWhile_append]
  split
  · rename_i empty
    rw [List.isEmpty_iff.mp empty, List.dropWhile_cons_of_neg (by simp [solid])]
    rfl
  · rfl

theorem rdropWhile_append_cons (front rest : Text) {char : Char} (solid : drop char = false) :
    (front ++ char :: rest).rdropWhile drop = front ++ char :: rest.rdropWhile drop := by
  rw [List.rdropWhile, List.reverse_append, List.reverse_cons, List.append_assoc, List.singleton_append,
    dropWhile_append_cons _ _ solid]
  simp [List.rdropWhile]

theorem rdropWhile_gap {gap : Text} (empty : ∀ char ∈ gap, drop char = true) (front : Text) :
    (front ++ gap).rdropWhile drop = front.rdropWhile drop := by
  rw [List.rdropWhile, List.reverse_append, List.dropWhile_append_of_pos (by simpa using empty)]
  rfl

end Ends

end SriovMacSync.Data
