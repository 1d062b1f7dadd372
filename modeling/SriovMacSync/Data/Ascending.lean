import Mathlib.Data.Finset.Card
import Mathlib.Data.Finset.Dedup
import Mathlib.Data.List.AList
import Mathlib.Data.List.Sort

namespace SriovMacSync.Data

/-! Finite sets and tables, walked in an order of their own. -/

section Ascending

variable {α : Type} [LinearOrder α]

theorem insertionSort_congr {first second : List α} (same : first.Perm second) :
    first.insertionSort (· ≤ ·) = second.insertionSort (· ≤ ·) :=
  ((List.perm_insertionSort (· ≤ ·) first).trans
    (same.trans (List.perm_insertionSort (· ≤ ·) second).symm)).eq_of_pairwise
    (fun _ _ _ _ => le_antisymm)
    (List.pairwise_insertionSort (· ≤ ·) first) (List.pairwise_insertionSort (· ≤ ·) second)

/-- The elements of a set from the smallest to the largest. -/
def ascending (set : Finset α) : List α :=
  Quotient.liftOn set.val (fun list => list.insertionSort (· ≤ ·)) fun _ _ same =>
    insertionSort_congr same

theorem ascending_perm (set : Finset α) : (ascending set : Multiset α) = set.val := by
  obtain ⟨values, distinct⟩ := set
  induction values using Quotient.inductionOn with
  | h list => exact Quotient.sound (List.perm_insertionSort (· ≤ ·) list)

@[simp] theorem mem_ascending {set : Finset α} {value : α} :
    value ∈ ascending set ↔ value ∈ set := by
  rw [← Multiset.mem_coe, ascending_perm, Finset.mem_val]

@[simp] theorem ascending_toFinset [DecidableEq α] (set : Finset α) : (ascending set).toFinset = set := by
  ext value
  simp

theorem nodup_ascending (set : Finset α) : (ascending set).Nodup := by
  rw [← Multiset.coe_nodup, ascending_perm]
  exact set.nodup

@[simp] theorem length_ascending (set : Finset α) : (ascending set).length = set.card := by
  rw [← Multiset.coe_card, ascending_perm, Finset.card_def]

end Ascending

section Tables

variable {Key : Type} {Value : Type} [DecidableEq Key]

/-- Drop the rows whose key is not to be kept. -/
def retain (keep : Key → Bool) (table : AList fun _ : Key => Value) : AList fun _ : Key => Value where
  entries := table.entries.filter fun row => keep row.1
  nodupKeys := List.NodupKeys.sublist List.filter_sublist table.nodupKeys

theorem lookup_retain {keep : Key → Bool} {table : AList fun _ : Key => Value} {key : Key} :
    (retain keep table).lookup key = if keep key then table.lookup key else none := by
  ext value
  rw [← Option.mem_def, AList.mem_lookup_iff, retain, List.mem_filter, ← AList.mem_lookup_iff,
    Option.mem_def]
  by_cases kept : keep key <;> simp [kept]

end Tables

end SriovMacSync.Data
