import Mathlib.Tactic.Linarith
import Mathlib.Data.List.Basic

namespace SriovMacSync.Data

/-! Numbers in byte strings, the least significant byte first. -/

def littleEndian : List UInt8 → Nat
  | [] => 0
  | byte :: rest => byte.toNat + 256 * littleEndian rest

theorem littleEndian_lt (bytes : List UInt8) : littleEndian bytes < 256 ^ bytes.length := by
  induction bytes with
  | nil => simp [littleEndian]
  | cons byte rest ih =>
      have below := byte.toNat_lt
      rw [littleEndian, List.length_cons, pow_succ]
      omega

/-- The number of a given width at an offset. -/
def field (bytes : List UInt8) (offset width : Nat) : Nat :=
  littleEndian ((bytes.drop offset).take width)

/-- The next multiple of four. -/
def align4 (count : Nat) : Nat := (count + 3) / 4 * 4

theorem le_align4 (count : Nat) : count ≤ align4 count := by
  unfold align4
  omega

end SriovMacSync.Data
