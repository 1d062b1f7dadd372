import Mathlib.Data.List.Pairwise

namespace SriovMacSync.Cards

/-! # What the drivers do with an interface's unicast list

The kernel takes any number of addresses; what the card then holds is the driver's
business, and the list read back does not tell.  For a virtual function the physical
function has a say. -/

/-- What happens to addresses past the number the card holds. -/
inductive Past where
  /-- dropped, silently or with a line in the kernel's log -/
  | drops
  | promisc
  | hashes
  /-- there is no unicast filter: promiscuous at the first entry -/
  | promiscFromFirst
  /-- the driver never programs the list on this role -/
  | ignored
deriving DecidableEq, Repr

structure Filter where
  /-- entries the card holds for one interface, where the driver names a number -/
  holds : Option Nat
  past : Past
deriving DecidableEq, Repr

inductive Role where
  | any
  | pf
  /-- a virtual function the physical function does not trust, or not known to -/
  | vf
  | trustedVf
deriving DecidableEq, Repr

structure Row where
  driver : String
  role : Role
  holds : Option Nat
  past : Past
deriving DecidableEq, Repr

/-- Drivers whose physical function refuses every address beyond the one it set, for a
function it does not trust. -/
def lockedUntrusted : List String := ["igbvf", "ixgbevf", "iavf", "bnxt_en", "hinic"]

/-- A driver's name as sysfs spells it, and the size of its list as it counts it. -/
def table : List Row :=
  [⟨"igb", .pf, some 16, .promisc⟩,
    ⟨"igbvf", .vf, some 3, .drops⟩,
    ⟨"ixgbe", .pf, some 128, .promisc⟩,
    ⟨"ixgbevf", .vf, some 96, .drops⟩,
    ⟨"i40e", .pf, none, .promisc⟩,
    ⟨"iavf", .vf, some 12, .drops⟩,
    ⟨"iavf", .trustedVf, none, .drops⟩,
    ⟨"ice", .pf, none, .drops⟩,
    ⟨"idpf", .any, none, .drops⟩,
    ⟨"fm10k", .pf, none, .drops⟩,
    ⟨"fm10k", .vf, none, .ignored⟩,
    ⟨"mlx5_core", .any, some 128, .drops⟩,
    ⟨"mlx4_core", .any, some 128, .promisc⟩,
    ⟨"bnxt_en", .pf, some 4, .promisc⟩,
    ⟨"bnxt_en", .vf, some 4, .drops⟩,
    ⟨"bnxt_en", .trustedVf, some 4, .promisc⟩,
    ⟨"bnx2x", .pf, none, .promisc⟩,
    ⟨"bnx2x", .vf, none, .ignored⟩,
    ⟨"qede", .pf, none, .promisc⟩,
    ⟨"qede", .vf, none, .ignored⟩,
    ⟨"qede", .trustedVf, none, .promiscFromFirst⟩,
    ⟨"qlcnic", .pf, none, .promisc⟩,
    ⟨"qlcnic", .vf, some 2, .drops⟩,
    ⟨"cxgb4", .any, none, .hashes⟩,
    ⟨"cxgb4vf", .any, none, .hashes⟩,
    ⟨"be2net", .pf, some 30, .promisc⟩,
    ⟨"be2net", .vf, some 2, .drops⟩,
    ⟨"sfc", .pf, some 32, .promisc⟩,
    ⟨"sfc", .vf, some 32, .drops⟩,
    ⟨"sfc_ef100", .any, none, .promiscFromFirst⟩,
    ⟨"sfc_siena", .any, none, .promiscFromFirst⟩,
    ⟨"nfp", .any, none, .promiscFromFirst⟩,
    ⟨"rvu_nicpf", .pf, some 4, .promisc⟩,
    ⟨"rvu_nicvf", .vf, none, .ignored⟩,
    ⟨"rvu_nicvf", .trustedVf, none, .promiscFromFirst⟩,
    ⟨"octeon_ep", .any, none, .ignored⟩,
    ⟨"octeon_ep_vf", .any, none, .ignored⟩,
    ⟨"LiquidIO", .pf, none, .promiscFromFirst⟩,
    ⟨"LiquidIO_VF", .vf, some 32, .drops⟩,
    ⟨"nicvf", .any, none, .promiscFromFirst⟩,
    ⟨"hns3", .pf, none, .promisc⟩,
    ⟨"hns3", .vf, none, .drops⟩,
    ⟨"hns3", .trustedVf, none, .promisc⟩,
    ⟨"hinic", .pf, none, .promiscFromFirst⟩,
    ⟨"hinic", .vf, none, .drops⟩,
    ⟨"hinic3", .any, none, .promisc⟩,
    ⟨"ena", .any, none, .ignored⟩,
    ⟨"alibaba_eea", .any, none, .ignored⟩,
    ⟨"ionic", .any, none, .promisc⟩,
    ⟨"enic", .any, some 32, .promisc⟩,
    ⟨"fsl_enetc", .pf, none, .hashes⟩,
    ⟨"fsl_enetc_vf", .vf, none, .ignored⟩,
    ⟨"funeth", .any, none, .ignored⟩,
    ⟨"mana", .any, none, .ignored⟩,
    ⟨"ngbe", .pf, some 32, .promisc⟩,
    ⟨"txgbe", .pf, some 128, .promisc⟩,
    ⟨"ngbevf", .vf, none, .ignored⟩,
    ⟨"txgbevf", .vf, none, .ignored⟩]

/-- A driver's first row for a role. -/
def rowOf (driver : String) (wanted : Role) : Option Row :=
  table.find? fun row => row.driver = driver && (row.role = .any || row.role = wanted)

/-- What a driver does with the list of an interface that is or is not a virtual
function, trusted or not as far as is known. -/
def filterOf (driver : String) (vf trusted : Bool) : Option Filter :=
  let found :=
    match vf, trusted with
    | false, _ => rowOf driver .pf
    | true, false => rowOf driver .vf
    | true, true => (rowOf driver .trustedVf).or (rowOf driver .vf)
  found.map fun row => ⟨row.holds, row.past⟩

/-- Whether this driver's physical function refuses further addresses on a function whose
address it set without trusting it. -/
def locksUntrusted (driver : String) : Bool := lockedUntrusted.contains driver

/-- Whether the physical function's view of a function changes what the driver does. -/
def trustMatters (driver : String) : Bool :=
  locksUntrusted driver || table.any fun row => row.driver = driver && row.role = .trustedVf

section Table

/-- What every row of the table is like: a number is one a card can hold, and without a
filter there is none. -/
structure Row.Sound (row : Row) : Prop where
  positive : ∀ number ∈ row.holds, 0 < number
  bounded : ∀ number ∈ row.holds, number ≤ 128
  numberless : row.past = .ignored ∨ row.past = .promiscFromFirst → row.holds = none

instance (row : Row) : Decidable row.Sound :=
  decidable_of_iff ((∀ number ∈ row.holds, 0 < number) ∧ (∀ number ∈ row.holds, number ≤ 128) ∧
      (row.past = .ignored ∨ row.past = .promiscFromFirst → row.holds = none))
    ⟨fun sound => ⟨sound.1, sound.2.1, sound.2.2⟩,
      fun sound => ⟨sound.positive, sound.bounded, sound.numberless⟩⟩

theorem table_sound : ∀ row ∈ table, row.Sound := by decide +kernel

/-- A row for trusted functions stands beside one for untrusted ones. -/
theorem trusted_beside : ∀ row ∈ table, row.role = .trustedVf →
    ∃ other ∈ table, other.driver = row.driver ∧ other.role = .vf := by
  decide +kernel

/-- No row hides another: a driver has one row a role, and a row for any role is alone. -/
theorem table_apart : table.Pairwise fun first second =>
    first.driver = second.driver → first.role ≠ second.role ∧ first.role ≠ .any ∧ second.role ≠ .any := by
  decide +kernel

theorem rowOf_spec {driver : String} {wanted : Role} {row : Row} (found : rowOf driver wanted = some row) :
    row ∈ table ∧ row.driver = driver ∧ (row.role = .any ∨ row.role = wanted) := by
  have fits := List.find?_some found
  simp only [Bool.and_eq_true, Bool.or_eq_true, decide_eq_true_eq] at fits
  exact ⟨List.mem_of_find?_eq_some found, fits⟩

/-- A row for any role is the row of every role. -/
theorem rowOf_any {driver : String} {row : Row} (member : row ∈ table) (named : row.driver = driver)
    (any : row.role = .any) (wanted : Role) : rowOf driver wanted = some row := by
  cases found : rowOf driver wanted with
  | none =>
      have none := List.find?_eq_none.mp found row member
      simp [named, any] at none
  | some other =>
      obtain ⟨listed, same, -⟩ := rowOf_spec found
      by_contra apart
      have symmetric : Std.Symm fun first second : Row =>
          first.driver = second.driver → first.role ≠ second.role ∧ first.role ≠ .any ∧ second.role ≠ .any :=
        ⟨fun _ _ related same => ⟨(related same.symm).1.symm, (related same.symm).2.2, (related same.symm).2.1⟩⟩
      have related := table_apart.forall listed member (fun equal => apart (equal ▸ rfl))
      exact (related (same.trans named.symm)).2.2 any

/-- What the table says of a filter. -/
theorem filterOf_spec {driver : String} {vf trusted : Bool} {filter : Filter}
    (found : filterOf driver vf trusted = some filter) :
    ∃ row ∈ table, row.driver = driver ∧ filter = ⟨row.holds, row.past⟩ := by
  obtain ⟨row, picked, same⟩ := Option.map_eq_some_iff.mp found
  cases vf with
  | false =>
      obtain ⟨member, named, -⟩ := rowOf_spec picked
      exact ⟨row, member, named, same.symm⟩
  | true =>
      cases trusted with
      | false =>
          obtain ⟨member, named, -⟩ := rowOf_spec picked
          exact ⟨row, member, named, same.symm⟩
      | true =>
          rcases Option.or_eq_some_iff.mp picked with trusted | ⟨-, untrusted⟩
          · obtain ⟨member, named, -⟩ := rowOf_spec trusted
            exact ⟨row, member, named, same.symm⟩
          · obtain ⟨member, named, -⟩ := rowOf_spec untrusted
            exact ⟨row, member, named, same.symm⟩

theorem filterOf_bounds {driver : String} {vf trusted : Bool} {filter : Filter} {number : Nat}
    (found : filterOf driver vf trusted = some filter) (holds : filter.holds = some number) :
    0 < number ∧ number ≤ 128 := by
  obtain ⟨row, member, -, rfl⟩ := filterOf_spec found
  exact ⟨(table_sound row member).positive number holds, (table_sound row member).bounded number holds⟩

theorem filterOf_numberless {driver : String} {vf trusted : Bool} {filter : Filter}
    (found : filterOf driver vf trusted = some filter)
    (moot : filter.past = .ignored ∨ filter.past = .promiscFromFirst) : filter.holds = none := by
  obtain ⟨row, member, -, rfl⟩ := filterOf_spec found
  exact (table_sound row member).numberless moot

/-- Where trust does not matter to a driver, the row is the same with it and without. -/
theorem filterOf_of_not_trustMatters {driver : String} (indifferent : trustMatters driver = false)
    (trusted : Bool) : filterOf driver true trusted = filterOf driver true false := by
  cases trusted with
  | false => rfl
  | true =>
      rw [filterOf, filterOf]
      cases found : rowOf driver .trustedVf with
      | none => rfl
      | some row =>
          obtain ⟨member, named, any | own⟩ := rowOf_spec found
          · rw [rowOf_any member named any .vf]
            rfl
          · rw [trustMatters, Bool.or_eq_false_iff, List.any_eq_false] at indifferent
            have without := indifferent.2 row member
            simp [named, own] at without

end Table

end SriovMacSync.Cards
