import Mathlib.Data.Finset.Card
import Mathlib.Data.Finset.Union
import SriovMacSync.Topology.Graph

namespace SriovMacSync

open Data Netlink

/-! # Filters written through other interfaces

An entry given to a VLAN is kept by every interface it is stacked on, down to the
card.  What a filter holds is what its own interface and everything above it on the
way were given. -/

namespace Topology

variable (topo : Topology)

/-- The interface an interface hands its filter entries on to. -/
def below (dev : Index) : Option Index := (topo.linkAt dev).bind (·.filterBelow)

def filterChainFrom : Nat → Index → Finset Index → Finset Index
  | 0, current, seen => insert current seen
  | fuel + 1, current, seen =>
      if current ∈ seen then seen
      else
        match topo.below current with
        | some parent => filterChainFrom fuel parent (insert current seen)
        | none => insert current seen

/-- Every interface whose filter an entry given to `dev` ends up in. -/
def filterChain (dev : Index) : Finset Index :=
  topo.filterChainFrom (topo.links.length + 1) dev ∅

/-- What the filter at `place` holds, `own` being what each interface was given. -/
def held (own : Index → Finset Mac) (place : Index) : Finset Mac :=
  own place ∪ ((topo.links.map (·.index)).filter (place ∈ topo.filterChain ·)).toFinset.biUnion own

variable {topo}

private theorem seen_subset_filterChainFrom {fuel : Nat} {current : Index} {seen : Finset Index} :
    seen ⊆ topo.filterChainFrom fuel current seen := by
  induction fuel generalizing current seen with
  | zero => exact Finset.subset_insert ..
  | succ fuel ih =>
      rw [filterChainFrom]
      split
      · exact Finset.Subset.refl _
      · split
        · exact (Finset.subset_insert ..).trans ih
        · exact Finset.subset_insert ..

private theorem current_mem_filterChainFrom {fuel : Nat} {current : Index} {seen : Finset Index} :
    current ∈ topo.filterChainFrom fuel current seen := by
  cases fuel with
  | zero => exact Finset.mem_insert_self ..
  | succ fuel =>
      rw [filterChainFrom]
      split
      · assumption
      · split
        · exact seen_subset_filterChainFrom (Finset.mem_insert_self ..)
        · exact Finset.mem_insert_self ..

theorem self_mem_filterChain {dev : Index} : dev ∈ topo.filterChain dev :=
  current_mem_filterChainFrom

private theorem filterCarrierFrom_mem {fuel : Nat} {current : Index} {seen : Finset Index} :
    topo.filterCarrierFrom fuel current seen ∈ topo.filterChainFrom fuel current seen := by
  induction fuel generalizing current seen with
  | zero => exact Finset.mem_insert_self ..
  | succ fuel ih =>
      rw [filterCarrierFrom, filterChainFrom]
      split
      · assumption
      · cases below : topo.below current with
        | none =>
            rw [Topology.below] at below
            simp [below]
        | some parent =>
            rw [Topology.below] at below
            simpa [below] using ih

/-- The card of an uplink holds what the uplink is given. -/
theorem filterCarrier_mem_filterChain {dev : Index} :
    topo.filterCarrier dev ∈ topo.filterChain dev :=
  filterCarrierFrom_mem

theorem filterChain_of_unknown {dev : Index} (unknown : topo.linkAt dev = none) :
    topo.filterChain dev = {dev} := by
  simp [filterChain, filterChainFrom, below, unknown]

/-- A walk stays inside every set that is closed under going down. -/
private theorem filterChainFrom_subset {fuel : Nat} {current : Index} {seen closed : Finset Index}
    (descends : ∀ dev ∈ closed, ∀ parent, topo.below dev = some parent → parent ∈ closed)
    (starts : current ∈ closed) (inside : seen ⊆ closed) :
    topo.filterChainFrom fuel current seen ⊆ closed := by
  induction fuel generalizing current seen with
  | zero => exact Finset.insert_subset starts inside
  | succ fuel ih =>
      rw [filterChainFrom]
      split
      · exact inside
      · split
        · rename_i parent below
          exact ih (descends current starts parent below) (Finset.insert_subset starts inside)
        · exact Finset.insert_subset starts inside

/-- The fuel covers the walk: where it ends there is nothing further down.  Every
interface passed is a known one, so that the ones seen leave room for the rest. -/
private theorem filterChainFrom_descends {fuel : Nat} {current : Index} {seen : Finset Index}
    (known : seen ⊆ (topo.links.map (·.index)).toFinset)
    (room : topo.links.length < fuel + seen.card)
    (closes : ∀ dev ∈ seen, ∀ parent, topo.below dev = some parent → parent ∈ insert current seen) :
    ∀ dev ∈ topo.filterChainFrom fuel current seen, ∀ parent, topo.below dev = some parent →
      parent ∈ topo.filterChainFrom fuel current seen := by
  induction fuel generalizing current seen with
  | zero =>
      have few := (Finset.card_le_card known).trans (List.toFinset_card_le _)
      rw [List.length_map] at few
      omega
  | succ fuel ih =>
      rw [filterChainFrom]
      split
      · rename_i again
        intro dev passed parent below
        simpa [again] using closes dev passed parent below
      · rename_i fresh
        split
        · rename_i next goes
          obtain ⟨link, found, -⟩ := Option.bind_eq_some_iff.mp goes
          have listed : current ∈ (topo.links.map (·.index)).toFinset := by
            rw [List.mem_toFinset]
            exact List.mem_map.mpr ⟨link, List.mem_of_find?_eq_some found,
              by simpa using List.find?_some found⟩
          refine ih (Finset.insert_subset listed known) ?_ ?_
          · rw [Finset.card_insert_of_notMem fresh]
            omega
          · intro dev passed parent below
            rcases Finset.mem_insert.mp passed with rfl | earlier
            · obtain rfl : next = parent := Option.some.inj (goes.symm.trans below)
              exact Finset.mem_insert_self ..
            · exact Finset.mem_insert_of_mem (closes dev earlier parent below)
        · rename_i ends
          intro dev passed parent below
          rcases Finset.mem_insert.mp passed with rfl | earlier
          · simp [ends] at below
          · exact closes dev earlier parent below

theorem filterChain_descends {dev upper parent : Index} (passed : dev ∈ topo.filterChain upper)
    (below : topo.below dev = some parent) : parent ∈ topo.filterChain upper :=
  filterChainFrom_descends (Finset.empty_subset _) (by simp) (by simp) dev passed parent below

/-- What is on the way down from an interface on the way down is on the way. -/
theorem filterChain_trans {upper middle : Index} (passed : middle ∈ topo.filterChain upper) :
    topo.filterChain middle ⊆ topo.filterChain upper :=
  filterChainFrom_subset (fun _ inside _ below => filterChain_descends inside below) passed
    (Finset.empty_subset _)

theorem mem_held {own : Index → Finset Mac} {place : Index} {mac : Mac} :
    mac ∈ topo.held own place ↔ ∃ dev, place ∈ topo.filterChain dev ∧ mac ∈ own dev := by
  rw [held, Finset.mem_union, Finset.mem_biUnion]
  constructor
  · rintro (given | ⟨dev, above, given⟩)
    · exact ⟨place, self_mem_filterChain, given⟩
    · rw [List.mem_toFinset, List.mem_filter, decide_eq_true_eq] at above
      exact ⟨dev, above.2, given⟩
  · rintro ⟨dev, above, given⟩
    cases known : topo.linkAt dev with
    | none =>
        rw [filterChain_of_unknown known, Finset.mem_singleton] at above
        exact .inl (above ▸ given)
    | some link =>
        refine .inr ⟨dev, ?_, given⟩
        rw [List.mem_toFinset, List.mem_filter, decide_eq_true_eq]
        exact ⟨List.mem_map.mpr ⟨link, List.mem_of_find?_eq_some known,
          by simpa using List.find?_some known⟩, above⟩

theorem held_mono {own more : Index → Finset Mac} (fewer : own ≤ more) (place : Index) :
    topo.held own place ⊆ topo.held more place := by
  intro mac member
  obtain ⟨dev, above, given⟩ := mem_held.mp member
  exact mem_held.mpr ⟨dev, above, fewer dev given⟩

end Topology

end SriovMacSync
