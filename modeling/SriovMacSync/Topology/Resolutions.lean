import Mathlib.Data.List.Dedup
import SriovMacSync.Data.Chains
import SriovMacSync.Topology.Reachability
import SriovMacSync.Topology.Stacking

namespace SriovMacSync

open Data Netlink Relation Loop Search Chain

/-! # What an interface resolves to

The bridge above it, the filter below it and the physical functions behind it, on any
reading: each walk ends, and finds what the chain or the graph it follows says. -/

namespace Topology

variable (topo : Topology)

def masterOf (index : Index) : Option Index := (topo.linkAt index).bind (·.master)

/-- An interface that is no bridge and has no functions leads on to what is enslaved to
it and to its VLAN parent. -/
structure Spreads (upper lower : Index) : Prop where
  known : (topo.linkAt upper).isSome
  plain : topo.isBridge upper = false
  empty : topo.functionsAt upper = []
  edge : topo.masterOf lower = some upper ∨ topo.below upper = some lower

variable {topo}

section Bounds

theorem card_known : topo.known.card < topo.links.length + 1 := by
  have few := List.toFinset_card_le (topo.links.map (·.index))
  rw [List.length_map] at few
  rw [known]
  omega

theorem linkAt_of_notMem_known {index : Index} (unknown : index ∉ topo.known) :
    topo.linkAt index = none := by
  rw [mem_known] at unknown
  simpa using unknown

theorem masterOf_of_unknown (index : Index) (unknown : index ∉ topo.known) :
    topo.masterOf index = none := by
  rw [masterOf, linkAt_of_notMem_known unknown, Option.bind_none]

theorem below_of_unknown (index : Index) (unknown : index ∉ topo.known) :
    topo.below index = none := by
  rw [below, linkAt_of_notMem_known unknown, Option.bind_none]

theorem functionEdges_of_unknown (index : Index) (unknown : index ∉ topo.known) :
    topo.functionEdges index = [] := by
  rw [functionEdges, linkAt_of_notMem_known unknown]

end Bounds

section Upwards

theorem bridgeAboveFrom_of_turns {fuel : Nat} {current : Index} {seen : Finset Index}
    {found : Option (Index × Index)}
    (ended : turns (climb topo.masterOf topo.isBridge) fuel (current, seen) = some found) :
    topo.bridgeAboveFrom fuel current seen = found := by
  induction fuel generalizing current seen with
  | zero => cases ended
  | succ fuel ih =>
      rw [bridgeAboveFrom]
      by_cases again : current ∈ seen
      · rw [turns_done (climb_again again)] at ended
        rw [if_pos again]
        exact Option.some.inj ended
      rw [if_neg again]
      cases enslaved : topo.masterOf current with
      | none =>
          rw [turns_done (climb_last again enslaved)] at ended
          rw [masterOf] at enslaved
          rw [enslaved]
          exact Option.some.inj ended
      | some master =>
          have up : (topo.linkAt current).bind (·.master) = some master := enslaved
          rw [up]
          cases above : topo.isBridge master with
          | true =>
              rw [turns_done (climb_top again enslaved above)] at ended
              simpa [above] using ended
          | false =>
              rw [turns_again (climb_on again enslaved above)] at ended
              simpa [above] using ih ended

/-- The climb over masters ends, with the first bridge of the chain and the interface
enslaved to it. -/
theorem bridgeAbove_exact (topo : Topology) (dev : Index) :
    Halts (climb topo.masterOf topo.isBridge) (dev, ∅) (topo.bridgeAbove dev) ∧
      ∀ bridge port, topo.bridgeAbove dev = some (bridge, port) ↔
        ReflTransGen (Below topo.masterOf topo.isBridge) dev port ∧
          topo.masterOf port = some bridge ∧ topo.isBridge bridge = true := by
  obtain ⟨found, ended, exactly⟩ :=
    @climb_exact _ _ _ _ dev _ topo.isBridge masterOf_of_unknown card_known
  have same : topo.bridgeAbove dev = found := bridgeAboveFrom_of_turns ended
  rw [same]
  exact ⟨⟨_, ended⟩, exactly⟩

end Upwards

section Downwards

theorem filterCarrierFrom_of_turns {fuel : Nat} {current last : Index} {seen : Finset Index}
    (ended : turns (chase topo.below) fuel (current, seen) = some last) :
    topo.filterCarrierFrom fuel current seen = last := by
  induction fuel generalizing current seen with
  | zero => cases ended
  | succ fuel ih =>
      rw [filterCarrierFrom]
      by_cases again : current ∈ seen
      · rw [turns_done (chase_again again)] at ended
        rw [if_pos again]
        exact Option.some.inj ended
      rw [if_neg again]
      cases goes : topo.below current with
      | none =>
          rw [turns_done (chase_last again goes)] at ended
          rw [below] at goes
          rw [goes]
          exact Option.some.inj ended
      | some parent =>
          rw [turns_again (chase_on again goes)] at ended
          rw [below] at goes
          rw [goes]
          exact ih ended

/-- The chase down the VLAN stack ends, and at the end of the stack where it has one. -/
theorem filterCarrier_exact (topo : Topology) (dev : Index) :
    Halts (chase topo.below) (dev, ∅) (topo.filterCarrier dev) ∧
      ∀ bottom, ReflTransGen (Next topo.below) dev bottom → topo.below bottom = none →
        topo.filterCarrier dev = bottom := by
  obtain ⟨last, ended, exactly⟩ := @chase_exact _ _ _ _ dev _ below_of_unknown card_known
  have same : topo.filterCarrier dev = last := filterCarrierFrom_of_turns ended
  rw [same]
  exact ⟨⟨_, ended⟩, exactly⟩

end Downwards

section Functions

theorem physicalFunctionsFrom_of_turns {fuel : Nat} {stack out found : List Index}
    {seen : Finset Index}
    (ended : turns (gather topo.functionEdges topo.functionsAt) fuel (out, stack, seen) =
      some found) :
    out ++ topo.physicalFunctionsFrom fuel stack seen = found := by
  induction fuel generalizing out stack seen with
  | zero => cases ended
  | succ fuel ih =>
      cases stack with
      | nil => simpa [turns, gather, physicalFunctionsFrom] using ended
      | cons current stack =>
          rw [physicalFunctionsFrom]
          by_cases again : current ∈ seen
          · rw [turns_again (gather_again again)] at ended
            rw [if_pos again, ih ended]
          · rw [turns_again (gather_fresh again)] at ended
            rw [if_neg again, ← List.append_assoc, ih ended]

theorem mem_slaves {index slave : Index} :
    slave ∈ topo.slaves index ↔ topo.masterOf slave = some index := by
  rw [slaves, List.mem_map, masterOf]
  constructor
  · intro ⟨link, member, same⟩
    obtain ⟨present, enslaved⟩ := List.mem_filter.mp member
    rw [← same, linkAt_of_mem present]
    simpa using enslaved
  · intro enslaved
    obtain ⟨link, found, master⟩ := Option.bind_eq_some_iff.mp enslaved
    exact ⟨link, List.mem_filter.mpr ⟨mem_of_linkAt found, by simpa using master⟩,
      index_of_linkAt found⟩

theorem edge_functionEdges : Edge topo.functionEdges = topo.Spreads := by
  funext upper lower
  apply propext
  rw [Edge, functionEdges]
  cases found : topo.linkAt upper with
  | none =>
      simp only [List.not_mem_nil, false_iff]
      intro spreads
      have known := spreads.known
      simp [found] at known
  | some link =>
      have bridge : topo.isBridge upper = link.isBridge := by simp [isBridge, found]
      have parent : topo.below upper = link.filterBelow := by simp [below, found]
      have functions : topo.functionsAt upper = [] ↔ ¬ (link.pfNetdevs ≠ [] ∨ 0 < link.numvfs) := by
        rw [functionsAt, found]
        by_cases own : link.pfNetdevs = [] <;> simp [own]
      by_cases stops : link.pfNetdevs ≠ [] ∨ 0 < link.numvfs ∨ link.isBridge = true
      · simp only [stops, if_true, List.not_mem_nil, false_iff]
        intro spreads
        have none := functions.mp spreads.empty
        have plain := bridge.symm.trans spreads.plain
        simp_all
      · simp only [stops, if_false, List.mem_append, mem_slaves, Option.mem_toList, ← parent]
        constructor
        · intro edge
          exact ⟨by rw [found]; rfl, by simp_all, functions.mpr (by simp_all), edge⟩
        · intro spreads
          exact spreads.edge

/-- The search over members and VLAN parents ends, and what is made of it is the
functions of the interfaces it comes to, in order and each once. -/
theorem physicalFunctions_exact (topo : Topology) (dev : Index) :
    (∃ out, Halts (gather topo.functionEdges topo.functionsAt) ([], [dev], ∅) out ∧
      topo.physicalFunctions dev = (out.insertionSort (· ≤ ·)).dedup) ∧
    (topo.physicalFunctions dev).Pairwise (· < ·) ∧
    ∀ function, function ∈ topo.physicalFunctions dev ↔
      ∃ index, ReflTransGen topo.Spreads dev index ∧ function ∈ topo.functionsAt index := by
  have enough := @left_edges topo topo.functionEdges [dev]
  have own : topo.edges topo.functionEdges = topo.functionEdges := by
    funext index
    rw [edges]
    split
    · rfl
    · rename_i unknown
      rw [functionEdges_of_unknown index (by rwa [mem_known])]
  rw [own] at enough
  obtain ⟨out, ended, exactly⟩ := gather_exact topo.functionsAt functionEdges_of_unknown enough
  simp only [List.reverse_singleton] at ended
  have walked := physicalFunctionsFrom_of_turns ended
  rw [List.nil_append] at walked
  have same : topo.physicalFunctions dev = (out.insertionSort (· ≤ ·)).dedup := by
    rw [physicalFunctions, walked]
  refine ⟨⟨out, ⟨_, ended⟩, same⟩, ?_, ?_⟩
  · rw [same]
    have sorted := (List.pairwise_insertionSort (· ≤ ·) out).sublist (List.dedup_sublist _)
    have apart : (out.insertionSort (· ≤ ·)).dedup.Pairwise (· ≠ ·) := List.nodup_dedup _
    exact (sorted.and apart).imp fun both => UInt32.lt_of_le_of_ne both.1 both.2
  · intro function
    rw [same, List.mem_dedup, List.mem_insertionSort, exactly, edge_functionEdges]
    simp

end Functions

/-- The bridge above an interface, the filter below it and the functions behind it are
what the reading's chains say, on any reading, and each walk ends. -/
theorem resolutions_exact (topo : Topology) (dev : Index) :
    (Halts (climb topo.masterOf topo.isBridge) (dev, ∅) (topo.bridgeAbove dev) ∧
      ∀ bridge port, topo.bridgeAbove dev = some (bridge, port) ↔
        ReflTransGen (Below topo.masterOf topo.isBridge) dev port ∧
          topo.masterOf port = some bridge ∧ topo.isBridge bridge = true) ∧
    (Halts (chase topo.below) (dev, ∅) (topo.filterCarrier dev) ∧
      ∀ bottom, ReflTransGen (Next topo.below) dev bottom → topo.below bottom = none →
        topo.filterCarrier dev = bottom) ∧
    (∃ out, Halts (gather topo.functionEdges topo.functionsAt) ([], [dev], ∅) out ∧
      topo.physicalFunctions dev = (out.insertionSort (· ≤ ·)).dedup) ∧
    (topo.physicalFunctions dev).Pairwise (· < ·) ∧
    ∀ function, function ∈ topo.physicalFunctions dev ↔
      ∃ index, ReflTransGen topo.Spreads dev index ∧ function ∈ topo.functionsAt index :=
  ⟨bridgeAbove_exact topo dev, filterCarrier_exact topo dev, physicalFunctions_exact topo dev⟩

end Topology

end SriovMacSync
