import SriovMacSync.Data.Search
import SriovMacSync.Topology.Walks

namespace SriovMacSync

open Data Netlink Relation Loop Search

/-! # What the walks find

Every walk over the stacking ends, and the walks up and the walks down find the same
relation: a chain of interfaces, each stacked on the next. -/

namespace Topology

section Edges

variable (topo : Topology) (next : Index → List Index)

/-- The interfaces of the reading. -/
def known : Finset Index := (topo.links.map (·.index)).toFinset

/-- The edges a walk follows: those out of interfaces the reading knows. -/
def edges (index : Index) : List Index :=
  if (topo.linkAt index).isSome then next index else []

variable {topo next}

theorem mem_known {index : Index} : index ∈ topo.known ↔ (topo.linkAt index).isSome := by
  rw [known, List.mem_toFinset, List.mem_map]
  constructor
  · intro ⟨link, member, same⟩
    rw [← same, linkAt_of_mem member]
    rfl
  · intro known
    obtain ⟨link, found⟩ := Option.isSome_iff_exists.mp known
    exact ⟨link, mem_of_linkAt found, index_of_linkAt found⟩

theorem edges_of_unknown (index : Index) (unknown : index ∉ topo.known) :
    topo.edges next index = [] := by
  rw [mem_known] at unknown
  rw [edges, if_neg unknown]

theorem edges_lowersOf : topo.edges topo.lowersOf = topo.lowersOf := by
  funext index
  rw [edges]
  split
  · rfl
  · rename_i unknown
    rw [Option.not_isSome_iff_eq_none] at unknown
    rw [lowersOf, unknown]
    rfl

/-- The fuel of a walk is enough for all of its turns. -/
theorem left_edges (roots : List Index) :
    left (topo.edges next) topo.known roots.reverse ∅ < topo.fuel next roots := by
  have followed : unfollowed (topo.edges next) topo.known ∅ = pending topo next ∅ := by
    apply Finset.sum_congr rfl
    intro index member
    have listed := mem_known.mp (Finset.mem_sdiff.mp member).1
    rw [edges, if_pos listed]
  rw [left, followed, pending_empty, List.length_reverse, fuel]
  omega

end Edges

variable {topo : Topology} {next : Index → List Index}

section Floods

theorem floodFrom_of_turns {fuel : Nat} {stack : List Index} {seen found : Finset Index}
    (ended : turns (visit (topo.edges next)) fuel (stack, seen) = some found) :
    topo.floodFrom next fuel stack seen = found := by
  induction fuel generalizing stack seen with
  | zero => cases ended
  | succ fuel ih =>
      cases stack with
      | nil => simpa [turns, visit, floodFrom] using ended
      | cons current stack =>
          rw [floodFrom]
          by_cases again : current ∈ seen
          · rw [turns_again (visit_again again)] at ended
            rw [if_pos again, ih ended]
          · rw [turns_again (visit_fresh again), edges] at ended
            rw [if_neg again]
            split at ended
            · rw [if_pos ‹_›, ih ended]
            · rw [if_neg ‹_›]
              exact ih ended

/-- A flood ends, with everything that hangs on its roots and nothing else. -/
theorem flood_exact (topo : Topology) (next : Index → List Index) (roots : List Index) :
    Halts (visit (topo.edges next)) (roots.reverse, ∅) (topo.flood roots next) ∧
      ∀ index, index ∈ topo.flood roots next ↔
        ∃ root ∈ roots, ReflTransGen (Edge (topo.edges next)) root index := by
  obtain ⟨found, ended, exactly⟩ := visit_exact edges_of_unknown (@left_edges topo next roots)
  have same : topo.flood roots next = found := floodFrom_of_turns ended
  rw [same]
  refine ⟨⟨_, ended⟩, ?_⟩
  intro index
  simpa using exactly index

theorem leadsToFrom_of_turns {target : Index} {fuel : Nat} {stack : List Index}
    {seen : Finset Index} {hit : Bool}
    (ended : turns (hunt topo.lowersOf target) fuel (stack, seen) = some hit) :
    topo.leadsToFrom target fuel stack seen = hit := by
  induction fuel generalizing stack seen with
  | zero => cases ended
  | succ fuel ih =>
      cases stack with
      | nil => simpa [turns, hunt, leadsToFrom] using ended
      | cons current stack =>
          rw [leadsToFrom]
          by_cases again : current ∈ seen
          · rw [turns_again (hunt_again again)] at ended
            rw [if_pos again, ih ended]
          rw [if_neg again]
          by_cases there : target ∈ topo.lowersOf current
          · rw [turns_done (hunt_hit again there)] at ended
            rw [List.contains_iff_mem.mpr there]
            simpa using ended
          · rw [turns_again (hunt_missed again there)] at ended
            simp [there, ih ended]

/-- The walk down to a target ends, and finds it under everything stacked on it. -/
theorem leadsTo_exact (topo : Topology) (dev target : Index) :
    (dev ≠ target → Halts (hunt topo.lowersOf target) ([dev], ∅) (topo.leadsTo dev target)) ∧
      (topo.leadsTo dev target = true ↔ ReflTransGen (Edge topo.lowersOf) dev target) := by
  have enough := @left_edges topo topo.lowersOf [dev]
  rw [edges_lowersOf] at enough
  have bounded : ∀ index, index ∉ topo.known → topo.lowersOf index = [] := by
    rw [← edges_lowersOf]
    exact edges_of_unknown
  obtain ⟨hit, ended, exactly⟩ := hunt_exact bounded target enough
  have walked := leadsToFrom_of_turns ended
  simp only [List.reverse_singleton] at ended walked
  constructor
  · intro apart
    have same : topo.leadsTo dev target = hit := by simp [leadsTo, apart, walked]
    exact same ▸ ⟨_, ended⟩
  · rw [leadsTo, walked, Bool.or_eq_true, beq_iff_eq, exactly, reflTransGen_iff_eq_or_transGen]
    simp [eq_comm]

end Floods

section Mirrored

theorem known_of_lower {index lower : Index} (edge : lower ∈ topo.lowersOf index) :
    (topo.linkAt index).isSome := by
  cases found : topo.linkAt index with
  | some link => rfl
  | none => simp [lowersOf, found] at edge

/-- The edges up are the edges down to known interfaces, turned round. -/
theorem edge_uppers {lower upper : Index} :
    Edge (topo.edges topo.uppers) lower upper ↔
      (topo.linkAt lower).isSome ∧ Edge topo.lowersOf upper lower := by
  have listed : upper ∈ topo.uppers lower ↔ lower ∈ topo.lowersOf upper := by
    rw [uppers, List.mem_map]
    constructor
    · intro ⟨link, member, same⟩
      obtain ⟨present, onto⟩ := List.mem_filter.mp member
      rw [lowersOf, ← same, linkAt_of_mem present]
      simpa using onto
    · intro edge
      obtain ⟨link, found⟩ := Option.isSome_iff_exists.mp (known_of_lower edge)
      refine ⟨link, List.mem_filter.mpr ⟨mem_of_linkAt found, ?_⟩, index_of_linkAt found⟩
      rw [lowersOf, found] at edge
      simpa using edge
  rw [Edge, Edge, edges]
  split
  · rename_i known
    simp [known, listed]
  · rename_i unknown
    simp [unknown]

/-- A chain down to a known interface is a chain up from it. -/
theorem chain_turned {root index : Index} (known : (topo.linkAt root).isSome) :
    ReflTransGen (Edge (topo.edges topo.uppers)) root index ↔
      ReflTransGen (Edge topo.lowersOf) index root := by
  constructor
  · intro path
    induction path with
    | refl => exact .refl
    | tail _ edge ih => exact .head (edge_uppers.mp edge).2 ih
  · intro path
    suffices (topo.linkAt index).isSome ∧
        ReflTransGen (Edge (topo.edges topo.uppers)) root index from this.2
    induction path using ReflTransGen.head_induction_on with
    | refl => exact ⟨known, .refl⟩
    | head edge _ ih => exact ⟨known_of_lower edge, ih.2.tail (edge_uppers.mpr ⟨ih.1, edge⟩)⟩

theorem mem_stackedAbove {root index : Index} (known : (topo.linkAt root).isSome) :
    index ∈ topo.stackedAbove root ↔ topo.leadsTo index root = true := by
  have exactly := (flood_exact topo topo.uppers [root]).2 index
  rw [stackedAbove, exactly, (leadsTo_exact topo index root).2, ← chain_turned known]
  simp

theorem mem_subtreeOf {index root : Index} :
    root ∈ topo.subtreeOf [index] ↔ topo.leadsTo index root = true := by
  have exactly := (flood_exact topo topo.lowersOf [index]).2 root
  rw [edges_lowersOf] at exactly
  rw [subtreeOf, exactly, (leadsTo_exact topo index root).2]
  simp

theorem isBridge_iff {index : Index} :
    topo.isBridge index = true ↔ ∃ link, topo.linkAt index = some link ∧ link.isBridge = true := by
  rw [isBridge]
  cases topo.linkAt index <;> simp

/-- A bridge counts the bridges stacked on it, and itself. -/
theorem reach_reaches {bridge other : Index} (isBridge : topo.isBridge bridge = true) :
    (topo.reach bridge).reaches other = true ↔
      other = bridge ∨ topo.isBridge other = true ∧ topo.leadsTo other bridge = true := by
  obtain ⟨bridgeLink, bridgeFound, -⟩ := isBridge_iff.mp isBridge
  have known : (topo.linkAt bridge).isSome := by rw [bridgeFound]; rfl
  have stacked : other ∈ (topo.reach bridge).stackedBridges ↔ other ≠ bridge ∧
      topo.isBridge other = true ∧ ∃ lower ∈ topo.lowersOf other,
        topo.leadsTo lower bridge = true := by
    rw [reach, List.mem_map]
    constructor
    · intro ⟨link, member, same⟩
      obtain ⟨listed, fits⟩ := List.mem_filter.mp member
      obtain ⟨apart, lower, edge, ward⟩ := of_decide_eq_true fits
      rw [bridges, List.mem_insertionSort, List.mem_filter] at listed
      have found := linkAt_of_mem listed.1
      rw [same] at found apart
      refine ⟨apart, isBridge_iff.mpr ⟨link, found, listed.2⟩, lower, ?_,
        (mem_stackedAbove known).mp ward⟩
      rwa [lowersOf, found]
    · intro ⟨apart, otherBridge, lower, edge, ward⟩
      obtain ⟨link, found, linkBridge⟩ := isBridge_iff.mp otherBridge
      rw [lowersOf, found] at edge
      refine ⟨link, List.mem_filter.mpr ⟨?_, decide_eq_true ⟨?_, lower, edge, ?_⟩⟩,
        index_of_linkAt found⟩
      · rw [bridges, List.mem_insertionSort, List.mem_filter]
        exact ⟨mem_of_linkAt found, linkBridge⟩
      · rwa [index_of_linkAt found]
      · exact (mem_stackedAbove known).mpr ward
  have first (apart : other ≠ bridge) : topo.leadsTo other bridge = true ↔
      ∃ lower ∈ topo.lowersOf other, topo.leadsTo lower bridge = true := by
    rw [(leadsTo_exact topo other bridge).2, reflTransGen_iff_eq_or_transGen, TransGen.head'_iff]
    simp only [apart.symm, false_or, (leadsTo_exact topo _ bridge).2]
    rfl
  rw [Reach.reaches, Bool.or_eq_true, beq_iff_eq, List.contains_iff_mem, stacked]
  by_cases same : other = bridge
  · simp [same, reach]
  · rw [first same]
    simp [same, reach]

end Mirrored

/-- The uppers as `assemble` pushes them, one for each time a link names its lower. -/
def pushedUppers (topo : Topology) (index : Index) : List Index :=
  topo.links.flatMap fun link => (link.lowers.filter (· == index)).map fun _ => link.index

theorem mem_pushedUppers {lower upper : Index} :
    upper ∈ topo.pushedUppers lower ↔ upper ∈ topo.uppers lower := by
  simp [pushedUppers, uppers]
  grind

theorem flood_pushedUppers (topo : Topology) (roots : List Index) :
    topo.flood roots topo.pushedUppers = topo.flood roots topo.uppers := by
  have same : Edge (topo.edges topo.pushedUppers) = Edge (topo.edges topo.uppers) := by
    funext lower upper
    rw [Edge, Edge, edges, edges]
    split
    · rw [mem_pushedUppers]
    · rfl
  ext index
  rw [(flood_exact topo topo.pushedUppers roots).2, (flood_exact topo topo.uppers roots).2, same]

/-- The walks up and the walks down find one relation, bridges count what is stacked on
them by it, and every walk ends. -/
theorem stacking_walks_agree (topo : Topology) :
    (∀ root index, (topo.linkAt root).isSome →
      (index ∈ topo.stackedAbove root ↔ topo.leadsTo index root = true) ∧
        (topo.leadsTo index root = true ↔ root ∈ topo.subtreeOf [index])) ∧
    (∀ bridge other, topo.isBridge bridge = true →
      ((topo.reach bridge).reaches other = true ↔
        other = bridge ∨ topo.isBridge other = true ∧ topo.leadsTo other bridge = true)) ∧
    (∀ root, Halts (visit (topo.edges topo.pushedUppers)) ([root], ∅) (topo.stackedAbove root)) ∧
    (∀ roots, Halts (visit (topo.edges topo.lowersOf)) (roots.reverse, ∅)
      (topo.subtreeOf roots)) ∧
    ∀ dev target, dev ≠ target →
      Halts (hunt topo.lowersOf target) ([dev], ∅) (topo.leadsTo dev target) := by
  refine ⟨?_, ?_, ?_, ?_, ?_⟩
  · intro root index known
    exact ⟨mem_stackedAbove known, mem_subtreeOf.symm⟩
  · intro bridge other isBridge
    exact reach_reaches isBridge
  · intro root
    rw [stackedAbove, ← flood_pushedUppers]
    exact (flood_exact topo topo.pushedUppers [root]).1
  · intro roots
    exact (flood_exact topo topo.lowersOf roots).1
  · intro dev target
    exact (leadsTo_exact topo dev target).1

end Topology

end SriovMacSync
