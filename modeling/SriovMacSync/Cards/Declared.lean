import SriovMacSync.Cards.Smallest

namespace SriovMacSync.Cards

open Data Netlink Interaction Interaction.Action Sysfs Relation Search

/-! # Who speaks for a card

A card with a driver speaks for itself.  A bond has none and spreads over its members, and
over what is under them; the least number among these is the bond's. -/

section Behind

variable (picture : Picture)

/-- An interface without a driver leads on to what is enslaved to it and to its VLAN
parent. -/
def LeadsOn (upper lower : Node) : Prop :=
  upper.driver = none ∧ ∃ index, (index ∈ upper.slaves ∨ upper.filterBelow = some index) ∧
    nodeAt picture index = some lower

/-- The interfaces that speak for a card: itself, or what it spreads over. -/
inductive Behind (card : Node) : Node → Prop where
  | own (driven : card.driver ≠ none) : Behind card card
  | under {slave : Index} {first node : Node} (bare : card.driver = none) (plain : card.isBridge = false)
      (enslaved : slave ∈ card.slaves) (here : nodeAt picture slave = some first)
      (path : ReflTransGen (LeadsOn picture) first node) : Behind card node

/-- The numbers there are for a card. -/
def numbers (told : Told) (card : Node) : Set Nat :=
  {number | ∃ node, Behind picture card node ∧ ∃ filter, filterBy told node = some filter ∧
    filter.holds = some number}

/-- A card's number is the least there is, and the assumed one where there is none. -/
def Declares (told : Told) (card : Node) (number : Nat) : Prop :=
  IsLeast (numbers picture told card) number ∨ numbers picture told card = ∅ ∧ number = assumed

end Behind

variable {picture : Picture} {told : Told}

section Paths

theorem edge_cardEdges {upper : Index} {lower : Index} :
    Edge (cardEdges picture) upper lower ↔ ∃ node, nodeAt picture upper = some node ∧
      node.driver = none ∧ (lower ∈ node.slaves ∨ node.filterBelow = some lower) := by
  rw [Edge, cardEdges]
  cases nodeAt picture upper with
  | none => simp
  | some node =>
      cases driven : node.driver with
      | none => simp [driven]
      | some driver => simp [driven]

theorem leadsOn_of_edges {slave index : Index} {node : Node}
    (path : ReflTransGen (Edge (cardEdges picture)) slave index) (here : nodeAt picture index = some node) :
    ∃ first, nodeAt picture slave = some first ∧ ReflTransGen (LeadsOn picture) first node := by
  induction path generalizing node with
  | refl => exact ⟨node, here, .refl⟩
  | tail _ edge ih =>
      obtain ⟨upper, above, bare, goes⟩ := edge_cardEdges.mp edge
      obtain ⟨first, root, path⟩ := ih above
      exact ⟨first, root, path.tail ⟨bare, _, goes, here⟩⟩

theorem edges_of_leadsOn {slave : Index} {first node : Node} (root : nodeAt picture slave = some first)
    (path : ReflTransGen (LeadsOn picture) first node) :
    ∃ index, nodeAt picture index = some node ∧ ReflTransGen (Edge (cardEdges picture)) slave index := by
  induction path with
  | refl => exact ⟨slave, root, .refl⟩
  | tail _ leads ih =>
      obtain ⟨upper, above, path⟩ := ih
      obtain ⟨bare, index, goes, here⟩ := leads
      exact ⟨index, here, path.tail (edge_cardEdges.mpr ⟨_, above, bare, goes⟩)⟩

/-- The search's edges go out of interfaces of the picture. -/
theorem edges_cardEdges : picture.topology.edges (cardEdges picture) = cardEdges picture := by
  funext index
  rw [Topology.edges]
  split
  · rfl
  · rename_i unknown
    have absent : nodeAt picture index = none := by
      rw [Topology.linkAt, Picture.topology, List.find?_map, Option.isSome_map] at unknown
      simpa [nodeAt, Function.comp_def] using unknown
    rw [cardEdges, absent]

theorem mem_trail_slaves {card : Node} (index : Index) :
    index ∈ trail (cardEdges picture) (picture.topology.fuel (cardEdges picture) card.slaves)
        card.slaves.reverse ∅ ↔
      ∃ slave ∈ card.slaves, ReflTransGen (Edge (cardEdges picture)) slave index := by
  have enough := @Topology.left_edges picture.topology (cardEdges picture) card.slaves
  have bounded := @Topology.edges_of_unknown picture.topology (cardEdges picture)
  rw [edges_cardEdges] at enough bounded
  rw [mem_trail_iff bounded enough]
  simp

/-- The search for the smallest comes to the interfaces that speak for the card. -/
theorem behind_iff_trail {card : Node} (bare : card.driver = none) (plain : card.isBridge = false) (node : Node) :
    Behind picture card node ↔ ∃ index ∈ trail (cardEdges picture)
      (picture.topology.fuel (cardEdges picture) card.slaves) card.slaves.reverse ∅,
      nodeAt picture index = some node := by
  constructor
  · intro behind
    cases behind with
    | own answers => exact absurd bare answers
    | under _ _ enslaved root path =>
        obtain ⟨index, here, path⟩ := edges_of_leadsOn root path
        exact ⟨index, (mem_trail_slaves index).mpr ⟨_, enslaved, path⟩, here⟩
  · intro come
    obtain ⟨index, trailed, here⟩ := come
    obtain ⟨slave, enslaved, path⟩ := (mem_trail_slaves index).mp trailed
    obtain ⟨first, root, path⟩ := leadsOn_of_edges path here
    exact .under bare plain enslaved root path

end Paths

section Numbers

/-- The smallest filter behind a card makes the card's number. -/
theorem declares_of_smallest {card : Node} {driver : Option String} {chosen : Option Filter}
    (named : chosen.isSome → driver.isSome)
    (its : ∀ filter ∈ chosen, ∃ node, Behind picture card node ∧ filterBy told node = some filter)
    (least : ∀ node, Behind picture card node → ∀ filter, filterBy told node = some filter →
      ∃ small, chosen = some small ∧ small.holds.getD usizeMax ≤ filter.holds.getD usizeMax) :
    Declares picture told card (holdsOf driver chosen) := by
  have bounded : ∀ node filter number, filterBy told node = some filter → filter.holds = some number →
      number ≤ 128 := by
    intro node filter number given holds
    obtain ⟨driver, -, listed⟩ := Option.bind_eq_some_iff.mp given
    exact (filterOf_bounds listed holds).2
  cases chosen with
  | none =>
      have without : numbers picture told card = ∅ := by
        apply Set.eq_empty_of_forall_notMem
        intro number member
        obtain ⟨node, behind, filter, given, -⟩ := member
        obtain ⟨small, none, -⟩ := least node behind filter given
        cases none
      refine .inr ⟨without, ?_⟩
      cases driver <;> rfl
  | some small =>
      obtain ⟨name, rfl⟩ := Option.isSome_iff_exists.mp (named rfl)
      obtain ⟨own, behind, given⟩ := its small rfl
      cases holds : small.holds with
      | none =>
          have without : numbers picture told card = ∅ := by
            apply Set.eq_empty_of_forall_notMem
            intro number member
            obtain ⟨node, behind, filter, given, has⟩ := member
            obtain ⟨_, same, atMost⟩ := least node behind filter given
            cases same
            have small := bounded node filter number given has
            rw [holds, has, Option.getD_none, Option.getD_some, usizeMax] at atMost
            omega
          refine .inr ⟨without, ?_⟩
          rw [holdsOf]
          split <;> simp [holds]
      | some number =>
          have counted : holdsOf (some name) (some small) = number := by
            rw [holdsOf]
            obtain ⟨driver, -, listed⟩ := Option.bind_eq_some_iff.mp given
            have numberless := filterOf_numberless listed
            rw [holds] at numberless
            cases past : small.past <;> simp_all
          rw [counted]
          refine .inl ⟨⟨own, behind, small, given, holds⟩, ?_⟩
          intro other member
          obtain ⟨node, behind, filter, given, has⟩ := member
          obtain ⟨_, same, atMost⟩ := least node behind filter given
          cases same
          simpa [holds, has] using atMost

theorem Behind.eq_of_driven {card node : Node} (behind : Behind picture card node)
    (driven : card.driver ≠ none) : node = card := by
  cases behind with
  | own => rfl
  | under bare => exact absurd bare driven

theorem cardFilter_steady {card : Node} (member : card ∈ picture.nodes) {books : Books}
    {said : List Message} :
    Safe (steady picture told) (cardFilter picture card)
      (fun out books' said' => Declares picture told card (holdsOf out.1 out.2.1) ∧ books' = books ∧ said' = said)
      books said := by
  unfold cardFilter
  cases driven : card.driver with
  | some driver =>
      refine safe_bind.mpr ((judge_steady member driven).mono ?_)
      intro out books' said' judged
      have answers : card.driver ≠ none := by simp [driven]
      refine ⟨?_, judged.2⟩
      rw [judged.1]
      apply declares_of_smallest (fun _ => rfl)
      · intro filter given
        exact ⟨card, .own answers, given⟩
      · intro node behind filter given
        rw [behind.eq_of_driven answers] at given
        exact ⟨filter, given, le_rfl⟩
  | none =>
      simp only []
      split
      · rename_i alone
        refine ⟨?_, rfl, rfl⟩
        apply declares_of_smallest id (by simp)
        intro node behind
        cases behind with
        | own answers => exact absurd driven answers
        | under _ plain enslaved =>
            rw [plain, Bool.false_or, List.isEmpty_iff] at alone
            rw [alone] at enslaved
            cases enslaved
      · rename_i spreads
        rw [smallestFrom_eq, explore_eq_foldlM]
        refine safe_bind.mpr ((trail_steady .start).mono ?_)
        intro best books' said' searched
        obtain ⟨smallest, same⟩ := searched
        have plain : card.isBridge = false := by simp_all
        rw [List.nil_append] at smallest
        have reached := @behind_iff_trail picture card driven plain
        have declared : ∀ driver : Option String, (best.isSome → driver.isSome) →
            Declares picture told card (holdsOf driver (best.map (·.filter))) := by
          intro driver named
          apply declares_of_smallest (by simpa using named)
          · intro filter chosen
            obtain ⟨found, got, rfl⟩ := Option.map_eq_some_iff.mp chosen
            obtain ⟨index, trailed, given⟩ := smallest.its found got
            obtain ⟨node, here, given⟩ := Option.bind_eq_some_iff.mp given
            exact ⟨node, (reached node).mpr ⟨index, trailed, here⟩, given⟩
          · intro node behind filter given
            obtain ⟨index, trailed, here⟩ := (reached node).mp behind
            obtain ⟨found, rfl, atMost⟩ :=
              smallest.least index trailed filter (by rw [filterAt, here]; exact given)
            exact ⟨found.filter, rfl, atMost⟩
        cases best with
        | none => exact ⟨declared none (by simp), same⟩
        | some found => exact ⟨declared (some found.driver) (by simp), same⟩

end Numbers

end SriovMacSync.Cards
