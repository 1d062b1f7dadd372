import SriovMacSync.Topology.Autodetect
import SriovMacSync.Topology.Resolutions

namespace SriovMacSync

open Data Netlink Relation Search Chain

/-! # No candidate is left uncovered

A candidate is turned away by a physical function that carries its segment, or by an
uplink taken before it.  Either way a pair of one function on one segment was taken:
nothing but itself can turn the physical function away in its turn. -/

namespace Topology

variable (topo : Topology)

/-- A netdev that hands out virtual functions, and is no virtual function and no VLAN. -/
def HandsOut (pf : Index) : Prop :=
  ∃ link, topo.linkAt pf = some link ∧ 0 < link.numvfs ∧ link.pfNetdevs = [] ∧
    link.filterBelow = none

/-- Every netdev an interface lists as a physical function is one. -/
def FunctionsHandOut : Prop := ∀ index, ∀ pf ∈ topo.functionsAt index, topo.HandsOut pf

/-- A physical function of an interface: one it names itself, or one behind it. -/
def FunctionOf (pf index : Index) : Prop :=
  pf ∈ topo.functionsAt index ∨ pf ∈ topo.physicalFunctions (topo.filterCarrier index)

def SharesFunction (first second : Index) : Prop :=
  ∃ pf, topo.FunctionOf pf first ∧ topo.FunctionOf pf second

variable {topo}

/-- What a candidate claims, said at once. -/
theorem claimOf_eq_some {link : Link} {taken : Taken} :
    topo.claimOf link = some taken ↔ topo.couldBeUplink link = true ∧
      ∃ port, topo.bridgeAbove link.index = some (taken.bridge, port) ∧
        ∃ anatomy, topo.anatomy link.index taken.bridge = some anatomy ∧
          topo.carriedBy link anatomy taken.bridge = none ∧
          taken = ⟨anatomy.functions, taken.bridge, link.name, link.index⟩ := by
  rw [claimOf]
  cases could : topo.couldBeUplink link with
  | false => simp
  | true =>
      cases above : topo.bridgeAbove link.index with
      | none => simp
      | some enters =>
          obtain ⟨bridge, port⟩ := enters
          cases known : topo.anatomy link.index bridge with
          | none =>
              simp only [known, if_true, reduceCtorEq, true_and, Option.some.injEq, Prod.mk.injEq,
                false_iff]
              intro facts
              obtain ⟨_, ⟨same, _⟩, anatomy, found, _⟩ := facts
              rw [← same, known] at found
              cases found
          | some anatomy =>
              simp only [known, if_true, true_and]
              constructor
              · intro claims
                split at claims
                · rename_i free
                  cases claims
                  exact ⟨port, rfl, anatomy, known, free, rfl⟩
                · cases claims
              · intro facts
                obtain ⟨_, enters, found, there, free, same⟩ := facts
                cases enters
                cases known.symm.trans there
                rw [if_pos free, same]

theorem carriedBy_eq_none {link : Link} {anatomy : Anatomy} {bridge : Index} :
    topo.carriedBy link anatomy bridge = none ↔ ∀ pf ∈ anatomy.functions, pf ≠ link.index →
      ∀ above port, topo.bridgeAbove pf = some (above, port) →
        topo.stackedRelated above bridge = false := by
  rw [carriedBy, List.find?_eq_none]
  apply forall₂_congr
  intro pf member
  cases found : topo.bridgeAbove pf with
  | none => simp
  | some enters =>
      obtain ⟨above, port⟩ := enters
      simp only [Option.any_some, Bool.and_eq_true, bne_iff_ne, ne_eq, not_and, Bool.not_eq_true,
        Option.some.injEq, Prod.mk.injEq, and_imp]
      constructor
      · intro free apart _ _ same _
        exact same ▸ free apart
      · intro free apart
        exact free apart _ _ rfl rfl

section Functions

variable {pf : Index}

theorem functionsAt_of_handsOut (handsOut : topo.HandsOut pf) : topo.functionsAt pf = [pf] := by
  obtain ⟨link, found, vfs, plain, -⟩ := handsOut
  simp [functionsAt, found, vfs, plain]

theorem filterCarrier_of_handsOut (handsOut : topo.HandsOut pf) : topo.filterCarrier pf = pf := by
  obtain ⟨link, found, -, -, ends⟩ := handsOut
  apply (filterCarrier_exact topo pf).2 pf .refl
  rw [below, found]
  exact ends

/-- Where an interface has functions of its own, those are the functions behind it. -/
theorem mem_physicalFunctions_of_own {index : Index} (own : topo.functionsAt index ≠ []) :
    pf ∈ topo.physicalFunctions index ↔ pf ∈ topo.functionsAt index := by
  rw [(physicalFunctions_exact topo index).2.2]
  constructor
  · intro ⟨node, path, listed⟩
    cases path.cases_head with
    | inl same => rwa [same]
    | inr more =>
        obtain ⟨further, spreads, -⟩ := more
        exact absurd spreads.empty own
  · intro listed
    exact ⟨index, .refl, listed⟩

/-- A physical function is the only one behind itself. -/
theorem mem_physicalFunctions_self (handsOut : topo.HandsOut pf) {other : Index} :
    other ∈ topo.physicalFunctions (topo.filterCarrier pf) ↔ other = pf := by
  have own := functionsAt_of_handsOut handsOut
  rw [filterCarrier_of_handsOut handsOut, mem_physicalFunctions_of_own (by simp [own]), own,
    List.mem_singleton]

theorem handsOut_of_mem (listed : topo.FunctionsHandOut) {index : Index}
    (member : pf ∈ topo.physicalFunctions index) : topo.HandsOut pf := by
  obtain ⟨node, -, there⟩ := ((physicalFunctions_exact topo index).2.2 pf).mp member
  exact listed node pf there

end Functions

/-- A device under a bridge has an anatomy there. -/
theorem anatomy_of_bridgeAbove {dev bridge port : Index}
    (above : topo.bridgeAbove dev = some (bridge, port)) :
    ∃ anatomy, topo.anatomy dev bridge = some anatomy := by
  rw [anatomy, uplinkPort, above]
  simp

/-- A physical function under a bridge claims it: no function but itself is behind it. -/
theorem claimOf_handsOut {pf bridge port : Index} (handsOut : topo.HandsOut pf)
    (above : topo.bridgeAbove pf = some (bridge, port)) :
    ∃ link, topo.linkAt pf = some link ∧ ∃ functions, pf ∈ functions ∧
      topo.claimOf link = some ⟨functions, bridge, link.name, link.index⟩ := by
  have self := @mem_physicalFunctions_self topo pf handsOut
  obtain ⟨link, found, vfs, -, -⟩ := handsOut
  obtain ⟨anatomy, known⟩ := anatomy_of_bridgeAbove above
  have behind := anatomy_functions known
  have index := index_of_linkAt found
  refine ⟨link, found, anatomy.functions, ?_, claimOf_eq_some.mpr ⟨?_, port, ?_, anatomy, ?_, ?_, rfl⟩⟩
  · rw [behind, self]
  · simp [couldBeUplink, vfs]
  · rw [index, above]
  · rw [index, known]
  · rw [carriedBy_eq_none]
    intro other member apart
    rw [behind, self, ← index] at member
    exact absurd member apart

section Covering

variable {sorted : List Link} {link : Link}

/-- A claim is taken, or it has a rival that was. -/
theorem taken_or_rival (inOrder : topo.SortedByName sorted) (member : link ∈ topo.links)
    {claim : Taken} (claims : topo.claimOf link = some claim) :
    claim ∈ (topo.autodetect sorted).taken ∨
      ∃ earlier ∈ (topo.autodetect sorted).taken, topo.Rivals earlier claim := by
  have listed : claim ∈ sorted.filterMap topo.claimOf :=
    List.mem_filterMap.mpr ⟨link, inOrder.perm.mem_iff.mpr member, claims⟩
  rw [(autodetect_taken sorted).1]
  exact firstCome_answers topo.Rivals listed

/-- What was taken is some interface's claim. -/
theorem claim_of_taken (inOrder : topo.SortedByName sorted) {taken : Taken}
    (member : taken ∈ (topo.autodetect sorted).taken) :
    ∃ uplink ∈ topo.links, topo.claimOf uplink = some taken := by
  rw [(autodetect_taken sorted).1] at member
  have listed := (mem_of_mem_firstCome topo.Rivals member).resolve_left List.not_mem_nil
  obtain ⟨uplink, present, claims⟩ := List.mem_filterMap.mp listed
  exact ⟨uplink, inOrder.perm.mem_iff.mp present, claims⟩

/-- The functions a claim names are those behind the interface that makes it. -/
theorem claim_functions {uplink : Link} {taken : Taken} (claims : topo.claimOf uplink = some taken) :
    taken.functions = topo.physicalFunctions (topo.filterCarrier uplink.index) ∧
      taken.uplink = uplink.name := by
  obtain ⟨-, _, -, anatomy, known, -, same⟩ := claimOf_eq_some.mp claims
  rw [same]
  exact ⟨anatomy_functions known, rfl⟩

/-- A physical function under a bridge is taken: a rival of another interface would have
been turned away for it. -/
theorem handsOut_taken (inOrder : topo.SortedByName sorted) {pf bridge port : Index}
    (handsOut : topo.HandsOut pf) (above : topo.bridgeAbove pf = some (bridge, port)) :
    ∃ uplink ∈ topo.links, uplink.index = pf ∧ ∃ taken ∈ (topo.autodetect sorted).taken,
      topo.claimOf uplink = some taken ∧ taken.bridge = bridge ∧ pf ∈ taken.functions := by
  obtain ⟨link, found, functions, own, claims⟩ := claimOf_handsOut handsOut above
  have member := mem_of_linkAt found
  have index := index_of_linkAt found
  suffices ⟨functions, bridge, link.name, link.index⟩ ∈ (topo.autodetect sorted).taken from
    ⟨link, member, index, _, this, claims, rfl, own⟩
  cases taken_or_rival inOrder member claims with
  | inl taken => exact taken
  | inr rivalled =>
      obtain ⟨earlier, taken, related, function, one, other⟩ := rivalled
      obtain ⟨uplink, present, claimed⟩ := claim_of_taken inOrder taken
      have same : function = pf := by
        have behind := (claim_functions claims).1
        rw [index] at behind
        exact (mem_physicalFunctions_self handsOut).mp (behind ▸ other)
      subst same
      by_cases self : function = uplink.index
      · have again : uplink = link :=
          List.inj_on_of_nodup_map topo.distinct present member (self.symm.trans index.symm)
        rw [again, claims] at claimed
        cases claimed
        exact taken
      · obtain ⟨-, _, -, anatomy, -, free, named⟩ := claimOf_eq_some.mp claimed
        have functions : function ∈ anatomy.functions := by rwa [named] at one
        have apart := carriedBy_eq_none.mp free function functions self bridge port above
        rw [stackedRelated_comm, related] at apart
        cases apart

/-- What stands behind a candidate, or what it names where it is a function itself. -/
theorem functions_of_candidate (listed : topo.FunctionsHandOut) (member : link ∈ topo.links)
    (could : topo.couldBeUplink link = true) :
    (∃ pf, topo.FunctionOf pf link.index) ∧
      (link.pfNetdevs = [] ∨ link.filterBelow = none →
        ∃ pf, pf ∈ topo.physicalFunctions (topo.filterCarrier link.index)) := by
  have found := linkAt_of_mem member
  by_cases named : topo.functionsAt link.index = []
  · have behind : ∃ pf, pf ∈ topo.physicalFunctions (topo.filterCarrier link.index) := by
      have none : ¬ (0 < link.numvfs ∨ link.pfNetdevs ≠ []) := by
        rw [functionsAt, found] at named
        by_cases own : link.pfNetdevs = [] <;> simp_all
      rw [couldBeUplink, if_neg none] at could
      simp only [Bool.and_eq_true, decide_eq_true_eq] at could
      exact List.exists_mem_of_ne_nil _ could.2
    obtain ⟨pf, there⟩ := behind
    exact ⟨⟨pf, .inr there⟩, fun _ => ⟨pf, there⟩⟩
  · obtain ⟨pf, there⟩ := List.exists_mem_of_ne_nil _ named
    refine ⟨⟨pf, .inl there⟩, ?_⟩
    intro plain
    have carrier : topo.filterCarrier link.index = link.index := by
      apply (filterCarrier_exact topo link.index).2 _ .refl
      rw [below, found]
      cases plain with
      | inr none => exact none
      | inl noVf =>
          have self : topo.functionsAt link.index = [link.index] := by
            rw [functionsAt, found] at named ⊢
            by_cases vfs : 0 < link.numvfs <;> simp_all
          obtain ⟨own, ownFound, -, -, ends⟩ := listed link.index link.index (by simp [self])
          cases found.symm.trans ownFound
          exact ends
    rw [carrier]
    exact ⟨pf, (mem_physicalFunctions_of_own named).mpr there⟩

/-- Wherever functions are what they are listed as, every candidate under a bridge shares a
function with an uplink that was given the bridge or one of its segment.  The shared
function stands behind both, unless the candidate is a virtual function and a VLAN at
once. -/
theorem autodetect_covers (inOrder : topo.SortedByName sorted) (listed : topo.FunctionsHandOut)
    (member : link ∈ topo.links) (could : topo.couldBeUplink link = true)
    {bridge port : Index} (above : topo.bridgeAbove link.index = some (bridge, port)) :
    ∃ uplink ∈ topo.links, ∃ carrier,
      (uplink.name, (topo.nameOf carrier).getD "") ∈ (topo.autodetect sorted).pairs ∧
      topo.SharesFunction uplink.index link.index ∧
      topo.stackedRelated carrier bridge = true ∧
      (link.pfNetdevs = [] ∨ link.filterBelow = none →
        ∃ pf ∈ topo.physicalFunctions (topo.filterCarrier uplink.index),
          pf ∈ topo.physicalFunctions (topo.filterCarrier link.index)) := by
  have reported {uplink : Link} {taken : Taken} (claims : topo.claimOf uplink = some taken)
      (there : taken ∈ (topo.autodetect sorted).taken) :
      (uplink.name, (topo.nameOf taken.bridge).getD "") ∈ (topo.autodetect sorted).pairs := by
    rw [(autodetect_taken sorted).2, List.mem_map]
    exact ⟨taken, there, by rw [pairOf, (claim_functions claims).2]⟩
  obtain ⟨anatomy, known⟩ := anatomy_of_bridgeAbove above
  have behind := anatomy_functions known
  cases carried : topo.carriedBy link anatomy bridge with
  | some pf =>
      have inFunctions := List.mem_of_find?_eq_some carried
      rw [behind] at inFunctions
      have carries := List.find?_some carried
      simp only [Bool.and_eq_true, Option.any_eq_true, Prod.exists] at carries
      obtain ⟨-, above, under, pfAbove, related⟩ := carries
      have handsOut := handsOut_of_mem listed inFunctions
      obtain ⟨uplink, present, index, taken, there, claims, sameBridge, -⟩ :=
        handsOut_taken inOrder handsOut pfAbove
      have self : pf ∈ topo.physicalFunctions (topo.filterCarrier uplink.index) := by
        rw [index, mem_physicalFunctions_self handsOut]
      refine ⟨uplink, present, taken.bridge, reported claims there, ⟨pf, .inr self, .inr inFunctions⟩,
        ?_, fun _ => ⟨pf, self, inFunctions⟩⟩
      rw [sameBridge]
      exact related
  | none =>
      have claims : topo.claimOf link = some ⟨anatomy.functions, bridge, link.name, link.index⟩ :=
        claimOf_eq_some.mpr ⟨could, port, above, anatomy, known, carried, rfl⟩
      cases taken_or_rival inOrder member claims with
      | inl taken =>
          obtain ⟨⟨pf, own⟩, strict⟩ := functions_of_candidate listed member could
          refine ⟨link, member, bridge, reported claims taken, ⟨pf, own, own⟩, ?_, ?_⟩
          · simp [stackedRelated]
          · intro plain
            obtain ⟨pf, there⟩ := strict plain
            exact ⟨pf, there, there⟩
      | inr rivalled =>
          obtain ⟨earlier, taken, related, function, one, other⟩ := rivalled
          obtain ⟨uplink, present, claimed⟩ := claim_of_taken inOrder taken
          rw [(claim_functions claimed).1] at one
          simp only [behind] at other
          exact ⟨uplink, present, earlier.bridge, reported claimed taken,
            ⟨function, .inr one, .inr other⟩, related, fun _ => ⟨function, one, other⟩⟩

end Covering

end Topology

/-- A second virtual function on the bridge its physical function carries. -/
def carriedTopology : Topology where
  links := [
    { name := "br0", index := 10, isBridge := true, lowers := [1, 2] },
    { name := "pf0", index := 1, numvfs := 1, master := some 10, vfNetdevs := [2] },
    { name := "vfa", index := 2, master := some 10, pfNetdevs := [1] }]
  distinct := by decide

theorem carried_functionsHandOut : carriedTopology.FunctionsHandOut := by
  intro index pf listed
  have known : index ∈ [10, 1, 2] := by
    by_contra unknown
    have absent : carriedTopology.linkAt index = none := by
      simp [Topology.linkAt, carriedTopology]
      simp at unknown
      grind
    simp [Topology.functionsAt, absent] at listed
  have pf0 : carriedTopology.HandsOut 1 := ⟨_, rfl, by decide, rfl, rfl⟩
  simp only [List.mem_cons, List.not_mem_nil, or_false] at known
  rcases known with rfl | rfl | rfl
  · cases listed
  · cases List.mem_singleton.mp listed
    exact pf0
  · cases List.mem_singleton.mp listed
    exact pf0

theorem autodetect_covers_carried :
    ∃ uplink ∈ carriedTopology.links, ∃ carrier,
      (uplink.name, (carriedTopology.nameOf carrier).getD "") ∈
        (carriedTopology.autodetect carriedTopology.links).pairs ∧
      carriedTopology.SharesFunction uplink.index 2 ∧
      carriedTopology.stackedRelated carrier 10 = true ∧
      (([1] : List Index) = [] ∨ (none : Option Index) = none →
        ∃ pf ∈ carriedTopology.physicalFunctions (carriedTopology.filterCarrier uplink.index),
          pf ∈ carriedTopology.physicalFunctions (carriedTopology.filterCarrier 2)) := by
  have inOrder : carriedTopology.SortedByName carriedTopology.links :=
    ⟨.refl _, by decide +kernel⟩
  exact Topology.autodetect_covers inOrder carried_functionsHandOut
    (List.mem_cons_of_mem _ (List.mem_cons_of_mem _ (List.mem_cons_self ..)))
    (by decide +kernel) (show carriedTopology.bridgeAbove 2 = some (10, 2) by decide +kernel)

end SriovMacSync
