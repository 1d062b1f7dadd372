import Mathlib.Data.List.Nodup
import Mathlib.Data.List.Pairwise
import SriovMacSync.Data.FirstCome
import SriovMacSync.Topology.Anatomy

namespace SriovMacSync

open Data Netlink

/-! # The uplinks a host has

Two vports of one function must not both claim a bridge's addresses.  Which of them
gets a bridge is arbitrary, so the first in name order does. -/

/-- An uplink that was given a bridge. -/
structure Taken where
  functions : List Index
  bridge : Index
  /-- the uplink's name -/
  uplink : Name
  dev : Index
deriving DecidableEq, Repr

structure Detected where
  pairs : List (Name × Name) := []
  taken : List Taken := []
  skipped : List String := []
deriving DecidableEq, Repr

namespace Topology

variable (topo : Topology)

/-- A card of its own, or a VLAN interface with a card below. -/
def couldBeUplink (link : Link) : Bool :=
  if 0 < link.numvfs ∨ link.pfNetdevs ≠ [] then true
  else
    link.filterBelow.isSome && topo.physicalFunctions (topo.filterCarrier link.index) ≠ []

/-- Whether two bridges are one segment: the same, or one stacked on the other. -/
def stackedRelated (first second : Index) : Bool :=
  first == second || (topo.reach first).stackedBridges.contains second ||
    (topo.reach second).stackedBridges.contains first

/-- A physical function of an uplink that itself carries the uplink's segment. -/
def carriedBy (link : Link) (anatomy : Anatomy) (bridge : Index) : Option Index :=
  anatomy.functions.find? fun pf =>
    pf != link.index && (topo.bridgeAbove pf).any fun (above, _) => topo.stackedRelated above bridge

/-- An earlier uplink of one function on one segment. -/
def Rivals (earlier later : Taken) : Prop :=
  topo.stackedRelated earlier.bridge later.bridge = true ∧
    ∃ function ∈ earlier.functions, function ∈ later.functions

instance : DecidableRel topo.Rivals := fun _ _ =>
  inferInstanceAs (Decidable (_ ∧ _))

def detect (found : Detected) (link : Link) : Detected :=
  if !topo.couldBeUplink link then found
  else
    match topo.bridgeAbove link.index with
    | none =>
        if 0 < link.numvfs then
          { found with
            skipped := found.skipped ++
              [s!"skip {link.name}: {link.numvfs} VF(s) but does not end up in a bridge"] }
        else found
    | some (bridge, port) =>
        match topo.anatomy link.index bridge with
        | none => found
        | some anatomy =>
            let bridgeName := (topo.nameOf bridge).getD ""
            match topo.carriedBy link anatomy bridge with
            | some pf =>
                let pfName := (topo.nameOf pf).getD ""
                { found with
                  skipped := found.skipped ++
                    [s!"skip {link.name}: {pfName} already carries {bridgeName}"] }
            | none =>
                let wanted : Taken := ⟨anatomy.functions, bridge, link.name, link.index⟩
                match found.taken.find? (topo.Rivals · wanted) with
                | some earlier =>
                    { found with
                      skipped := found.skipped ++
                        [s!"skip {link.name}: {earlier.uplink} of the same function already carries {bridgeName} - two vports of one eSwitch cannot both claim the same addresses"] }
                | none =>
                    let portName := (topo.nameOf port).getD ""
                    { pairs := found.pairs ++ [(link.name, bridgeName)]
                      taken := found.taken ++ [wanted]
                      skipped :=
                        if port ≠ link.index then
                          found.skipped ++ [s!"{link.name} reaches {bridgeName} through {portName}"]
                        else found.skipped }

/-- The pairs a host wants, its interfaces seen in name order. -/
def autodetect (sorted : List Link) : Detected := sorted.foldl topo.detect {}

/-- The interfaces in name order. -/
structure SortedByName (sorted : List Link) : Prop where
  perm : sorted.Perm topo.links
  ordered : sorted.Pairwise fun first second => first.name ≤ second.name

/-- What an interface would take if nobody had been there before it. -/
def claimOf (link : Link) : Option Taken :=
  if topo.couldBeUplink link then
    match topo.bridgeAbove link.index with
    | some (bridge, _) =>
        match topo.anatomy link.index bridge with
        | some anatomy =>
            if topo.carriedBy link anatomy bridge = none then
              some ⟨anatomy.functions, bridge, link.name, link.index⟩
            else none
        | none => none
    | none => none
  else none

/-- The pair an uplink with its bridge is reported as. -/
def pairOf (taken : Taken) : Name × Name := (taken.uplink, (topo.nameOf taken.bridge).getD "")

variable {topo}

theorem claimOf_dev {link : Link} {taken : Taken} (claims : topo.claimOf link = some taken) :
    taken.dev = link.index := by
  unfold claimOf at claims
  split at claims
  · split at claims
    · split at claims
      · split at claims
        · cases claims
          rfl
        · cases claims
      · cases claims
    · cases claims
  · cases claims

/-- What one interface adds to what was found before it. -/
theorem detect_taken (found : Detected) (link : Link)
    (reported : found.pairs = found.taken.map topo.pairOf) :
    (topo.detect found link).taken =
        firstCome topo.Rivals found.taken (topo.claimOf link).toList ∧
      (topo.detect found link).pairs = (topo.detect found link).taken.map topo.pairOf := by
  rw [detect, claimOf]
  cases candidate : topo.couldBeUplink link with
  | false => exact ⟨rfl, reported⟩
  | true =>
      cases above : topo.bridgeAbove link.index with
      | none =>
          simp only [Bool.not_true, Bool.false_eq_true, if_false]
          split <;> exact ⟨rfl, reported⟩
      | some enters =>
          obtain ⟨bridge, port⟩ := enters
          simp only [Bool.not_true, Bool.false_eq_true, if_false, if_true]
          cases known : topo.anatomy link.index bridge with
          | none => exact ⟨rfl, reported⟩
          | some anatomy =>
              cases carried : topo.carriedBy link anatomy bridge with
              | some pf =>
                  simp only [carried]
                  exact ⟨rfl, reported⟩
              | none =>
                  simp only [carried, if_true, Option.toList_some, firstCome]
                  split
                  · rename_i earlier first
                    have rival := List.find?_some first
                    rw [if_pos ⟨earlier, List.mem_of_find?_eq_some first,
                      of_decide_eq_true rival⟩]
                    exact ⟨rfl, reported⟩
                  · rename_i free
                    have unrivalled : ¬ ∃ earlier ∈ found.taken,
                        topo.Rivals earlier ⟨anatomy.functions, bridge, link.name, link.index⟩ := by
                      rintro ⟨earlier, member, rival⟩
                      exact List.find?_eq_none.mp free earlier member (decide_eq_true rival)
                    rw [if_neg unrivalled]
                    exact ⟨rfl, by simp [reported, pairOf]⟩

/-- The uplinks are served in the order they are seen in. -/
theorem autodetect_taken (sorted : List Link) :
    (topo.autodetect sorted).taken =
        firstCome topo.Rivals [] (sorted.filterMap topo.claimOf) ∧
      (topo.autodetect sorted).pairs = (topo.autodetect sorted).taken.map topo.pairOf := by
  induction sorted using List.reverseRecOn with
  | nil => exact ⟨rfl, rfl⟩
  | append_singleton sorted link ih =>
      obtain ⟨taken, reported⟩ := ih
      have step := detect_taken (topo.autodetect sorted) link reported
      rw [autodetect, List.foldl_append]
      change (topo.detect (topo.autodetect sorted) link).taken = _ ∧ _
      refine ⟨?_, step.2⟩
      rw [step.1, taken, ← firstCome_append, List.filterMap_append]
      congr 2

theorem claims_sublist (sorted : List Link) :
    ((sorted.filterMap topo.claimOf).map (·.dev)).Sublist (sorted.map (·.index)) := by
  induction sorted with
  | nil => exact .slnil
  | cons link rest ih =>
      cases claims : topo.claimOf link with
      | none =>
          rw [List.filterMap_cons_none claims]
          exact ih.cons _
      | some taken =>
          rw [List.filterMap_cons_some claims, List.map_cons, List.map_cons, claimOf_dev claims]
          exact ih.cons_cons _

/-- No interface claims twice. -/
theorem SortedByName.nodup_claims {sorted : List Link} (inOrder : topo.SortedByName sorted) :
    (sorted.filterMap topo.claimOf).Nodup := by
  have distinct : (sorted.map (·.index)).Nodup :=
    (inOrder.perm.map (·.index)).nodup_iff.mpr topo.distinct
  exact (distinct.sublist (claims_sublist sorted)).of_map _

theorem stackedRelated_comm (first second : Index) :
    topo.stackedRelated first second = topo.stackedRelated second first := by
  rw [stackedRelated, stackedRelated, Bool.or_right_comm, Bool.beq_comm]

/-- Two bridges of different segments reach a bridge in common where one is stacked
on both. -/
theorem reaches_common {first second bridge : Index}
    (apart : topo.stackedRelated first second = false) :
    ((topo.reach first).reaches bridge = true ∧ (topo.reach second).reaches bridge = true) ↔
      bridge ∈ (topo.reach first).stackedBridges ∧
        bridge ∈ (topo.reach second).stackedBridges := by
  simp only [stackedRelated, Bool.or_eq_false_iff, beq_eq_false_iff_ne, List.contains_eq_mem,
    decide_eq_false_iff_not] at apart
  obtain ⟨⟨different, notAbove⟩, notBelow⟩ := apart
  simp only [Reach.reaches, Bool.or_eq_true, beq_iff_eq, List.contains_eq_mem,
    decide_eq_true_eq]
  constructor
  · rintro ⟨rfl | above, same | above'⟩
    · exact absurd same different
    · exact absurd above' notBelow
    · obtain rfl : bridge = second := same
      exact absurd above notAbove
    · exact ⟨above, above'⟩
  · rintro ⟨above, above'⟩
    exact ⟨.inr above, .inr above'⟩

end Topology

/-- Two uplinks one physical function stands behind. -/
def Taken.Shares (first second : Taken) : Prop :=
  ∃ function ∈ first.functions, function ∈ second.functions

/-- The detected uplinks of one function reach no bridge in common exactly where no
bridge is stacked on the bridges of two that are entitled to theirs. -/
theorem detected_uplinks_stay_apart {topo : Topology} {sorted : List Link}
    (inOrder : topo.SortedByName sorted) {stands : Taken → Prop}
    (served : FirstServed topo.Rivals (sorted.filterMap topo.claimOf) stands) :
    (topo.autodetect sorted).pairs = (topo.autodetect sorted).taken.map topo.pairOf ∧
      ((topo.autodetect sorted).taken.Pairwise (fun first second => first.Shares second →
          ∀ bridge, ¬ ((topo.reach first.bridge).reaches bridge ∧
            (topo.reach second.bridge).reaches bridge)) ↔
        ∀ first ∈ sorted.filterMap topo.claimOf, ∀ second ∈ sorted.filterMap topo.claimOf,
          stands first → stands second → first ≠ second → first.Shares second →
            ∀ bridge, ¬ (bridge ∈ (topo.reach first.bridge).stackedBridges ∧
              bridge ∈ (topo.reach second.bridge).stackedBridges)) := by
  classical
  obtain ⟨chosen, reported⟩ := @Topology.autodetect_taken topo sorted
  refine ⟨reported, ?_⟩
  rw [chosen, firstCome_eq_filter served]
  have unrivalled := @firstCome_pairwise _ topo.Rivals _ [] (sorted.filterMap topo.claimOf) List.Pairwise.nil
  rw [firstCome_eq_filter served] at unrivalled
  have sharesSymm {first second : Taken} (shares : first.Shares second) : second.Shares first := by
    obtain ⟨function, one, other⟩ := shares
    exact ⟨function, other, one⟩
  have rivalSymm : Std.Symm fun first second => ¬ topo.Rivals first second := by
    refine ⟨fun first second free rival => free ⟨?_, sharesSymm rival.2⟩⟩
    rw [Topology.stackedRelated_comm]
    exact rival.1
  have disjointSymm : Std.Symm fun first second : Taken => first.Shares second →
      ∀ bridge, ¬ ((topo.reach first.bridge).reaches bridge = true ∧
        (topo.reach second.bridge).reaches bridge = true) :=
    ⟨fun _ _ none shares bridge both => none (sharesSymm shares) bridge both.symm⟩
  have apart {first second : Taken} (one : first ∈ (sorted.filterMap topo.claimOf).filter stands)
      (other : second ∈ (sorted.filterMap topo.claimOf).filter stands) (different : first ≠ second)
      (shares : first.Shares second) :
      topo.stackedRelated first.bridge second.bridge = false := by
    have never := unrivalled.forall one other different
    exact Bool.eq_false_iff.mpr fun related => never ⟨related, shares⟩
  constructor
  · intro disjoint first listed second listed' standing standing' different shares bridge
    have one : first ∈ (sorted.filterMap topo.claimOf).filter stands :=
      List.mem_filter.mpr ⟨listed, by simpa using standing⟩
    have other : second ∈ (sorted.filterMap topo.claimOf).filter stands :=
      List.mem_filter.mpr ⟨listed', by simpa using standing'⟩
    rw [← Topology.reaches_common (apart one other different shares)]
    exact disjoint.forall one other different shares bridge
  · intro clear
    refine (inOrder.nodup_claims.filter _).pairwise_of_forall_ne fun first one second other => ?_
    intro different shares bridge
    rw [Topology.reaches_common (apart one other different shares)]
    obtain ⟨listed, standing⟩ := List.mem_filter.mp one
    obtain ⟨listed', standing'⟩ := List.mem_filter.mp other
    exact clear first listed second listed' (of_decide_eq_true standing)
      (of_decide_eq_true standing') different shares bridge

/-- Two functions of one card on bridges of their own, and a VLAN of each bridge on a
third. -/
def diamondTopology : Topology where
  links := [
    { name := "br0", index := 10, isBridge := true, lowers := [2] },
    { name := "br0.10", index := 20, master := some 12, lowers := [10], filterBelow := some 10 },
    { name := "br1", index := 11, isBridge := true, lowers := [3] },
    { name := "br1.10", index := 21, master := some 12, lowers := [11], filterBelow := some 11 },
    { name := "br2", index := 12, isBridge := true, lowers := [20, 21] },
    { name := "pf0", index := 1, numvfs := 2, vfNetdevs := [2, 3] },
    { name := "vfa", index := 2, master := some 10, pfNetdevs := [1] },
    { name := "vfb", index := 3, master := some 11, pfNetdevs := [1] }]
  distinct := by decide

theorem diamond_sorted : diamondTopology.SortedByName diamondTopology.links where
  perm := .refl _
  ordered := by decide +kernel

theorem diamond_is_claimed_twice :
    ¬ ∀ (topo : Topology) (sorted : List Link), topo.SortedByName sorted →
      (topo.autodetect sorted).taken.Pairwise fun first second => first.Shares second →
        ∀ bridge, ¬ ((topo.reach first.bridge).reaches bridge = true ∧
          (topo.reach second.bridge).reaches bridge = true) := by
  intro disjoint
  have both : (diamondTopology.autodetect diamondTopology.links).taken =
      [⟨[1], 10, "vfa", 2⟩, ⟨[1], 11, "vfb", 3⟩] := by
    decide +kernel
  have apart := disjoint diamondTopology diamondTopology.links diamond_sorted
  rw [both, List.pairwise_pair] at apart
  exact apart ⟨1, by decide, by decide⟩ 12 (by decide +kernel)

theorem detected_uplinks_stay_apart_diamond :
    (diamondTopology.autodetect diamondTopology.links).pairs =
        (diamondTopology.autodetect diamondTopology.links).taken.map diamondTopology.pairOf ∧
      ((diamondTopology.autodetect diamondTopology.links).taken.Pairwise (fun first second =>
          first.Shares second →
            ∀ bridge, ¬ ((diamondTopology.reach first.bridge).reaches bridge ∧
              (diamondTopology.reach second.bridge).reaches bridge)) ↔
        ∀ first ∈ diamondTopology.links.filterMap diamondTopology.claimOf,
          ∀ second ∈ diamondTopology.links.filterMap diamondTopology.claimOf,
            first ∈ firstCome diamondTopology.Rivals []
              (diamondTopology.links.filterMap diamondTopology.claimOf) →
            second ∈ firstCome diamondTopology.Rivals []
              (diamondTopology.links.filterMap diamondTopology.claimOf) →
            first ≠ second → first.Shares second →
              ∀ bridge, ¬ (bridge ∈ (diamondTopology.reach first.bridge).stackedBridges ∧
                bridge ∈ (diamondTopology.reach second.bridge).stackedBridges)) :=
  detected_uplinks_stay_apart diamond_sorted
    (firstServed_firstCome diamond_sorted.nodup_claims)

end SriovMacSync
