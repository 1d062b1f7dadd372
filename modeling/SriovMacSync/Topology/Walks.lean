import Mathlib.Algebra.Order.BigOperators.Group.Finset
import SriovMacSync.Topology.Anatomy

namespace SriovMacSync

open Data Netlink

/-! # What a walk finds

A flood is closed under its edges: the fuel covers every one of them, so nothing that
hangs on what was found is left out. -/

namespace Topology

variable {topo : Topology} {next : Index → List Index}

/-- The edges a flood has not followed yet. -/
def pending (topo : Topology) (next : Index → List Index) (seen : Finset Index) : Nat :=
  ∑ index ∈ (topo.links.map (·.index)).toFinset \ seen, (next index).length

theorem pending_empty :
    pending topo next ∅ = (topo.links.map fun link => (next link.index).length).sum := by
  rw [pending, Finset.sdiff_empty, List.sum_toFinset _ topo.distinct, List.map_map]
  rfl

theorem pending_insert {index : Index} {seen : Finset Index} (known : (topo.linkAt index).isSome)
    (fresh : index ∉ seen) :
    (next index).length + pending topo next (insert index seen) = pending topo next seen := by
  obtain ⟨link, found⟩ := Option.isSome_iff_exists.mp known
  have listed : index ∈ (topo.links.map (·.index)).toFinset \ seen := by
    rw [Finset.mem_sdiff, List.mem_toFinset]
    exact ⟨List.mem_map.mpr ⟨link, mem_of_linkAt found, index_of_linkAt found⟩, fresh⟩
  rw [pending, pending, Finset.sdiff_insert]
  exact Finset.add_sum_erase _ (fun index => (next index).length) listed

/-- What a flood is still to look at, and what it has followed. -/
structure Flooding (topo : Topology) (next : Index → List Index) (fuel : Nat)
    (stack : List Index) (seen : Finset Index) : Prop where
  room : stack.length + pending topo next seen ≤ fuel
  followed : ∀ index ∈ seen, (topo.linkAt index).isSome → ∀ child ∈ next index,
    child ∈ seen ∨ child ∈ stack

theorem Flooding.skip {fuel : Nat} {current : Index} {stack : List Index} {seen : Finset Index}
    (flooding : Flooding topo next (fuel + 1) (current :: stack) seen) (again : current ∈ seen) :
    Flooding topo next fuel stack seen where
  room := by
    have room := flooding.room
    rw [List.length_cons] at room
    omega
  followed index found known child edge := by
    rcases flooding.followed index found known child edge with there | queued
    · exact .inl there
    · rcases List.mem_cons.mp queued with rfl | queued
      · exact .inl again
      · exact .inr queued

/-- Looking at an interface queues what hangs on it. -/
theorem Flooding.follow {fuel : Nat} {current : Index} {stack : List Index} {seen : Finset Index}
    (flooding : Flooding topo next (fuel + 1) (current :: stack) seen) (fresh : current ∉ seen)
    (known : (topo.linkAt current).isSome) :
    Flooding topo next fuel ((next current).reverse ++ stack) (insert current seen) where
  room := by
    have room := flooding.room
    have fewer := @pending_insert topo next current seen known fresh
    rw [List.length_cons] at room
    rw [List.length_append, List.length_reverse]
    omega
  followed index found known child edge := by
    rcases Finset.mem_insert.mp found with rfl | earlier
    · exact .inr (List.mem_append_left _ (List.mem_reverse.mpr edge))
    · rcases flooding.followed index earlier known child edge with there | queued
      · exact .inl (Finset.mem_insert_of_mem there)
      · rcases List.mem_cons.mp queued with rfl | queued
        · exact .inl (Finset.mem_insert_self ..)
        · exact .inr (List.mem_append_right _ queued)

/-- An interface the reading does not know has nothing hanging on it. -/
theorem Flooding.pass {fuel : Nat} {current : Index} {stack : List Index} {seen : Finset Index}
    (flooding : Flooding topo next (fuel + 1) (current :: stack) seen)
    (unknown : ¬ (topo.linkAt current).isSome) :
    Flooding topo next fuel stack (insert current seen) where
  room := by
    have room := flooding.room
    have fewer : pending topo next (insert current seen) ≤ pending topo next seen :=
      Finset.sum_le_sum_of_subset (Finset.sdiff_subset_sdiff subset_rfl (Finset.subset_insert ..))
    rw [List.length_cons] at room
    omega
  followed index found known child edge := by
    rcases Finset.mem_insert.mp found with rfl | earlier
    · exact absurd known unknown
    · rcases flooding.followed index earlier known child edge with there | queued
      · exact .inl (Finset.mem_insert_of_mem there)
      · rcases List.mem_cons.mp queued with rfl | queued
        · exact .inl (Finset.mem_insert_self ..)
        · exact .inr queued

theorem floodFrom_closed {fuel : Nat} {stack : List Index} {seen : Finset Index}
    (flooding : Flooding topo next fuel stack seen) :
    (∀ index, index ∈ seen ∨ index ∈ stack → index ∈ topo.floodFrom next fuel stack seen) ∧
      ∀ index ∈ topo.floodFrom next fuel stack seen, (topo.linkAt index).isSome →
        ∀ child ∈ next index, child ∈ topo.floodFrom next fuel stack seen := by
  have ended {fuel : Nat} {seen : Finset Index} (flooding : Flooding topo next fuel [] seen) :
      (∀ index, index ∈ seen ∨ index ∈ ([] : List Index) → index ∈ seen) ∧
        ∀ index ∈ seen, (topo.linkAt index).isSome → ∀ child ∈ next index, child ∈ seen :=
    ⟨fun index found => found.resolve_right List.not_mem_nil,
      fun index found known child edge =>
        (flooding.followed index found known child edge).resolve_right List.not_mem_nil⟩
  induction fuel generalizing stack seen with
  | zero =>
      obtain rfl : stack = [] := List.eq_nil_of_length_eq_zero (by have := flooding.room; omega)
      exact ended flooding
  | succ fuel ih =>
      cases stack with
      | nil => exact ended flooding
      | cons current stack =>
          rw [floodFrom]
          split
          · rename_i again
            obtain ⟨grows, closed⟩ := ih (flooding.skip again)
            refine ⟨fun index found => grows index ?_, closed⟩
            rcases found with there | queued
            · exact .inl there
            · exact (List.mem_cons.mp queued).imp (fun same : index = current => same ▸ again) id
          · rename_i fresh
            split
            · rename_i known
              obtain ⟨grows, closed⟩ := ih (flooding.follow fresh known)
              refine ⟨fun index found => grows index ?_, closed⟩
              rcases found with there | queued
              · exact .inl (Finset.mem_insert_of_mem there)
              · exact (List.mem_cons.mp queued).imp
                  (fun same : index = current => same ▸ Finset.mem_insert_self ..)
                  (List.mem_append_right _)
            · rename_i unknown
              obtain ⟨grows, closed⟩ := ih (flooding.pass unknown)
              refine ⟨fun index found => grows index ?_, closed⟩
              rcases found with there | queued
              · exact .inl (Finset.mem_insert_of_mem there)
              · exact (List.mem_cons.mp queued).imp
                  (fun same : index = current => same ▸ Finset.mem_insert_self ..) id

theorem flooding_start (roots : List Index) :
    Flooding topo next (topo.fuel next roots) roots.reverse ∅ where
  room := by
    rw [pending_empty, List.length_reverse, fuel]
    omega
  followed := nofun

theorem mem_flood_of_root {roots : List Index} {root : Index} (member : root ∈ roots) :
    root ∈ topo.flood roots next :=
  (floodFrom_closed (flooding_start roots)).1 root (.inr (List.mem_reverse.mpr member))

/-- What hangs on something found is found. -/
theorem mem_flood_of_edge {roots : List Index} {index child : Index}
    (found : index ∈ topo.flood roots next) (known : (topo.linkAt index).isSome)
    (edge : child ∈ next index) : child ∈ topo.flood roots next :=
  (floodFrom_closed (flooding_start roots)).2 index found known child edge

/-- Every enslaved interface is among what its master is stacked on: a master relation
is a lower relation seen from the other side. -/
def Mirrors (topo : Topology) : Prop :=
  ∀ link ∈ topo.links, ∀ master, link.master = some master → (topo.linkAt master).isSome →
    link.index ∈ topo.lowersOf master

/-- Whatever hangs under a bridge's port through its masters is under it. -/
theorem mem_subtreeOf_of_bridgeAbove (mirrors : topo.Mirrors) {dev bridge port : Index}
    (above : topo.bridgeAbove dev = some (bridge, port)) : dev ∈ topo.subtreeOf [port] := by
  suffices walked : ∀ fuel current seen,
      topo.bridgeAboveFrom fuel current seen = some (bridge, port) →
        (topo.linkAt current).isSome ∧ current ∈ topo.subtreeOf [port] from
    (walked _ _ _ above).2
  intro fuel
  induction fuel with
  | zero => exact fun _ _ found => by cases found
  | succ fuel ih =>
      intro current seen found
      rw [bridgeAboveFrom] at found
      split at found
      · cases found
      · split at found
        · cases found
        · rename_i master enslaved
          obtain ⟨link, here, master_eq⟩ := Option.bind_eq_some_iff.mp enslaved
          have known : (topo.linkAt current).isSome := by rw [here]; rfl
          split at found
          · cases found
            exact ⟨known, mem_flood_of_root (List.mem_singleton_self _)⟩
          · obtain ⟨masterKnown, under⟩ := ih master _ found
            refine ⟨known, mem_flood_of_edge under masterKnown ?_⟩
            have lower := mirrors link (mem_of_linkAt here) master master_eq masterKnown
            rwa [index_of_linkAt here] at lower

end Topology

end SriovMacSync
