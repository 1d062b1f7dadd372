import SriovMacSync.Data.Search

namespace SriovMacSync.Data.Search

open Relation Loop

/-! The nodes a search comes to, in order, and a search that does something at each. -/

section Trails

variable {V : Type} [DecidableEq V] {next : V → List V} {known : Finset V} {roots stack : List V}
  {seen found : Finset V} {fuel : Nat}

/-- The nodes a search comes to, each when it is first looked at. -/
def trail (next : V → List V) : Nat → List V → Finset V → List V
  | 0, _, _ => []
  | _ + 1, [], _ => []
  | fuel + 1, current :: stack, seen =>
      if current ∈ seen then trail next fuel stack seen
      else current :: trail next fuel ((next current).reverse ++ stack) (insert current seen)

theorem trail_fresh (node : V) (member : node ∈ trail next fuel stack seen) : node ∉ seen := by
  induction fuel generalizing stack seen with
  | zero => cases member
  | succ fuel ih =>
      cases stack with
      | nil => cases member
      | cons current stack =>
          rw [trail] at member
          split at member
          · exact ih member
          · rename_i fresh
            rcases List.mem_cons.mp member with rfl | later
            · exact fresh
            · have unseen := ih later
              simp_all

theorem trail_nodup : (trail next fuel stack seen).Nodup := by
  induction fuel generalizing stack seen with
  | zero => exact .nil
  | succ fuel ih =>
      cases stack with
      | nil => exact .nil
      | cons current stack =>
          rw [trail]
          split
          · exact ih
          · refine List.nodup_cons.mpr ⟨fun later => ?_, ih⟩
            exact trail_fresh current later (Finset.mem_insert_self current seen)

/-- A search sees what it saw before and the nodes of its trail. -/
theorem mem_found_iff (ended : turns (visit next) fuel (stack, seen) = some found) (node : V) :
    node ∈ found ↔ node ∈ seen ∨ node ∈ trail next fuel stack seen := by
  induction fuel generalizing stack seen with
  | zero => cases ended
  | succ fuel ih =>
      cases stack with
      | nil =>
          cases ended
          simp [trail]
      | cons current stack =>
          rw [trail]
          by_cases again : current ∈ seen
          · rw [turns_again (visit_again again)] at ended
            rw [if_pos again, ih ended]
          · rw [turns_again (visit_fresh again)] at ended
            rw [if_neg again, ih ended, Finset.mem_insert, List.mem_cons]
            tauto

/-- The trail of a whole search is what hangs on the roots. -/
theorem mem_trail_iff (bounded : ∀ node, node ∉ known → next node = [])
    (enough : left next known roots ∅ < fuel) (node : V) :
    node ∈ trail next fuel roots ∅ ↔ ∃ root ∈ roots, ReflTransGen (Edge next) root node := by
  obtain ⟨found, ended, exactly⟩ := visit_exact bounded enough
  rw [← exactly, mem_found_iff ended]
  simp

end Trails

section Exploring

variable {V : Type} [DecidableEq V] {m : Type → Type} [Monad m] {S : Type}

/-- A search that does something at every node it comes to. -/
def explore (next : V → List V) (look : S → V → m S) : Nat → List V → Finset V → S → m S
  | 0, _, _, state => pure state
  | _ + 1, [], _, state => pure state
  | fuel + 1, current :: stack, seen, state =>
      if current ∈ seen then explore next look fuel stack seen state
      else do
        let state ← look state current
        explore next look fuel ((next current).reverse ++ stack) (insert current seen) state

/-- What a search does on its way, it does along its trail. -/
theorem explore_eq_foldlM [LawfulMonad m] {next : V → List V} {look : S → V → m S} {fuel : Nat}
    {stack : List V} {seen : Finset V} {state : S} :
    explore next look fuel stack seen state = (trail next fuel stack seen).foldlM look state := by
  induction fuel generalizing stack seen state with
  | zero => rfl
  | succ fuel ih =>
      cases stack with
      | nil => rfl
      | cons current stack =>
          rw [explore, trail]
          split
          · exact ih
          · rw [List.foldlM_cons]
            exact bind_congr fun state => ih

end Exploring

end SriovMacSync.Data.Search
