import Mathlib.Algebra.Order.BigOperators.Group.Finset
import Mathlib.Logic.Relation
import SriovMacSync.Data.Loops

namespace SriovMacSync.Data.Search

open Relation Loop

/-! Searching a graph whose edges are listed at each node: a stack of what is left to
look at, and a set of what was.  The graph may be cyclic; it is enough that finitely
many nodes have edges. -/

/-- One edge. -/
def Edge {V : Type} (next : V → List V) (source target : V) : Prop := target ∈ next source

section Loops

variable {V : Type} [DecidableEq V] (next : V → List V)

/-- A search that collects every node it comes to. -/
def visit : List V × Finset V → (List V × Finset V) ⊕ Finset V
  | ([], seen) => .inr seen
  | (current :: stack, seen) =>
      if current ∈ seen then .inl (stack, seen)
      else .inl ((next current).reverse ++ stack, insert current seen)

/-- A search that ends where an edge leads to the target. -/
def hunt (target : V) : List V × Finset V → (List V × Finset V) ⊕ Bool
  | ([], _) => .inr false
  | (current :: stack, seen) =>
      if current ∈ seen then .inl (stack, seen)
      else if (next current).contains target then .inr true
      else .inl ((next current).reverse ++ stack, insert current seen)

/-- A search that collects what is found at the nodes. -/
def gather {W : Type} (values : V → List W) :
    List W × List V × Finset V → (List W × List V × Finset V) ⊕ List W
  | (out, [], _) => .inr out
  | (out, current :: stack, seen) =>
      if current ∈ seen then .inl (out, stack, seen)
      else .inl (out ++ values current, (next current).reverse ++ stack, insert current seen)

variable {next} {current : V} {stack : List V} {seen : Finset V}

theorem visit_again (again : current ∈ seen) :
    visit next (current :: stack, seen) = .inl (stack, seen) := if_pos again

theorem visit_fresh (fresh : current ∉ seen) :
    visit next (current :: stack, seen) =
      .inl ((next current).reverse ++ stack, insert current seen) := if_neg fresh

theorem hunt_again {target : V} (again : current ∈ seen) :
    hunt next target (current :: stack, seen) = .inl (stack, seen) := if_pos again

theorem hunt_hit {target : V} (fresh : current ∉ seen) (there : target ∈ next current) :
    hunt next target (current :: stack, seen) = .inr true := by
  simp [hunt, fresh, there]

theorem hunt_missed {target : V} (fresh : current ∉ seen) (elsewhere : target ∉ next current) :
    hunt next target (current :: stack, seen) =
      .inl ((next current).reverse ++ stack, insert current seen) := by
  simp [hunt, fresh, elsewhere]

theorem gather_again {W : Type} {values : V → List W} {out : List W} (again : current ∈ seen) :
    gather next values (out, current :: stack, seen) = .inl (out, stack, seen) := if_pos again

theorem gather_fresh {W : Type} {values : V → List W} {out : List W} (fresh : current ∉ seen) :
    gather next values (out, current :: stack, seen) =
      .inl (out ++ values current, (next current).reverse ++ stack, insert current seen) :=
  if_neg fresh

end Loops

section Searching

variable {V : Type} {next : V → List V} {roots stack : List V} {seen : Finset V} {current : V}

/-- What a search has come to so far: everything seen or stacked hangs on a root, the
roots are among it, and so is what hangs on anything seen. -/
structure Searching (next : V → List V) (roots stack : List V) (seen : Finset V) : Prop where
  sound : ∀ node, node ∈ seen ∨ node ∈ stack → ∃ root ∈ roots, ReflTransGen (Edge next) root node
  started : ∀ root ∈ roots, root ∈ seen ∨ root ∈ stack
  closed : ∀ node ∈ seen, ∀ child ∈ next node, child ∈ seen ∨ child ∈ stack

theorem Searching.start (next : V → List V) (roots : List V) : Searching next roots roots ∅ where
  sound node found := ⟨node, by simpa using found, .refl⟩
  started root member := .inr member
  closed := by simp

theorem Searching.skip (searching : Searching next roots (current :: stack) seen)
    (again : current ∈ seen) : Searching next roots stack seen where
  sound node found := searching.sound node (found.imp_right (List.mem_cons_of_mem _))
  started root member := by
    have there := searching.started root member
    grind
  closed node found child edge := by
    have there := searching.closed node found child edge
    grind

theorem Searching.follow [DecidableEq V] (searching : Searching next roots (current :: stack) seen) :
    Searching next roots ((next current).reverse ++ stack) (insert current seen) where
  sound node found := by
    obtain ⟨root, member, path⟩ := searching.sound current (.inr (List.mem_cons_self ..))
    rw [Finset.mem_insert, List.mem_append, List.mem_reverse] at found
    rcases found with (same | earlier) | child | queued
    · exact ⟨root, member, same ▸ path⟩
    · exact searching.sound node (.inl earlier)
    · exact ⟨root, member, path.tail child⟩
    · exact searching.sound node (.inr (List.mem_cons_of_mem _ queued))
  started root member := by
    have there := searching.started root member
    grind
  closed node found child edge := by
    rcases Finset.mem_insert.mp found with rfl | earlier
    · exact .inr (List.mem_append_left _ (List.mem_reverse.mpr edge))
    · have there := searching.closed node earlier child edge
      grind

/-- With nothing left to look at, what was seen is what hangs on the roots. -/
theorem Searching.finished (searching : Searching next roots [] seen) (node : V) :
    node ∈ seen ↔ ∃ root ∈ roots, ReflTransGen (Edge next) root node := by
  constructor
  · intro found
    exact searching.sound node (.inl found)
  · intro ⟨root, member, path⟩
    induction path with
    | refl => simpa using searching.started root member
    | tail _ edge ih => simpa using searching.closed _ ih _ edge

end Searching

section Measure

variable {V : Type} [DecidableEq V] {next : V → List V} {known : Finset V} {current : V} {seen : Finset V}

/-- The edges a search has not followed yet. -/
def unfollowed (next : V → List V) (known seen : Finset V) : Nat :=
  ∑ node ∈ known \ seen, (next node).length

theorem unfollowed_insert (bounded : ∀ node, node ∉ known → next node = [])
    (fresh : current ∉ seen) :
    (next current).length + unfollowed next known (insert current seen) =
      unfollowed next known seen := by
  rw [unfollowed, unfollowed, Finset.sdiff_insert]
  by_cases listed : current ∈ known
  · exact Finset.add_sum_erase _ (fun node => (next node).length)
      (Finset.mem_sdiff.mpr ⟨listed, fresh⟩)
  · rw [bounded current listed, Finset.erase_eq_of_notMem fun member =>
      listed (Finset.mem_sdiff.mp member).1]
    simp

/-- What is left of a search: the stack, and an edge for each time it may still grow. -/
def left (next : V → List V) (known : Finset V) (stack : List V) (seen : Finset V) : Nat :=
  stack.length + unfollowed next known seen

theorem left_skip {stack : List V} :
    left next known stack seen < left next known (current :: stack) seen := by
  simp [left]

theorem left_follow {stack : List V} (bounded : ∀ node, node ∉ known → next node = [])
    (fresh : current ∉ seen) :
    left next known ((next current).reverse ++ stack) (insert current seen) <
      left next known (current :: stack) seen := by
  have fewer := unfollowed_insert bounded fresh
  simp only [left, List.length_append, List.length_reverse, List.length_cons]
  omega

end Measure

section Results

variable {V : Type} [DecidableEq V] {next : V → List V} {known : Finset V} {roots : List V}
  {fuel : Nat}

/-- A search that visits ends, with the nodes that hang on the roots. -/
theorem visit_exact (bounded : ∀ node, node ∉ known → next node = [])
    (enough : left next known roots ∅ < fuel) :
    ∃ found, turns (visit next) fuel (roots, ∅) = some found ∧
      ∀ node, node ∈ found ↔ ∃ root ∈ roots, ReflTransGen (Edge next) root node := by
  apply @turns_total _ _ _ (roots, (∅ : Finset V)) _
    (fun state => Searching next roots state.1 state.2)
    (fun found => ∀ node, node ∈ found ↔ ∃ root ∈ roots, ReflTransGen (Edge next) root node)
    (fun state => left next known state.1 state.2)
  · intro (stack, seen) later searching turn
    cases stack with
    | nil => cases turn
    | cons current stack =>
        by_cases again : current ∈ seen
        · rw [visit_again again] at turn
          cases turn
          exact ⟨searching.skip again, left_skip⟩
        · rw [visit_fresh again] at turn
          cases turn
          exact ⟨searching.follow, left_follow bounded again⟩
  · intro (stack, seen) found searching turn
    cases stack with
    | nil =>
        cases turn
        exact searching.finished
    | cons current stack =>
        rw [visit] at turn
        split at turn <;> cases turn
  · exact .start next roots
  · exact enough

/-- No edge of anything seen leads to the target. -/
def Missed (next : V → List V) (target : V) (seen : Finset V) : Prop :=
  ∀ node ∈ seen, ¬ Edge next node target

/-- A hunt ends, and tells whether an edge of something that hangs on a root leads to
the target. -/
theorem hunt_exact (bounded : ∀ node, node ∉ known → next node = []) (target : V)
    (enough : left next known roots ∅ < fuel) :
    ∃ hit, turns (hunt next target) fuel (roots, ∅) = some hit ∧
      (hit = true ↔ ∃ root ∈ roots, TransGen (Edge next) root target) := by
  apply @turns_total _ _ _ (roots, (∅ : Finset V)) _
    (fun state => Searching next roots state.1 state.2 ∧ Missed next target state.2)
    (fun hit => hit = true ↔ ∃ root ∈ roots, TransGen (Edge next) root target)
    (fun state => left next known state.1 state.2)
  · intro (stack, seen) later ⟨searching, missed⟩ turn
    cases stack with
    | nil => cases turn
    | cons current stack =>
        by_cases again : current ∈ seen
        · rw [hunt_again again] at turn
          cases turn
          exact ⟨⟨searching.skip again, missed⟩, left_skip⟩
        by_cases there : target ∈ next current
        · rw [hunt_hit again there] at turn
          cases turn
        · rw [hunt_missed again there] at turn
          cases turn
          refine ⟨⟨searching.follow, ?_⟩, left_follow bounded again⟩
          intro node found edge
          rcases Finset.mem_insert.mp found with rfl | earlier
          · exact there edge
          · exact missed node earlier edge
  · intro (stack, seen) hit ⟨searching, missed⟩ turn
    cases stack with
    | nil =>
        cases turn
        simp only [Bool.false_eq_true, false_iff, not_exists, not_and]
        intro root member path
        obtain ⟨node, reached, edge⟩ := TransGen.tail'_iff.mp path
        exact missed node ((searching.finished node).mpr ⟨root, member, reached⟩) edge
    | cons current stack =>
        by_cases again : current ∈ seen
        · rw [hunt_again again] at turn
          cases turn
        by_cases there : target ∈ next current
        · rw [hunt_hit again there] at turn
          cases turn
          obtain ⟨root, member, path⟩ := searching.sound current (.inr (List.mem_cons_self ..))
          simp only [true_iff]
          exact ⟨root, member, .tail' path there⟩
        · rw [hunt_missed again there] at turn
          cases turn
  · exact ⟨.start next roots, by simp [Missed]⟩
  · exact enough

/-- A search that gathers ends, with what is found at the nodes that hang on the roots. -/
theorem gather_exact {W : Type} (values : V → List W)
    (bounded : ∀ node, node ∉ known → next node = [])
    (enough : left next known roots ∅ < fuel) :
    ∃ out, turns (gather next values) fuel ([], roots, ∅) = some out ∧
      ∀ value, value ∈ out ↔
        ∃ root ∈ roots, ∃ node, ReflTransGen (Edge next) root node ∧ value ∈ values node := by
  apply @turns_total _ _ _ (([] : List W), roots, (∅ : Finset V)) _
    (fun state => Searching next roots state.2.1 state.2.2 ∧
      ∀ value, value ∈ state.1 ↔ ∃ node ∈ state.2.2, value ∈ values node)
    (fun out => ∀ value, value ∈ out ↔
      ∃ root ∈ roots, ∃ node, ReflTransGen (Edge next) root node ∧ value ∈ values node)
    (fun state => left next known state.2.1 state.2.2)
  · intro (out, stack, seen) later ⟨searching, gathered⟩ turn
    cases stack with
    | nil => cases turn
    | cons current stack =>
        by_cases again : current ∈ seen
        · rw [gather_again again] at turn
          cases turn
          exact ⟨⟨searching.skip again, gathered⟩, left_skip⟩
        · rw [gather_fresh again] at turn
          cases turn
          refine ⟨⟨searching.follow, ?_⟩, left_follow bounded again⟩
          intro value
          have earlier := gathered value
          simp only [List.mem_append, Finset.mem_insert, exists_eq_or_imp, earlier, or_comm]
  · intro (out, stack, seen) result ⟨searching, gathered⟩ turn
    cases stack with
    | nil =>
        cases turn
        intro value
        have finished := searching.finished
        rw [gathered value]
        constructor
        · intro ⟨node, found, there⟩
          obtain ⟨root, member, path⟩ := (finished node).mp found
          exact ⟨root, member, node, path, there⟩
        · intro ⟨root, member, node, path, there⟩
          exact ⟨node, (finished node).mpr ⟨root, member, path⟩, there⟩
    | cons current stack =>
        rw [gather] at turn
        split at turn <;> cases turn
  · exact ⟨.start next roots, by simp⟩
  · exact enough

end Results

end SriovMacSync.Data.Search
