import Mathlib.Data.Finset.Card
import Mathlib.Logic.Relation
import SriovMacSync.Data.Loops

namespace SriovMacSync.Data.Chain

open Relation Loop

/-! Following a chain in which every node has one successor at most.  The chain may run
in a circle; a set of what was passed ends it then. -/

section Unique

variable {V : Type} {rel : V → V → Prop} {start node last : V}

/-- Where a chain ends. -/
def Terminal (rel : V → V → Prop) (node : V) : Prop := ∀ further, ¬ rel node further

theorem eq_of_terminal (terminal : Terminal rel last) (path : ReflTransGen rel last node) :
    node = last := by
  cases path.cases_head with
  | inl same => exact same.symm
  | inr more =>
      obtain ⟨further, edge, -⟩ := more
      exact absurd edge (terminal further)

variable (unique : Relator.RightUnique rel)

include unique

theorem terminal_unique {other : V} (path : ReflTransGen rel start last)
    (otherPath : ReflTransGen rel start other) (terminal : Terminal rel last)
    (otherTerminal : Terminal rel other) : other = last := by
  cases path.total_of_right_unique unique otherPath with
  | inl further => exact eq_of_terminal terminal further
  | inr further => exact (eq_of_terminal otherTerminal further).symm

/-- From a circle no end is reached. -/
theorem not_terminal_of_circle (circle : TransGen rel node node)
    (path : ReflTransGen rel node last) : ¬ Terminal rel last := by
  intro terminal
  induction path using ReflTransGen.head_induction_on with
  | refl =>
      obtain ⟨further, edge, -⟩ := TransGen.head'_iff.mp circle
      exact terminal further edge
  | head edge _ ih =>
      obtain ⟨further, same, back⟩ := TransGen.head'_iff.mp circle
      cases unique edge same
      exact ih (.tail' back edge)

theorem no_terminal_of_circle (path : ReflTransGen rel start node)
    (circle : TransGen rel node node) (further : ReflTransGen rel start last) :
    ¬ Terminal rel last := by
  intro terminal
  cases path.total_of_right_unique unique further with
  | inl behind => exact not_terminal_of_circle unique circle behind terminal
  | inr before =>
      cases eq_of_terminal terminal before
      exact not_terminal_of_circle unique circle .refl terminal

end Unique

section Following

variable {V : Type} {rel : V → V → Prop} {start current : V} {seen : Finset V}

/-- Where a walk along a chain has come: what it passed leads on to here. -/
structure Following (rel : V → V → Prop) (start current : V) (seen : Finset V) : Prop where
  come : ReflTransGen rel start current
  passed : ∀ node ∈ seen, TransGen rel node current

theorem Following.init (rel : V → V → Prop) (start : V) : Following rel start start ∅ :=
  ⟨.refl, by simp⟩

variable [DecidableEq V]

theorem Following.step {further : V} (following : Following rel start current seen)
    (edge : rel current further) : Following rel start further (insert current seen) where
  come := following.come.tail edge
  passed node member := by
    rcases Finset.mem_insert.mp member with rfl | earlier
    · exact .single edge
    · exact (following.passed node earlier).tail edge

theorem card_insert {known : Finset V} (listed : current ∈ known) (fresh : current ∉ seen) :
    (known \ insert current seen).card < (known \ seen).card := by
  rw [Finset.sdiff_insert]
  exact Finset.card_erase_lt_of_mem (Finset.mem_sdiff.mpr ⟨listed, fresh⟩)

end Following

section Walks

variable {V : Type} (up : V → Option V)

/-- One step of the chain. -/
def Next (source target : V) : Prop := up source = some target

/-- A step to a node that is no goal. -/
def Below (goal : V → Bool) (source target : V) : Prop :=
  up source = some target ∧ goal target = false

variable {up} in
theorem next_unique : Relator.RightUnique (Next up) := fun _ _ _ one two =>
  Option.some.inj (one.symm.trans two)

variable {up} in
theorem below_unique {goal : V → Bool} : Relator.RightUnique (Below up goal) :=
  fun _ _ _ one two => Option.some.inj (one.1.symm.trans two.1)

variable [DecidableEq V]

/-- Down to the last node. -/
def chase : V × Finset V → (V × Finset V) ⊕ V
  | (current, seen) =>
      if current ∈ seen then .inr current
      else
        match up current with
        | some further => .inl (further, insert current seen)
        | none => .inr current

/-- Up to the first node that is a goal: it, and the node before it. -/
def climb (goal : V → Bool) : V × Finset V → (V × Finset V) ⊕ Option (V × V)
  | (current, seen) =>
      if current ∈ seen then .inr none
      else
        match up current with
        | none => .inr none
        | some above =>
            if goal above then .inr (some (above, current))
            else .inl (above, insert current seen)

variable {up} {current further : V} {seen : Finset V} {goal : V → Bool}

theorem chase_again (again : current ∈ seen) : chase up (current, seen) = .inr current :=
  if_pos again

theorem chase_last (fresh : current ∉ seen) (ends : up current = none) :
    chase up (current, seen) = .inr current := by
  simp [chase, fresh, ends]

theorem chase_on (fresh : current ∉ seen) (goes : up current = some further) :
    chase up (current, seen) = .inl (further, insert current seen) := by
  simp [chase, fresh, goes]

theorem climb_again (again : current ∈ seen) : climb up goal (current, seen) = .inr none :=
  if_pos again

theorem climb_last (fresh : current ∉ seen) (ends : up current = none) :
    climb up goal (current, seen) = .inr none := by
  simp [climb, fresh, ends]

theorem climb_top (fresh : current ∉ seen) (goes : up current = some further)
    (isGoal : goal further = true) :
    climb up goal (current, seen) = .inr (some (further, current)) := by
  simp [climb, fresh, goes, isGoal]

theorem climb_on (fresh : current ∉ seen) (goes : up current = some further)
    (plain : goal further = false) :
    climb up goal (current, seen) = .inl (further, insert current seen) := by
  simp [climb, fresh, goes, plain]

end Walks

section Results

variable {V : Type} [DecidableEq V] {up : V → Option V} {known : Finset V} {start : V} {fuel : Nat}

theorem listed_of_next (bounded : ∀ node, node ∉ known → up node = none) {node further : V}
    (goes : up node = some further) : node ∈ known := by
  by_contra unknown
  simp [bounded node unknown] at goes

/-- A chase ends, and where the chain ends it ends there. -/
theorem chase_exact (bounded : ∀ node, node ∉ known → up node = none)
    (enough : known.card < fuel) :
    ∃ last, turns (chase up) fuel (start, ∅) = some last ∧
      ∀ bottom, ReflTransGen (Next up) start bottom → up bottom = none → last = bottom := by
  have terminal {node : V} (ends : up node = none) : Terminal (Next up) node := by
    intro further edge
    simp [Next, ends] at edge
  apply @turns_total _ _ _ (start, (∅ : Finset V)) _
    (fun state => Following (Next up) start state.1 state.2)
    (fun last => ∀ bottom, ReflTransGen (Next up) start bottom → up bottom = none → last = bottom)
    (fun state => (known \ state.2).card)
  · intro (current, seen) later following turn
    by_cases again : current ∈ seen
    · rw [chase_again again] at turn
      cases turn
    cases goes : up current with
    | none =>
        rw [chase_last again goes] at turn
        cases turn
    | some further =>
        rw [chase_on again goes] at turn
        cases turn
        exact ⟨following.step goes, card_insert (listed_of_next bounded goes) again⟩
  · intro (current, seen) last following turn bottom path ends
    by_cases again : current ∈ seen
    · exact absurd (terminal ends)
        (no_terminal_of_circle next_unique following.come (following.passed current again) path)
    cases goes : up current with
    | some further =>
        rw [chase_on again goes] at turn
        cases turn
    | none =>
        rw [chase_last again goes] at turn
        cases turn
        exact terminal_unique next_unique path following.come (terminal ends) (terminal goes)
  · exact .init _ start
  · simpa using enough

/-- A climb ends, with the first goal of the chain and the node before it, and with
nothing where the chain has none. -/
theorem climb_exact (goal : V → Bool) (bounded : ∀ node, node ∉ known → up node = none)
    (enough : known.card < fuel) :
    ∃ found, turns (climb up goal) fuel (start, ∅) = some found ∧
      ∀ top last, found = some (top, last) ↔
        ReflTransGen (Below up goal) start last ∧ up last = some top ∧ goal top = true := by
  have terminal {last top : V} (above : up last = some top) (isGoal : goal top = true) :
      Terminal (Below up goal) last := by
    intro further ⟨edge, plain⟩
    cases above.symm.trans edge
    simp [isGoal] at plain
  apply @turns_total _ _ _ (start, (∅ : Finset V)) _
    (fun state => Following (Below up goal) start state.1 state.2)
    (fun found => ∀ top last, found = some (top, last) ↔
      ReflTransGen (Below up goal) start last ∧ up last = some top ∧ goal top = true)
    (fun state => (known \ state.2).card)
  · intro (current, seen) later following turn
    by_cases again : current ∈ seen
    · rw [climb_again again] at turn
      cases turn
    cases goes : up current with
    | none =>
        rw [climb_last again goes] at turn
        cases turn
    | some above =>
        cases isGoal : goal above with
        | true =>
            rw [climb_top again goes isGoal] at turn
            cases turn
        | false =>
            rw [climb_on again goes isGoal] at turn
            cases turn
            exact ⟨following.step ⟨goes, isGoal⟩,
              card_insert (listed_of_next bounded goes) again⟩
  · intro (current, seen) found following turn top last
    by_cases again : current ∈ seen
    · rw [climb_again again] at turn
      cases turn
      simp only [reduceCtorEq, false_iff, not_and]
      intro path above isGoal
      exact no_terminal_of_circle below_unique following.come (following.passed current again) path
        (terminal above isGoal)
    cases goes : up current with
    | none =>
        rw [climb_last again goes] at turn
        cases turn
        simp only [reduceCtorEq, false_iff, not_and]
        intro path above isGoal
        have here : Terminal (Below up goal) current := by
          intro further ⟨edge, _⟩
          cases goes.symm.trans edge
        cases terminal_unique below_unique following.come path here (terminal above isGoal)
        cases goes.symm.trans above
    | some above =>
        cases isGoal : goal above with
        | false =>
            rw [climb_on again goes isGoal] at turn
            cases turn
        | true =>
            rw [climb_top again goes isGoal] at turn
            cases turn
            constructor
            · intro same
              cases same
              exact ⟨following.come, goes, isGoal⟩
            · intro ⟨path, upper, upperGoal⟩
              cases terminal_unique below_unique following.come path (terminal goes isGoal)
                (terminal upper upperGoal)
              cases goes.symm.trans upper
              rfl
  · exact .init _ start
  · simpa using enough

end Results

end SriovMacSync.Data.Chain
