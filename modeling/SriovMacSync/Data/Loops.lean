import Mathlib.Data.Nat.Basic

namespace SriovMacSync.Data.Loop

/-! Loops: one turn at a time, until a turn hands back a result. -/

variable {S R : Type}

/-- A loop with so many turns at most. -/
def turns (step : S → S ⊕ R) : Nat → S → Option R
  | 0, _ => none
  | fuel + 1, state =>
      match step state with
      | .inl next => turns step fuel next
      | .inr result => some result

/-- A loop that comes to a result. -/
def Halts (step : S → S ⊕ R) (start : S) (result : R) : Prop :=
  ∃ fuel, turns step fuel start = some result

variable {step : S → S ⊕ R} {state next : S} {result : R} {fuel : Nat}

@[simp] theorem turns_again (turn : step state = .inl next) :
    turns step (fuel + 1) state = turns step fuel next := by
  simp [turns, turn]

@[simp] theorem turns_done (turn : step state = .inr result) :
    turns step (fuel + 1) state = some result := by
  simp [turns, turn]

theorem turns_mono {more : Nat} (ended : turns step fuel state = some result)
    (enough : fuel ≤ more) : turns step more state = some result := by
  induction fuel generalizing state more with
  | zero => cases ended
  | succ fuel ih =>
      obtain ⟨more, rfl⟩ : ∃ rest, more = rest + 1 := ⟨more - 1, by omega⟩
      rw [turns] at ended ⊢
      split at ended
      · exact ih ended (by omega)
      · exact ended

theorem Halts.unique {other : R} (one : Halts step state result) (two : Halts step state other) :
    result = other := by
  obtain ⟨fuel, ended⟩ := one
  obtain ⟨more, endedToo⟩ := two
  have first := turns_mono ended (le_max_left fuel more)
  have second := turns_mono endedToo (le_max_right fuel more)
  exact Option.some.inj (first.symm.trans second)

/-- A loop whose turns keep an invariant and lessen a measure ends, with what the
invariant says of its result. -/
theorem turns_total {invariant : S → Prop} {post : R → Prop} (measure : S → Nat)
    (again : ∀ state next, invariant state → step state = .inl next →
      invariant next ∧ measure next < measure state)
    (done : ∀ state result, invariant state → step state = .inr result → post result)
    (start : invariant state) (enough : measure state < fuel) :
    ∃ result, turns step fuel state = some result ∧ post result := by
  induction fuel generalizing state with
  | zero => omega
  | succ fuel ih =>
      cases turn : step state with
      | inl next =>
          obtain ⟨kept, less⟩ := again state next start turn
          rw [turns_again turn]
          exact ih kept (by omega)
      | inr result =>
          rw [turns_done turn]
          exact ⟨result, rfl, done state result start turn⟩

end SriovMacSync.Data.Loop
