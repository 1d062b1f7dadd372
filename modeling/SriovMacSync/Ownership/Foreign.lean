import SriovMacSync.Ownership.Crashes

namespace SriovMacSync

open Data Netlink Interaction Interaction.Action

/-! # Other parties on the card -/

variable {dev : Name} {home : Index}

/-- Other parties come and go, an addition of what is there is refused as such, and
any write to the card may be refused without taking effect. -/
def visitors : Terms Unit where
  shared := True
  honest := True
  refuses _ effective := effective = false

/-- Only removals are refused. -/
def roomyVisitors : Terms Unit :=
  { visitors with
    refuses := fun add effective => add = false ∧ effective = false
    admits := fun ground work => work.shedsNoted ground }

theorem roomyVisitors_suits : roomyVisitors.Suits .tight where
  admits {ground work} admitted := by
    cases work with
    | merge before after => exact nofun
    | shed pool => exact fun _ => admitted
    | _ => exact trivial
  alone _ := inferInstanceAs (Subsingleton Unit)
  tight _ := ⟨id, id, fun _ => nofun, nofun, id⟩
  shared _ := rfl

/-- An uplink whose note names exactly what this program put there. -/
structure Ground.BeginsExact {Process : Type} (ground : Ground Process) : Prop where
  begins : ground.Begins
  exact : ground.note ⊆ ground.ours
  theirs : ground.foreign ⊆ ground.card
  apart : Disjoint ground.foreign ground.ours

/-- A card that takes no more. -/
def Ground.full (handler : Handler Call Reply (Ground Unit)) : Handler Call Reply (Ground Unit)
  | ground, .setSelfFdb index mac true =>
      if mac ∈ ground.card then handler ground (.setSelfFdb index mac true)
      else (.error (.other 28), ground)
  | ground, request => handler ground request

theorem Ground.answers_full {handler : Handler Call Reply (Ground Unit)}
    {goes : Ground Unit → Call → Bool}
    (admissible : ∀ ground request, goes ground request = true →
      (uplinkSystem visitors dev home).answers () ground request (handler ground request).1
        (handler ground request).2)
    (ground : Ground Unit) (request : Call) (answered : goes ground request = true) :
    (uplinkSystem visitors dev home).answers () ground request
      (Ground.full handler ground request).1 (Ground.full handler ground request).2 := by
  unfold Ground.full
  split
  · rename_i index mac
    split
    · exact admissible ground _ answered
    · rename_i absent
      refine ⟨trivial, ?_⟩
      by_cases own : index = home
      · simp only [Ground.Answers, own, if_true]
        exact .refused (fun same => by cases same) rfl fun _ _ => absent
      · simp [Ground.Answers, own]
  · exact admissible ground _ answered

end SriovMacSync
