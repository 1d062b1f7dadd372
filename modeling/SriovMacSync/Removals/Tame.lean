import SriovMacSync.Removals.Guarding

namespace SriovMacSync

open Data Netlink Interaction Interaction.Action

/-! What the parts of a section ask for. -/

variable {dev name : Name} {index : Index}

section Notes

theorem readOwned_tame : Asks (·.Tame dev) (readOwned name) :=
  .bind (.ask rfl) fun _ => .bind .modify fun _ => .pure

theorem loadOwned_tame : Asks (·.Tame dev) (loadOwned name) :=
  .bind (.ask rfl) fun _ => .bind .modify fun _ => .pure

theorem noteIsReadable_tame : Asks (·.Tame dev) (noteIsReadable name) := .bind .get fun _ => .pure

theorem noteIndex_tame : Asks (·.Tame dev) (noteIndex name index) :=
  .bind .get fun _ => .ite (.bind (.ask rfl) fun _ => .ite .modify .pure) .pure

theorem removeNote_tame : Asks (·.Tame dev) (removeNote name) :=
  .bind (.ask rfl) fun _ => .bind (.ask rfl) fun _ => .bind (.ask rfl) fun _ => .modify

theorem writeOwned_tame {set : Finset Mac} : Asks (·.Tame dev) (writeOwned name set) :=
  .bind noteIsReadable_tame fun _ => .ite
    (.bind loadOwned_tame fun _ => .ite .pure (.ask rfl)) .pure

theorem appendOwnedLocked_tame {added : List Mac} :
    Asks (·.Tame dev) (appendOwnedLocked name added) :=
  .bind loadOwned_tame fun _ => .bind noteIsReadable_tame fun _ => .ite
    (.ite .pure (.bind (.ask rfl) fun _ => .pure)) .pure

theorem unnoteLocked_tame {macs : List Mac} : Asks (·.Tame dev) (unnoteLocked name macs) :=
  .bind noteIsReadable_tame fun _ => .ite
    (.bind loadOwned_tame fun _ => .ite .pure writeOwned_tame) .pure

theorem forgetLocked_tame {dropped : List Mac} : Asks (·.Tame dev) (forgetLocked name dropped) :=
  .ite (.bind readOwned_tame fun _ => .bind writeOwned_tame fun _ => .pure) .pure

theorem migrateLocked_tame {old new : Name} : Asks (·.Tame dev) (migrateLocked old new index) := by
  refine .bind loadOwned_tame fun owned => .bind (.ask rfl) fun macs =>
    .bind noteIsReadable_tame fun readable => .ite (.ite ?_ ?_) .pure
  · exact .bind removeNote_tame fun _ => .pure
  · refine .bind noteIndex_tame fun _ => .bind appendOwnedLocked_tame fun appended => ?_
    split
    · exact .pure
    · exact .bind removeNote_tame fun _ => .pure

theorem locked_tame {α : Type} {work : Section} {body : Sync α} (apart : name ≠ dev)
    (tame : Asks (·.Tame dev) body) : Asks (·.Tame dev) (locked name work body) :=
  .bind (.ask apart) fun _ => .bind tame fun _ => .bind (.ask apart) fun _ => .pure

end Notes

section Card

theorem setEach_tame {macs : List Mac} : Asks (·.Tame dev) (setEach index true macs) := by
  induction macs with
  | nil => exact .pure
  | cons mac rest ih => exact .bind (.ask rfl) fun _ => .bind ih fun _ => .pure

end Card

section Looks

/-- What only looks leaves the note alone and takes nothing out. -/
def Call.Looks (dev : Name) (request : Call) : Prop :=
  request.LeavesNote dev ∧ request.removes = false

theorem recordedIndex_looks : Asks (·.Looks dev) (recordedIndex name) := by
  refine .bind .get fun syncer => ?_
  split
  · exact .pure
  · exact .ask ⟨trivial, rfl⟩

theorem notedLink_looks {topo : Topology} : Asks (·.Looks dev) (notedLink name topo) := by
  unfold notedLink
  split
  · exact .pure
  · refine .bind recordedIndex_looks fun recorded => ?_
    split
    · exact .pure
    · exact .pure

theorem renamedTarget_looks {topo : Topology} : Asks (·.Looks dev) (renamedTarget name topo) := by
  refine .bind (.ask ⟨trivial, rfl⟩) fun recorded => ?_
  split
  · exact .pure
  · split
    · exact .pure
    · exact .pure

theorem flushTarget_looks {topo : Topology} : Asks (·.Looks dev) (flushTarget name topo) := by
  refine .bind notedLink_looks fun found => ?_
  split
  · exact .pure
  · exact .bind renamedTarget_looks fun _ => .pure

end Looks

end SriovMacSync
