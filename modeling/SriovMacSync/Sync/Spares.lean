import SriovMacSync.Sync.Scope

namespace SriovMacSync

open Data Netlink Interaction Interaction.Action

/-! What never writes to a filter: everything about the notes, the records and the
port memory, and every decision. -/

/-- A request that writes to no filter. -/
abbrev Call.SparesFilters (request : Call) : Prop := request.writes = none

variable {dev : Name} {index : Index} {topo : Topology}

section Notes

theorem readOwned_spares : Asks Call.SparesFilters (readOwned dev) :=
  .bind (.ask rfl) fun _ => .bind .modify fun _ => .pure

theorem loadOwned_spares : Asks Call.SparesFilters (loadOwned dev) :=
  .bind (.ask rfl) fun _ => .bind .modify fun _ => .pure

theorem noteIsReadable_spares : Asks Call.SparesFilters (noteIsReadable dev) := .bind .get fun _ => .pure

theorem noteIndex_spares : Asks Call.SparesFilters (noteIndex dev index) :=
  .bind .get fun _ => .ite (.bind (.ask rfl) fun _ => .ite .modify .pure) .pure

theorem recordedIndex_spares : Asks Call.SparesFilters (recordedIndex dev) := by
  refine .bind .get fun syncer => ?_
  split
  · exact .pure
  · exact .ask rfl

theorem removeNote_spares : Asks Call.SparesFilters (removeNote dev) :=
  .bind (.ask rfl) fun _ => .bind (.ask rfl) fun _ => .bind (.ask rfl) fun _ => .modify

theorem writeOwned_spares {set : Finset Mac} : Asks Call.SparesFilters (writeOwned dev set) :=
  .bind noteIsReadable_spares fun _ => .ite
    (.bind loadOwned_spares fun _ => .ite .pure (.ask rfl)) .pure

theorem appendOwnedLocked_spares {added : List Mac} :
    Asks Call.SparesFilters (appendOwnedLocked dev added) :=
  .bind loadOwned_spares fun _ => .bind noteIsReadable_spares fun _ => .ite
    (.ite .pure (.bind (.ask rfl) fun _ => .pure)) .pure

theorem unnoteLocked_spares {macs : List Mac} : Asks Call.SparesFilters (unnoteLocked dev macs) :=
  .bind noteIsReadable_spares fun _ => .ite
    (.bind loadOwned_spares fun _ => .ite .pure writeOwned_spares) .pure

theorem forgetLocked_spares {dropped : List Mac} : Asks Call.SparesFilters (forgetLocked dev dropped) :=
  .ite (.bind readOwned_spares fun _ => .bind writeOwned_spares fun _ => .pure) .pure

theorem locked_spares {α : Type} {work : Section} {body : Sync α} (spares : Asks Call.SparesFilters body) :
    Asks Call.SparesFilters (locked dev work body) :=
  .bind (.ask rfl) fun _ => .bind spares fun _ => .bind (.ask rfl) fun _ => .pure

theorem saveOwnedMerged_spares {before after : Finset Mac} :
    Asks Call.SparesFilters (saveOwnedMerged dev before after) :=
  .bind .get fun _ => .ite
    (locked_spares (.bind readOwned_spares fun _ => .bind writeOwned_spares fun _ => .pure)) .pure

theorem migrateLocked_spares {old new : Name} : Asks Call.SparesFilters (migrateLocked old new index) := by
  refine .bind loadOwned_spares fun owned => .bind (.ask rfl) fun macs =>
    .bind noteIsReadable_spares fun readable => .ite (.ite ?_ ?_) .pure
  · exact .bind removeNote_spares fun _ => .pure
  · refine .bind noteIndex_spares fun _ => .bind appendOwnedLocked_spares fun appended => ?_
    split
    · exact .pure
    · exact .bind removeNote_spares fun _ => .pure

theorem migrateNote_spares {old new : Name} : Asks Call.SparesFilters (migrateNote old new index) :=
  .ite .pure (.ite (locked_spares (locked_spares migrateLocked_spares))
    (locked_spares (locked_spares migrateLocked_spares)))

theorem notedDevicesOrNone_spares : Asks Call.SparesFilters notedDevicesOrNone := by
  refine .bind (.bind (.ask rfl) fun _ => .pure) fun listing => ?_
  split
  · exact .pure
  · exact .pure

end Notes

section Memory

theorem loadPorts_spares : Asks Call.SparesFilters (loadPorts dev topo) := by
  refine .bind .get fun syncer => .ite .pure (.bind .modify fun _ => .ite .pure ?_)
  refine .bind (.ask rfl) fun now => .bind (.bind (.ask rfl) fun _ => .pure) fun read => ?_
  exact .ite .modify .pure

theorem replacePorts_spares {lines : List Text} : Asks Call.SparesFilters (replacePorts dev lines) :=
  .ite (.bind (.ask rfl) fun _ => .ite .pure (.bind (.ask rfl) fun _ => .pure)) (.ask rfl)

theorem savePorts_spares {passAt : Nat} : Asks Call.SparesFilters (savePorts dev topo passAt) := by
  refine .bind .get fun syncer => .ite .pure (.bind (locked_spares ?_) fun wrote => ?_)
  · refine .bind (.bind .get fun _ => .ite (.bind (.ask rfl) fun _ => .pure) .pure) fun _ => ?_
    exact .ite .pure (.bind replacePorts_spares fun _ => .pure)
  · split
    · exact .pure
    · exact .modify

end Memory

section Passes

theorem renamedTarget_spares : Asks Call.SparesFilters (renamedTarget dev topo) := by
  refine .bind (.ask rfl) fun recorded => ?_
  split
  · exact .pure
  · split
    · exact .pure
    · exact .pure

theorem notedLink_spares : Asks Call.SparesFilters (notedLink dev topo) := by
  unfold notedLink
  split
  · exact .pure
  · refine .bind recordedIndex_spares fun recorded => ?_
    split
    · exact .pure
    · exact .pure

theorem followRename_spares {newName : Name} :
    Asks Call.SparesFilters (followRename dev newName index topo) := by
  refine .bind loadPorts_spares fun _ => .bind migrateNote_spares fun moved => ?_
  refine .ite (.bind .modify fun _ => .bind .get fun _ => .bind savePorts_spares fun _ => ?_) .pure
  exact .pure

theorem settleName_spares {reading : Reading} : Asks Call.SparesFilters (settleName reading dev index) := by
  refine .bind recordedIndex_spares fun recorded => .ite .pure (.bind .get fun syncer => ?_)
  refine .ite .pure (.bind renamedTarget_spares fun target => ?_)
  split
  · exact followRename_spares
  · exact .bind (locked_spares removeNote_spares) fun _ => .bind .modify fun _ => .pure

theorem decideWanted_spares {reading : Reading} {anat : Anatomy} {answer : Answer}
    {owned : Finset Mac} : Asks Call.SparesFilters (decideWanted reading dev anat answer owned) := by
  refine .bind .get fun syncer => .ite (.bind .modify fun _ => .bind (.ask rfl) fun fresh => ?_) .pure
  split
  · exact .pure
  · exact .bind .modify fun _ => .pure

theorem askDriver_spares {pfs : List Index} : Asks Call.SparesFilters (askDriver pfs) := by
  refine .bind .get fun syncer => ?_
  split
  · exact .pure
  · refine .bind (.ask rfl) fun fresh => ?_
    split
    · exact .pure
    · exact .bind .modify fun _ => .pure

theorem stampPass_spares : Asks Call.SparesFilters stampPass :=
  .bind (.ask rfl) fun _ => .bind .get fun _ => .bind .modify fun _ => .pure

theorem reportReleased_spares {apply : Bool} {shed : List Mac} :
    Asks Call.SparesFilters (reportReleased apply dev shed) :=
  .ite (.bind (.ask rfl) fun _ => .pure) .pure

theorem recordOwner_spares {needed : Bool} : Asks Call.SparesFilters (recordOwner needed dev index) :=
  .ite noteIndex_spares .pure

theorem mergeOwned_spares {apply : Bool} {before after : Finset Mac} :
    Asks Call.SparesFilters (mergeOwned apply dev before after) :=
  .ite saveOwnedMerged_spares .pure

theorem refreshMemory_spares {reading : Reading} {readable : Bool} {learntAt : LearntAt}
    {owned : Finset Mac} :
    Asks Call.SparesFilters (refreshMemory reading dev readable learntAt owned) :=
  .ite (.bind .modify fun _ => .ite savePorts_spares .pure) .pure

theorem orphaned_spares : Asks Call.SparesFilters orphaned := by
  refine .bind .get fun syncer => .ite (.bind .modify fun _ => .pure) (.bind (.ask rfl) fun now => ?_)
  exact .bind notedDevicesOrNone_spares fun _ => .bind .get fun _ => .bind .modify fun _ => .pure

theorem isUnidentified_spares : Asks Call.SparesFilters (isUnidentified dev) := by
  refine .bind (.ask rfl) fun recorded => ?_
  split
  · exact .pure
  · exact .bind loadOwned_spares fun _ => .pure

end Passes

end SriovMacSync
