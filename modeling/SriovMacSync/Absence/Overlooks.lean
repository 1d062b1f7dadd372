import SriovMacSync.Sync.Scope

namespace SriovMacSync

open Data Netlink Interaction Interaction.Action

/-! # What never looks at the clock of absences

Only the search for orphans moves that clock, and only the sweep it leads to takes a
device's addresses out under the sweep's lock. -/

/-- What a process was told to do, and since when it misses which device. -/
def Syncer.absences (syncer : Syncer) : Settings × (Name → Option Nat) :=
  (syncer.toSettings, syncer.absentSince)

/-- Whatever is answered, the clock of absences stays and no other device is swept. -/
def Overlooks (swept : Name → Prop) {α : Type} (action : Sync α) : Prop := ∀ syncer,
  Within (fun request => ∀ dev, request = .lock dev .sweep → swept dev) action
    (fun _ after => after.absences = syncer.absences) syncer

namespace Overlooks

variable {swept : Name → Prop} {α β : Type}

theorem pure {value : α} : Overlooks swept (pure value : Sync α) := fun _ => rfl

theorem get : Overlooks swept (get : Sync Syncer) := fun _ => rfl

theorem modify {change : Syncer → Syncer}
    (same : ∀ syncer, (change syncer).absences = syncer.absences) :
    Overlooks swept (modify change : Sync PUnit) := same

theorem ask {request : Call} (spares : ∀ dev, request = .lock dev .sweep → swept dev) :
    Overlooks swept (ask request) := fun _ => within_ask.mpr ⟨spares, fun _ => rfl⟩

theorem bind {action : Sync α} {rest : α → Sync β} (first : Overlooks swept action)
    (second : ∀ value, Overlooks swept (rest value)) : Overlooks swept (action >>= rest) := fun syncer =>
  (first syncer).bind fun value middle same =>
    (second value middle).imp fun _ _ same' => same'.trans same

theorem map {action : Sync α} {change : α → β} (overlooks : Overlooks swept action) :
    Overlooks swept (change <$> action) := fun syncer =>
  safe_map.mpr (overlooks syncer)

theorem ite {condition : Prop} [Decidable condition] {first second : Sync α}
    (left : Overlooks swept first) (right : Overlooks swept second) :
    Overlooks swept (if condition then first else second) := by
  split
  · exact left
  · exact right

theorem locked {dev : Name} {work : Section} {body : Sync α} (spares : work = .sweep → swept dev)
    (overlooks : Overlooks swept body) : Overlooks swept (locked dev work body) :=
  bind (ask fun _ same => (Call.lock.inj same).1 ▸ spares (Call.lock.inj same).2) fun _ =>
    bind overlooks fun _ => bind (ask nofun) fun _ => pure

end Overlooks

section Notes

variable {swept : Name → Prop} {dev : Name} {index : Index}

theorem readOwned_overlooks : Overlooks swept (readOwned dev) :=
  .bind (.ask nofun) fun _ => .bind (.modify fun _ => rfl) fun _ => .pure

theorem loadOwned_overlooks : Overlooks swept (loadOwned dev) := by
  refine .bind (.ask nofun) fun reading => .bind (.modify fun syncer => ?_) fun _ => .pure
  dsimp only
  split <;> rfl

theorem noteIsReadable_overlooks : Overlooks swept (noteIsReadable dev) := .bind .get fun _ => .pure

theorem noteIndex_overlooks : Overlooks swept (noteIndex dev index) :=
  .bind .get fun _ => .ite
    (.bind (.ask nofun) fun _ => .ite (.modify fun _ => rfl) .pure) .pure

theorem recordedIndex_overlooks : Overlooks swept (recordedIndex dev) := by
  refine .bind .get fun syncer => ?_
  split
  · exact .pure
  · exact .ask nofun

theorem removeNote_overlooks : Overlooks swept (removeNote dev) :=
  .bind (.ask nofun) fun _ => .bind (.ask nofun) fun _ => .bind (.ask nofun) fun _ =>
    .modify fun _ => rfl

theorem writeOwned_overlooks {set : Finset Mac} : Overlooks swept (writeOwned dev set) :=
  .bind noteIsReadable_overlooks fun _ => .ite
    (.bind loadOwned_overlooks fun _ => .ite .pure (.ask nofun)) .pure

theorem appendOwnedLocked_overlooks {added : List Mac} :
    Overlooks swept (appendOwnedLocked dev added) :=
  .bind loadOwned_overlooks fun _ => .bind noteIsReadable_overlooks fun _ => .ite
    (.ite .pure (.bind (.ask nofun) fun _ => .pure)) .pure

theorem unnoteLocked_overlooks {macs : List Mac} : Overlooks swept (unnoteLocked dev macs) :=
  .bind noteIsReadable_overlooks fun _ => .ite
    (.bind loadOwned_overlooks fun _ => .ite .pure writeOwned_overlooks) .pure

theorem forgetLocked_overlooks {dropped : List Mac} : Overlooks swept (forgetLocked dev dropped) :=
  .ite (.bind readOwned_overlooks fun _ => .bind writeOwned_overlooks fun _ => .pure) .pure

theorem saveOwnedMerged_overlooks {before after : Finset Mac} :
    Overlooks swept (saveOwnedMerged dev before after) :=
  .bind .get fun _ => .ite (.locked nofun
    (.bind readOwned_overlooks fun _ => .bind writeOwned_overlooks fun _ => .pure)) .pure

theorem migrateLocked_overlooks {old new : Name} : Overlooks swept (migrateLocked old new index) := by
  refine .bind loadOwned_overlooks fun owned => .bind (.ask nofun) fun macs =>
    .bind noteIsReadable_overlooks fun readable => .ite (.ite ?_ ?_) .pure
  · exact .bind removeNote_overlooks fun _ => .pure
  · refine .bind noteIndex_overlooks fun _ => .bind appendOwnedLocked_overlooks fun appended => ?_
    split
    · exact .pure
    · exact .bind removeNote_overlooks fun _ => .pure

theorem migrateNote_overlooks {old new : Name} : Overlooks swept (migrateNote old new index) :=
  .ite .pure (.ite
    (.locked nofun (.locked nofun migrateLocked_overlooks))
    (.locked nofun (.locked nofun migrateLocked_overlooks)))

theorem loadPorts_overlooks {topo : Topology} : Overlooks swept (loadPorts dev topo) :=
  .bind .get fun _ => .ite .pure <| .bind (.modify fun _ => rfl) fun _ => .ite .pure <|
    .bind (.ask nofun) fun _ => .bind (.bind (.ask nofun) fun _ => .pure) fun _ =>
      .ite (.modify fun _ => rfl) .pure

theorem replacePorts_overlooks {lines : List Text} : Overlooks swept (replacePorts dev lines) :=
  .ite (.bind (.ask nofun) fun _ => .ite .pure (.bind (.ask nofun) fun _ => .pure)) (.ask nofun)

theorem savePorts_overlooks {topo : Topology} {passAt : Nat} :
    Overlooks swept (savePorts dev topo passAt) := by
  refine .bind .get fun syncer => .ite .pure (.bind (.locked nofun ?_) fun wrote => ?_)
  · refine .bind (.bind .get fun _ => .ite (.bind (.ask nofun) fun _ => .pure) .pure) fun holds =>
      .ite .pure (.bind replacePorts_overlooks fun _ => .pure)
  · split
    · exact .pure
    · exact .modify fun _ => rfl

theorem setEach_overlooks {add : Bool} {macs : List Mac} : Overlooks swept (setEach index add macs) := by
  induction macs with
  | nil => exact .pure
  | cons mac rest ih => exact .bind (.ask nofun) fun _ => .bind ih fun _ => .pure

theorem registerBatchLocked_overlooks {macs : List Mac} :
    Overlooks swept (registerBatchLocked dev index macs) := by
  refine .locked nofun (.bind appendOwnedLocked_overlooks fun appended => ?_)
  split
  · exact .pure
  · exact .bind setEach_overlooks fun _ => .ite
      (.bind unnoteLocked_overlooks fun _ => .pure) .pure

theorem retire_overlooks {work : Section} {macs : List Mac} (spares : work = .sweep → swept dev) :
    Overlooks swept (retire work dev index macs) :=
  .locked spares (.bind setEach_overlooks fun _ => .bind forgetLocked_overlooks fun _ => .pure)

end Notes

section Pass

variable {swept : Name → Prop} {dev : Name} {index : Index} {topo : Topology} {reading : Reading}

theorem renamedTarget_overlooks : Overlooks swept (renamedTarget dev topo) := by
  refine .bind (.ask nofun) fun recorded => ?_
  split
  · exact .pure
  · split
    · exact .pure
    · exact .pure

theorem notedLink_overlooks : Overlooks swept (notedLink dev topo) := by
  unfold notedLink
  split
  · exact .pure
  · refine .bind recordedIndex_overlooks fun recorded => ?_
    split <;> exact .pure

theorem followRename_overlooks {newName : Name} :
    Overlooks swept (followRename dev newName index topo) := by
  have ports (syncer : Syncer) :
      (syncer.movePorts dev newName).absences = syncer.absences := by
    unfold Syncer.movePorts
    split <;> rfl
  have carried (syncer : Syncer) :
      (syncer.moveCarried dev newName).absences = syncer.absences := by
    unfold Syncer.moveCarried
    split <;> rfl
  have moves (syncer : Syncer) :
      (syncer.followTo dev newName).absences = syncer.absences :=
    (carried _).trans (ports syncer)
  exact .bind loadPorts_overlooks fun _ => .bind migrateNote_overlooks fun _ => .ite
    (.bind (.modify moves) fun _ => .bind .get fun _ => .bind savePorts_overlooks fun _ => .pure)
    .pure

theorem isUnidentified_overlooks : Overlooks swept (isUnidentified dev) := by
  refine .bind (.ask nofun) fun recorded => ?_
  split
  · exact .pure
  · exact .bind loadOwned_overlooks fun _ => .pure

theorem askDriver_overlooks {pfs : List Index} : Overlooks swept (askDriver pfs) := by
  refine .bind .get fun syncer => ?_
  split
  · exact .pure
  · refine .bind (.ask nofun) fun fresh => ?_
    split
    · exact .pure
    · exact .bind (.modify fun _ => rfl) fun _ => .pure

theorem decideWanted_overlooks {anat : Anatomy} {answer : Answer} {owned : Finset Mac} :
    Overlooks swept (decideWanted reading dev anat answer owned) := by
  refine .bind .get fun syncer => .ite (.bind (.modify fun _ => rfl) fun _ =>
    .bind (.ask nofun) fun fresh => ?_) .pure
  split
  · exact .pure
  · exact .bind (.modify fun _ => rfl) fun _ => .pure

theorem settleCard_overlooks {want owned : Finset Mac} :
    Overlooks swept (settleCard reading dev index want owned) := by
  refine .bind .get fun syncer => .bind (.ask nofun) fun wantOrder =>
    .bind (.ite noteIndex_overlooks .pure) fun _ => .bind (.ite ?_ .pure) fun put =>
      .bind (.ask nofun) fun ownedOrder => .bind (.ite ?_ .pure) fun retired =>
        .bind (.ite saveOwnedMerged_overlooks .pure) fun _ => .pure
  · refine .bind registerBatchLocked_overlooks fun registered => ?_
    split <;> exact .pure
  · refine .bind (retire_overlooks nofun) fun retired => .bind (.modify fun syncer => ?_) fun _ => .pure
    unfold Syncer.dropPorts
    split <;> rfl

theorem refreshMemory_overlooks {readable : Bool} {learntAt : LearntAt} {owned : Finset Mac} :
    Overlooks swept (refreshMemory reading dev readable learntAt owned) :=
  .ite (.bind (.modify fun _ => rfl) fun _ => .ite savePorts_overlooks .pure) .pure

theorem passUplink_overlooks {pair : Pair} {link : Link} {anat : Anatomy} {answer : Answer} :
    Overlooks swept (passUplink reading pair link anat answer) := by
  refine .bind loadPorts_overlooks fun _ => .bind loadOwned_overlooks fun owned =>
    .bind noteIsReadable_overlooks fun readable => .bind decideWanted_overlooks fun decided => ?_
  split
  · exact .pure
  · exact .bind .get fun _ => .bind (.ite (.bind (.ask nofun) fun _ => .pure) .pure) fun _ =>
      .bind settleCard_overlooks fun _ => .bind refreshMemory_overlooks fun _ =>
        .bind (.modify fun _ => rfl) fun _ => .pure

theorem settleName_overlooks : Overlooks swept (settleName reading dev index) := by
  refine .bind recordedIndex_overlooks fun recorded => .ite .pure (.bind .get fun syncer =>
    .ite .pure (.bind renamedTarget_overlooks fun target => ?_))
  split
  · exact followRename_overlooks
  · exact .bind (.locked nofun removeNote_overlooks) fun _ => .bind (.modify fun _ => rfl) fun _ => .pure

theorem passPair_overlooks {pair : Pair} {answer : Answer} :
    Overlooks swept (passPair reading pair answer) := by
  unfold passPair
  split
  · split
    · exact .bind settleName_overlooks fun _ => .ite passUplink_overlooks .pure
    · exact .pure
  · exact .pure

theorem passPairs_overlooks {pairs : List Pair} {answer : Answer} :
    Overlooks swept (passPairs reading pairs answer) := by
  induction pairs generalizing answer with
  | nil => exact .pure
  | cons pair rest ih =>
      refine .bind passPair_overlooks fun result => ?_
      split
      · exact .pure
      · refine .bind ih fun reports => ?_
        split <;> exact .pure

theorem stampPass_overlooks : Overlooks swept stampPass :=
  .bind (.ask nofun) fun _ => .bind .get fun _ => .bind (.modify fun _ => rfl) fun _ => .pure

end Pass

section Batch

variable {swept : Name → Prop} {dev : Name} {index : Index} {topo : Topology}

private theorem dropPorts_absences {syncer : Syncer} {macs : List Mac} :
    (syncer.dropPorts dev macs).absences = syncer.absences := by
  unfold Syncer.dropPorts
  split <;> rfl

private theorem noLongerKept_absences {syncer : Syncer} {macs : List Mac} :
    (syncer.noLongerKept dev macs).absences = syncer.absences := by
  unfold Syncer.noLongerKept
  split <;> rfl

private theorem freeSlots_absences {syncer : Syncer} {count : Nat} :
    (syncer.freeSlots dev count).absences = syncer.absences := by
  unfold Syncer.freeSlots
  split <;> rfl

theorem forgetReflected_overlooks {ours : List Mac} {freed : Nat} :
    Overlooks swept (forgetReflected topo dev ours freed) := by
  refine .ite (.bind (.modify fun syncer => ?_) fun _ => .bind .get fun _ =>
    savePorts_overlooks) .pure
  exact freeSlots_absences.trans (noLongerKept_absences.trans dropPorts_absences)

theorem reflectPair_overlooks {seen : Finset Mac} {fp : FastPair} :
    Overlooks swept (reflectPair topo seen fp) :=
  .ite .pure <| .bind loadOwned_overlooks fun _ => .ite .pure <|
    .bind loadOwned_overlooks fun _ => .bind (.ask nofun) fun _ =>
      .bind (retire_overlooks nofun) fun _ => .bind forgetReflected_overlooks fun _ =>
        .bind (.ite (.modify fun _ => rfl) .pure) fun _ => .pure

theorem reflectPairs_overlooks {seen : Name → Finset Mac} {pairs : List FastPair} :
    Overlooks swept (reflectPairs topo seen pairs) := by
  induction pairs with
  | nil => exact .pure
  | cons fp rest ih => exact .bind reflectPair_overlooks fun _ => .bind ih fun _ => .pure

theorem readBack_overlooks {cache : ReadBack} : Overlooks swept (readBack index cache) := by
  unfold readBack
  split
  · exact .pure
  · refine .bind (.ask nofun) fun answer => ?_
    split <;> exact .pure

theorem growing_overlooks {pairs : List FastPair} {devs : List Name} {would : Candidates}
    {cache : ReadBack} : Overlooks swept (growing pairs devs would cache) := by
  induction devs generalizing would cache with
  | nil => exact .pure
  | cons dev rest ih =>
      unfold growing
      split
      · exact ih
      · refine .bind readBack_overlooks fun answer => ?_
        split
        · exact .pure
        · exact .bind loadOwned_overlooks fun _ => ih

theorem refreshForGrowth_overlooks {pfs : List Index} {answer : Answer} {events : List Event}
    {pairs : List FastPair} : Overlooks swept (refreshForGrowth topo pfs answer events pairs) := by
  refine .ite (.bind .get fun syncer => .bind (.ask nofun) fun devs =>
    .bind growing_overlooks fun grown => ?_) .pure
  split
  · exact .pure
  · refine .ite .pure (.bind (.modify fun _ => rfl) fun _ => .bind (.ask nofun) fun _ =>
      .bind (.ask nofun) fun reply => ?_)
    split
    · exact .pure
    · exact .bind (.modify fun _ => rfl) fun _ => .bind .get fun _ => .pure

theorem shedKeeps_overlooks {need : Nat} {onCard : Finset Mac} :
    Overlooks swept (shedKeeps dev index need topo onCard) := by
  refine .bind loadOwned_overlooks fun _ => .bind noteIsReadable_overlooks fun _ =>
    .ite (.bind .get fun syncer => ?_) .pure
  split
  · exact .ite .pure (.bind (retire_overlooks nofun) fun _ => .ite .pure
      (.bind (.modify fun _ => dropPorts_absences) fun _ => .bind savePorts_overlooks fun _ =>
        .bind (.modify fun _ => noLongerKept_absences) fun _ => .bind (.ask nofun) fun _ => .pure))
  · exact .pure

theorem registerLearns_overlooks {fp : FastPair} {learns : List (Mac × Index)} {cache : ReadBack} :
    Overlooks swept (registerLearns topo fp learns cache) := by
  refine .bind (.ask nofun) fun now => .bind (.modify fun syncer => ?_) fun _ =>
    .bind readBack_overlooks fun answer => ?_
  · split <;> rfl
  · split
    · exact .pure
    · refine .bind .get fun _ => .bind (.ite shedKeeps_overlooks .pure) fun _ =>
        .bind noteIndex_overlooks fun _ => .bind (.bind registerBatchLocked_overlooks fun put => ?_)
          fun _ => .bind (.modify fun _ => rfl) fun _ => .pure
      split <;> exact .pure

theorem registerEach_overlooks {pairs : List FastPair} {candidates : Candidates}
    {devs : List Name} {cache : ReadBack} :
    Overlooks swept (registerEach topo pairs candidates devs cache) := by
  induction devs generalizing cache with
  | nil => exact .pure
  | cons dev rest ih =>
      unfold registerEach
      split
      · exact ih
      · refine .bind registerLearns_overlooks fun result => ?_
        split
        · exact .pure
        · exact ih

theorem applyLearns_overlooks {events : List Event} {urgency : Urgency} :
    Overlooks swept (applyLearns topo events urgency) := by
  refine .bind .get fun _ => .bind askDriver_overlooks fun answer => ?_
  split
  · exact .pure
  · refine .bind .get fun _ => .bind reflectPairs_overlooks fun _ =>
      .bind refreshForGrowth_overlooks fun refreshed => ?_
    split
    · exact .pure
    · refine .bind .get fun _ => .bind (.ask nofun) fun _ =>
        .bind registerEach_overlooks fun result => ?_
      split <;> exact .pure

/-- A batch leaves the clock of absences alone. -/
theorem fastApply_overlooks {events : List Event} : Overlooks swept (fastApply topo events) := by
  have dated (syncer : Syncer) (now : Nat) :
      (events.foldl (Syncer.dateOne topo now) syncer).absences = syncer.absences := by
    obtain ⟨_, same⟩ := dateAll_marks
    rw [same]
    rfl
  refine .ite .pure (.bind .get fun _ => .ite .pure (.bind (.ite ?_ .pure) fun _ =>
    .ite applyLearns_overlooks .pure))
  exact .bind (.bind (.ask nofun) fun now => .modify fun syncer => dated syncer now) fun _ => .pure

end Batch

end SriovMacSync
