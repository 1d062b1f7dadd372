import SriovMacSync.Memory.Taking
import SriovMacSync.Sync.Pass

namespace SriovMacSync

open Data Netlink Interaction Interaction.Action

/-! # What is left alone by the turns of others

The rest of a pass works on other notes and other filters, unless a record leads it to
this device. -/

variable {legible sure : Name → Prop} {shelf : Shelf} {syncer : Syncer} {dev other : Name} {index : Index}
  {topo : Topology} {devs : Set Name} {filters : Set (Index × Bool)} {reading : Reading}

section Records

/-- The record beside a note leads to the interface of a device. -/
def Shelf.Leads (shelf : Shelf) (topo : Topology) (dev other : Name) : Prop :=
  ∃ index, (shelf.drawer other).record = some index ∧ topo.nameOf index = some dev

namespace Shelf

variable {place : Index} {mac : Mac} {add : Bool} {reply : Except Errno Unit} {list note : Finset Mac}

theorem record_setNote : ((shelf.setNote other note).drawer dev).record = (shelf.drawer dev).record := by
  by_cases same : dev = other
  · subst same
    simp
  · rw [drawer_setNote_of_ne same]

theorem record_setPorts {ports : Option Text} :
    ((shelf.setPorts other ports).drawer dev).record = (shelf.drawer dev).record := by
  by_cases same : dev = other
  · subst same
    simp
  · rw [drawer_setPorts_of_ne same]

theorem record_does : ((shelf.does place mac add reply list).drawer dev).record = (shelf.drawer dev).record := by
  unfold does
  split
  · rename_i named work held
    by_cases same : dev = named
    · subst same
      simp [setDrawer]
    · simp [setDrawer, same]
  · rfl

theorem record_setRecord {record : Option Index} : ((shelf.setRecord other record).drawer dev).record =
    if dev = other then record else (shelf.drawer dev).record := by
  by_cases same : dev = other
  · subst same
    simp [setRecord, setDrawer]
  · simp [setRecord, setDrawer, same]

end Shelf

/-- A record that was not there before is the one that was asked to be written. -/
theorem record_answered {request : Call} {reply : Reply request} {after : Shelf}
    (answered : (shelving legible sure).answers shelf request reply after)
    (recorded : (after.drawer other).record = some index) :
    (shelf.drawer other).record = some index ∨ request = .putIndex other index := by
  cases request with
  | putIndex named place =>
      rcases answered with ⟨_, written⟩ | ⟨_, _, same⟩
      · subst written
        rw [Shelf.record_setRecord] at recorded
        split at recorded
        · rename_i same
          subst same
          obtain rfl := Option.some.inj recorded
          exact .inr rfl
        · exact .inl recorded
      · exact .inl (same ▸ recorded)
  | removeIndex named =>
      left
      rcases answered with removed | ⟨_, same⟩
      · subst removed
        rw [Shelf.record_setRecord] at recorded
        split at recorded
        · cases recorded
        · exact recorded
      · exact same ▸ recorded
  | setSelfFdb place mac add =>
      left
      obtain ⟨list, _, written⟩ := answered
      subst written
      rwa [Shelf.record_does] at recorded
  | putNote named macs =>
      left
      rcases answered with ⟨_, written⟩ | ⟨_, _, same⟩
      · rwa [written, Shelf.record_setNote] at recorded
      · exact same ▸ recorded
  | appendNote named macs =>
      left
      rcases answered with ⟨_, written⟩ | ⟨_, _, part, _, written⟩
      · rwa [written, Shelf.record_setNote] at recorded
      · rwa [written, Shelf.record_setNote] at recorded
  | removeNote named =>
      left
      rcases answered with written | ⟨_, same⟩
      · rwa [written, Shelf.record_setNote] at recorded
      · exact same ▸ recorded
  | putPorts named text =>
      left
      replace answered : if _ then _ else _ := answered
      split at answered
      · exact answered.2 ▸ recorded
      · rwa [answered.2, Shelf.record_setPorts] at recorded
  | removePorts named =>
      left
      replace answered : if _ then _ else _ := answered
      split at answered
      · exact answered.2 ▸ recorded
      · rwa [answered.2, Shelf.record_setPorts] at recorded
  | dumpFdb => exact .inl (answered.1 ▸ recorded)
  | bootMillis =>
      obtain ⟨_, later, _, ticked⟩ := answered
      subst ticked
      exact .inl recorded
  | lock named work =>
      obtain rfl : after = _ := answered
      exact .inl recorded
  | unlock named =>
      obtain rfl : after = _ := answered
      exact .inl recorded
  | readNote named => cases reply <;> exact .inl (answered.1 ▸ recorded)
  | readIndex named => exact .inl (answered.1 ▸ recorded)
  | readPorts named => exact .inl (answered.1 ▸ recorded)
  | portsExist named => exact .inl (answered.1 ▸ recorded)
  | _ =>
      obtain rfl : after = shelf := answered
      exact .inl recorded

end Records

/-- What does not concern a device: what is remembered about it and its drawer stay, and no
further record leads to it. -/
structure Apart (topo : Topology) (dev : Name) (syncer : Syncer) (shelf : Shelf) (after : Syncer) (shelf' : Shelf) :
    Prop where
  memory : Syncer.Beside dev syncer after
  drawer : shelf'.drawer dev = shelf.drawer dev
  away : shelf'.Away dev
  leads : ∀ other ≠ dev, shelf'.Leads topo dev other → shelf.Leads topo dev other

theorem Apart.refl (away : shelf.Away dev) : Apart topo dev syncer shelf syncer shelf :=
  ⟨.refl _, rfl, away, fun _ _ => id⟩

theorem Apart.trans {middle after : Syncer} {between shelf' : Shelf}
    (first : Apart topo dev syncer shelf middle between) (second : Apart topo dev middle between after shelf') :
    Apart topo dev syncer shelf after shelf' where
  memory := first.memory.trans second.memory
  drawer := second.drawer.trans first.drawer
  away := second.away
  leads other apart led := first.leads other apart (second.leads other apart led)

/-- Work on other files and other filters does not concern a device. -/
theorem apart_shelf {α : Type} {action : Sync α}
    (within : Within (InScope devs filters) action (fun _ after => Syncer.Beside dev syncer after) syncer)
    (outside : dev ∉ devs) (elsewhere : ∀ filter ∈ filters, topo.nameOf filter.1 ≠ some dev)
    (away : shelf.Away dev) :
    Safe (shelving legible sure) action (fun _ after shelf' => Apart topo dev syncer shelf after shelf')
      syncer shelf := by
  have kept : Safe (shelving legible sure) action (fun _ after shelf' => Syncer.Beside dev syncer after ∧
      shelf'.drawer dev = shelf.drawer dev ∧ shelf'.Away dev ∧
        ∀ other ≠ dev, shelf'.Leads topo dev other → shelf.Leads topo dev other) syncer shelf := by
    apply within.frame _ ⟨rfl, away, fun _ _ => id⟩
    intro middle request ⟨drawer, free, leads⟩ scope
    refine ⟨trivial, fun reply after answered => ?_⟩
    obtain ⟨same, free', _⟩ := drawer_of_elsewhere scope outside free answered
    refine ⟨same.trans drawer, free', fun other apart ⟨index, recorded, bears⟩ => ?_⟩
    rcases record_answered answered recorded with before | asked
    · exact leads other apart ⟨index, before, bears⟩
    · obtain ⟨add, member⟩ := scope.2.2 index (by rw [asked]; rfl)
      exact absurd bears (elsewhere _ member)
  exact kept.mono fun _ _ _ ⟨memory, drawer, away, leads⟩ => ⟨memory, drawer, away, leads⟩

section Turns

theorem decideWanted_beside {anat : Anatomy} {answer : Answer} {owned : Finset Mac} :
    Within (InScope devs filters) (decideWanted reading other anat answer owned)
      (fun _ after => Syncer.Beside dev syncer after) syncer := by
  apply within_get
  dsimp only
  split
  · apply Syncer.Beside.bind (within_modify ⟨rfl, rfl, Iff.rfl, rfl⟩)
    intro _ middle
    apply within_ask_bind (inScope_idle rfl rfl)
    intro fresh
    cases fresh with
    | error errno => exact within_pure.mpr (.refl _)
    | ok fresh =>
        apply Syncer.Beside.bind (within_modify ⟨rfl, rfl, Iff.rfl, rfl⟩)
        intro _ middle
        exact within_pure.mpr (.refl _)
  · exact within_pure.mpr (.refl _)

variable (apart : dev ≠ other)

include apart

theorem loadPorts_beside (member : other ∈ devs) :
    Within (InScope devs filters) (loadPorts other topo) (fun _ after => Syncer.Beside dev syncer after) syncer := by
  have read {before : Syncer} :
      Syncer.Beside dev before { before with portsLoaded := insert other before.portsLoaded } :=
    ⟨rfl, rfl, by simp [apart], rfl⟩
  apply within_get
  split
  · exact within_pure.mpr (.refl _)
  · apply Syncer.Beside.bind (within_modify read)
    intro _ middle
    split
    · exact within_pure.mpr (.refl _)
    · apply within_ask_bind (inScope_idle rfl rfl)
      intro now
      apply Syncer.Beside.bind
      · apply within_ask_bind (inScope_file rfl rfl rfl member)
        intro text
        exact within_pure.mpr (.refl _)
      · intro lines middle
        dsimp only
        split
        · exact within_modify ((Syncer.Beside.setPorts apart).trans (.setPortsWritten apart))
        · exact within_pure.mpr (.refl _)

theorem settleCard_beside {want owned : Finset Mac} (member : other ∈ devs) (adds : (index, true) ∈ filters)
    (removes : (index, false) ∈ filters) :
    Within (InScope devs filters) (settleCard reading other index want owned)
      (fun _ after => Syncer.Beside dev syncer after) syncer := by
  apply within_get
  dsimp only
  apply within_ask_bind (inScope_idle rfl rfl)
  intro wantOrder
  apply Syncer.Beside.bind
  · rw [recordOwner]
    split
    · exact (noteIndex_within member adds).imp fun _ _ marks => .of_noteMarks marks
    · exact within_pure.mpr (.refl _)
  intro _ middle
  apply Syncer.Beside.bind
  · rw [registerMissing]
    split
    · apply Syncer.Beside.bind ((registerBatchLocked_within member adds).imp fun _ _ marks => .of_noteMarks marks)
      intro registered middle
      cases registered <;> exact within_pure.mpr (.refl _)
    · exact within_pure.mpr (.refl _)
  intro put middle
  apply within_ask_bind (inScope_idle rfl rfl)
  intro ownedOrder
  apply Syncer.Beside.bind
  · rw [retireStale]
    split
    · apply Syncer.Beside.bind ((retire_within member removes).imp fun _ _ marks => .of_noteMarks marks)
      intro retired middle
      exact Syncer.Beside.bind (within_modify (.dropPorts apart)) fun _ middle => within_pure.mpr (.refl _)
    · exact within_pure.mpr (.refl _)
  intro retired middle
  apply Syncer.Beside.bind
  · rw [mergeOwned]
    split
    · exact (saveOwnedMerged_within member).imp fun _ _ marks => .of_noteMarks marks
    · exact within_pure.mpr (.refl _)
  intro _ middle
  exact within_pure.mpr (.refl _)

theorem refreshMemory_beside {readable : Bool} {learntAt : LearntAt} {owned : Finset Mac} (member : other ∈ devs) :
    Within (InScope devs filters) (refreshMemory reading other readable learntAt owned)
      (fun _ after => Syncer.Beside dev syncer after) syncer := by
  rw [refreshMemory]
  split
  · apply Syncer.Beside.bind (within_modify (.setPorts apart))
    intro _ middle
    split
    · exact savePorts_beside apart member
    · exact within_pure.mpr (.refl _)
  · exact within_pure.mpr (.refl _)

theorem forgetUplink_beside : Syncer.Beside dev syncer (syncer.forgetUplink other) := by
  refine ⟨rfl, ?_, ?_, ?_⟩
  · simp [Syncer.stock, Syncer.forgetUplink, apart]
  · simp [Syncer.forgetUplink, apart]
  · simp [Syncer.forgetUplink, apart]

theorem sweepOrphan_beside {act : Bool} (member : other ∈ devs) (clears : Clears topo other filters) :
    Within (InScope devs filters) (sweepOrphan other topo act)
      (fun _ after => Syncer.Beside dev syncer after) syncer := by
  rw [sweepOrphan]
  split
  · apply Syncer.Beside.bind ((sweepNote_within member clears).imp fun _ _ marks => .of_noteMarks marks)
    intro noteGone middle
    apply within_modify
    split
    · exact (forgetUplink_beside apart).trans ⟨rfl, rfl, Iff.rfl, rfl⟩
    · exact forgetUplink_beside apart
  · apply Syncer.Beside.bind ((loadOwned_within member).imp fun _ _ marks => .of_noteMarks marks)
    intro _ middle
    exact within_pure.mpr (.refl _)

theorem sweepOrphan_apart {act : Bool} (away : shelf.Away dev) :
    Safe (shelving legible sure) (sweepOrphan other topo act) (fun _ after shelf' =>
      Apart topo dev syncer shelf after shelf') syncer shelf := by
  have clears : Clears topo other {filter | topo.nameOf filter.1 = some other} := by
    intro link found
    exact Topology.nameOf_of_indexOf (Topology.get_spec found).1
  apply apart_shelf (sweepOrphan_beside apart (Set.mem_singleton other) clears) (by simpa using apart) _ away
  intro filter named same
  rw [show topo.nameOf filter.1 = some other from named] at same
  exact apart (Option.some.inj same).symm

variable {new : Name} (beyond : dev ≠ new)

include beyond

theorem followTo_beside : Syncer.Beside dev syncer (syncer.followTo other new) := by
  have ports : Syncer.Beside dev syncer (syncer.movePorts other new) := by
    unfold Syncer.movePorts
    split
    · rename_i ports known
      have moved : Syncer.Beside dev syncer ((syncer.setPorts other none).setPorts new (some ports)) :=
        (Syncer.Beside.setPorts apart).trans (.setPorts beyond)
      exact ⟨moved.settings, moved.stock, by simp [beyond], moved.written⟩
    · exact .refl _
  have marks {syncer : Syncer} : Syncer.Beside dev syncer (syncer.moveMarks other new) := by
    refine ⟨rfl, rfl, by simp [Syncer.moveMarks, apart], ?_⟩
    simp [Syncer.moveMarks, Syncer.setPortsWritten, apart, beyond]
  have carried {syncer : Syncer} : Syncer.Beside dev syncer (syncer.moveCarried other new) := by
    unfold Syncer.moveCarried
    split
    · exact (Syncer.Beside.setCarried apart).trans (.setCarried beyond)
    · exact .refl _
  exact (ports.trans marks).trans carried

theorem followRename_beside : Within (InScope {other, new} {(index, true)}) (followRename other new index topo)
    (fun _ after => Syncer.Beside dev syncer after) syncer := by
  apply Syncer.Beside.bind (loadPorts_beside apart (by simp))
  intro _ middle
  apply Syncer.Beside.bind ((migrateNote_within (by simp) (by simp) (Set.mem_singleton _)).imp
    fun _ _ marks => .of_noteMarks marks)
  intro moved middle
  split
  · apply Syncer.Beside.bind (within_modify (followTo_beside apart beyond))
    intro _ middle
    apply within_get
    apply Syncer.Beside.bind (savePorts_beside beyond (by simp))
    intro _ middle
    exact within_pure.mpr (.refl _)
  · exact within_pure.mpr (.refl _)

theorem followRename_apart (bears : topo.nameOf index = some new) (away : shelf.Away dev) :
    Safe (shelving legible sure) (followRename other new index topo) (fun _ after shelf' =>
      Apart topo dev syncer shelf after shelf') syncer shelf := by
  apply apart_shelf (followRename_beside apart beyond) (by simp [apart, beyond]) _ away
  intro filter member same
  obtain rfl := Set.mem_singleton_iff.mp member
  rw [bears] at same
  exact beyond (Option.some.inj same).symm

end Turns

section Uplinks

variable {pair : Pair} {link : Link} {anat : Anatomy} {answer : Answer} (apart : dev ≠ pair.dev)

include apart

theorem passUplink_beside :
    Within (InScope {pair.dev} {(anat.dev, true), (anat.dev, false)})
      (passUplink reading pair link anat answer) (fun _ after => Syncer.Beside dev syncer after) syncer := by
  have member : pair.dev ∈ ({pair.dev} : Set Name) := rfl
  apply Syncer.Beside.bind (loadPorts_beside apart member)
  intro _ middle
  apply Syncer.Beside.bind ((loadOwned_within member).imp fun _ _ marks => .of_noteMarks marks)
  intro owned middle
  apply Syncer.Beside.bind (noteIsReadable_within.imp fun _ _ marks => @Syncer.Beside.of_noteMarks _ _ ∅ _ marks)
  intro readable middle
  apply Syncer.Beside.bind decideWanted_beside
  intro decision middle
  cases decision with
  | error errno => exact within_pure.mpr (.refl _)
  | ok decision =>
      apply within_get
      apply Syncer.Beside.bind
      · rw [reportReleased]
        split
        · exact Syncer.Beside.bind (within_ask.mpr ⟨inScope_idle rfl rfl, fun _ => .refl _⟩)
            fun _ middle => within_pure.mpr (.refl _)
        · exact within_pure.mpr (.refl _)
      intro _ middle
      apply Syncer.Beside.bind (settleCard_beside apart member (by simp) (by simp))
      intro settled middle
      apply Syncer.Beside.bind (refreshMemory_beside apart member)
      intro _ middle
      exact Syncer.Beside.bind (within_modify (.setCarried apart)) fun _ middle => within_pure.mpr (.refl _)

theorem passUplink_apart (named : topo.nameOf anat.dev = some pair.dev) (away : shelf.Away dev) :
    Safe (shelving legible sure) (passUplink reading pair link anat answer) (fun _ after shelf' =>
      Apart topo dev syncer shelf after shelf') syncer shelf := by
  apply apart_shelf (passUplink_beside apart) (by simpa using apart) _ away
  intro filter member
  have place : filter.1 = anat.dev := by
    rcases member with same | same
    · exact same ▸ rfl
    · exact (Set.mem_singleton_iff.mp same) ▸ rfl
  rw [place, named]
  exact fun same => apart (Option.some.inj same).symm

end Uplinks

end SriovMacSync
