import SriovMacSync.Memory.Serving
import SriovMacSync.Memory.Taking
import SriovMacSync.Pressure.Pass

namespace SriovMacSync

open Data Netlink Interaction Interaction.Action

/-! # What a rename makes of two memories

The notes of both names are merged; of the two memories one is carried on as it is. -/

variable {legible sure : Name → Prop} {shelf : Shelf} {syncer : Syncer} {old new : Name} {index : Index}
  {topo : Topology} {mac : Mac}

section Notes

theorem removeNote_shelf :
    Safe (shelving legible sure) (removeNote old) (fun _ after shelf' =>
      NoteMarks Set.univ syncer after ∧ (∀ other ≠ old, shelf'.drawer other = shelf.drawer other) ∧
        (shelf'.drawer old).stuck = (shelf.drawer old).stuck ∧
        ((shelf.drawer old).stuck = false → (shelf'.drawer old).ports = none)) syncer shelf := by
  apply safe_bind.mpr (safe_ask.mpr ⟨trivial, ?_⟩)
  intro _ shelf₁ unnoted
  have first : (∀ other ≠ old, shelf₁.drawer other = shelf.drawer other) ∧
      (shelf₁.drawer old).stuck = (shelf.drawer old).stuck := by
    rcases unnoted with left | ⟨_, left⟩
    · rw [left]
      exact ⟨fun other apart => Shelf.drawer_setNote_of_ne apart, by simp⟩
    · rw [left]
      exact ⟨fun _ _ => rfl, rfl⟩
  apply safe_bind.mpr (safe_ask.mpr ⟨trivial, ?_⟩)
  intro _ shelf₂ unrecorded
  have second : (∀ other ≠ old, shelf₂.drawer other = shelf₁.drawer other) ∧
      (shelf₂.drawer old).stuck = (shelf₁.drawer old).stuck := by
    rcases unrecorded with left | ⟨_, left⟩
    · rw [left]
      exact ⟨fun other apart => by simp [Shelf.setRecord, Shelf.setDrawer, apart],
        by simp [Shelf.setRecord, Shelf.setDrawer]⟩
    · rw [left]
      exact ⟨fun _ _ => rfl, rfl⟩
  apply safe_bind.mpr (safe_ask.mpr ⟨trivial, ?_⟩)
  intro removed shelf₃ answered
  have third : (∀ other ≠ old, shelf₃.drawer other = shelf₂.drawer other) ∧
      (shelf₃.drawer old).stuck = (shelf₂.drawer old).stuck ∧
      ((shelf₂.drawer old).stuck = false → (shelf₃.drawer old).ports = none) := by
    replace answered : if _ then _ else _ := answered
    split at answered
    · rename_i stuck
      rw [answered.2]
      exact ⟨fun _ _ => rfl, rfl, fun loose => absurd stuck (by simp [loose])⟩
    · rw [answered.2]
      exact ⟨fun other apart => Shelf.drawer_setPorts_of_ne apart, by simp, by simp⟩
  apply safe_modify.mpr
  have stuck := second.2.trans first.2
  refine ⟨.setIndex (Set.mem_univ old), fun other apart => ?_, third.2.1.trans stuck, fun loose => ?_⟩
  · rw [third.1 other apart, second.1 other apart, first.1 other apart]
  · exact third.2.2 (stuck.trans loose)

/-- What moving a note leaves of the new name. -/
structure Merged (old new : Name) (shelf shelf' : Shelf) : Prop where
  note : (shelf'.drawer new).note = (shelf.drawer old).note ∪ (shelf.drawer new).note
  ports : (shelf'.drawer new).ports = (shelf.drawer new).ports
  stuck : (shelf'.drawer new).stuck = (shelf.drawer new).stuck

theorem migrateLocked_shelf (apart : new ≠ old) (sureOld : sure old) (sureNew : sure new) :
    Safe (shelving legible sure) (migrateLocked old new index) (fun moved after shelf' =>
      moved = true ∧ NoteMarks Set.univ syncer after ∧ Merged old new shelf shelf') syncer shelf := by
  apply safe_bind.mpr
  apply loadOwned_shelf.mono
  intro owned syncer₁ _ ⟨same, marks, reads⟩
  subst same
  obtain ⟨readable, names⟩ := reads.resolve_left fun failed => failed.2.2.1 sureOld
  apply safe_bind.mpr (safe_ask.mpr ⟨trivial, ?_⟩)
  intro macs shelf same
  obtain rfl : shelf = _ := same
  have whole : macs.list.toFinset = (shelf.drawer old).note := by
    ext mac
    rw [List.mem_toFinset, macs.mem_iff, names]
  apply safe_bind.mpr (safe_bind.mpr (safe_get.mpr (safe_pure.mpr ?_)))
  rw [if_pos (by simpa using readable)]
  split
  · rename_i none
    apply safe_bind.mpr
    apply removeNote_shelf.mono
    intro _ after shelf' ⟨marks', others, _⟩
    rw [none, List.toFinset_nil] at whole
    refine ⟨rfl, marks.trans marks', ?_, ?_, ?_⟩
    · rw [others new apart, ← whole, Finset.empty_union]
    · rw [others new apart]
    · rw [others new apart]
  · apply safe_bind.mpr
    apply noteIndex_shelf.mono
    intro _ syncer₂ _ ⟨marks₂, record, recorded⟩
    subst recorded
    apply safe_bind.mpr
    apply appendOwnedLocked_shelf.mono
    intro fresh syncer₃ _ ⟨marks₃, note, noted, _, _, took, takes⟩
    subst noted
    obtain ⟨appended, same⟩ := Option.isSome_iff_exists.mp (takes sureNew)
    subst same
    obtain ⟨_, union⟩ := took appended rfl
    apply safe_bind.mpr
    apply removeNote_shelf.mono
    intro _ after shelf' ⟨marks₄, others, _⟩
    refine ⟨rfl, ((marks.trans marks₂).trans marks₃).trans marks₄, ?_, ?_, ?_⟩
    · rw [others new apart, Shelf.note_setNote, union, whole, Finset.union_comm]
      simp [Shelf.setRecord, Shelf.setDrawer]
    · rw [others new apart]
      simp [Shelf.setRecord, Shelf.setDrawer]
    · rw [others new apart]
      simp [Shelf.setRecord, Shelf.setDrawer]

theorem migrateNote_shelf (apart : new ≠ old) (sureOld : sure old) (sureNew : sure new) :
    Safe (shelving legible sure) (migrateNote old new index) (fun moved after shelf' =>
      moved = true ∧ NoteMarks Set.univ syncer after ∧ Merged old new shelf shelf') syncer shelf := by
  rw [migrateNote, if_neg apart.symm]
  split
  · apply locked_shelf
    apply locked_shelf
    apply (migrateLocked_shelf apart sureOld sureNew).mono
    intro _ _ _ facts
    obtain ⟨moved, marks, merged⟩ := facts
    exact ⟨moved, marks, merged.note, merged.ports, merged.stuck⟩
  · apply locked_shelf
    apply locked_shelf
    apply (migrateLocked_shelf apart sureOld sureNew).mono
    intro _ _ _ facts
    obtain ⟨moved, marks, merged⟩ := facts
    exact ⟨moved, marks, merged.note, merged.ports, merged.stuck⟩

end Notes

section Memories

/-- The memory that is carried on under the new name: the old name's where it brings one,
else what the process already carries for the new. -/
def Syncer.heir (syncer : Syncer) (topo : Topology) (shelf : Shelf) (old new : Name) : Option PortMap :=
  match syncer.brings topo shelf old with
  | some ports => some ports
  | none => syncer.carriedPorts new

theorem carriedPorts_followTo : (syncer.followTo old new).carriedPorts new =
    match syncer.carriedPorts old with
    | some ports => some ports
    | none => syncer.carriedPorts new := by
  have kept {before : Syncer} : (before.moveCarried old new).carriedPorts = before.carriedPorts := by
    unfold Syncer.moveCarried
    split <;> rfl
  rw [Syncer.followTo, kept]
  cases known : syncer.carriedPorts old with
  | none => simp [Syncer.moveMarks, Syncer.movePorts, Syncer.setPortsWritten, known]
  | some ports => simp [Syncer.moveMarks, Syncer.movePorts, Syncer.setPortsWritten, Syncer.setPorts, known]

theorem portsWritten_followTo : (syncer.followTo old new).portsWritten new = none := by
  have kept {before : Syncer} : (before.moveCarried old new).portsWritten = before.portsWritten := by
    unfold Syncer.moveCarried
    split <;> rfl
  rw [Syncer.followTo, kept]
  simp [Syncer.moveMarks, Syncer.setPortsWritten]

theorem mem_portsLoaded_followTo (apart : new ≠ old) : new ∈ (syncer.followTo old new).portsLoaded ↔
    (syncer.carriedPorts old).isSome ∨ new ∈ syncer.portsLoaded := by
  have kept {before : Syncer} : (before.moveCarried old new).portsLoaded = before.portsLoaded := by
    unfold Syncer.moveCarried
    split <;> rfl
  rw [Syncer.followTo, kept]
  cases known : syncer.carriedPorts old with
  | none => simp [Syncer.moveMarks, Syncer.movePorts, Syncer.setPortsWritten, known, apart]
  | some ports => simp [Syncer.moveMarks, Syncer.movePorts, Syncer.setPortsWritten, known, apart]

/-- What a followed rename leaves under the new name. -/
structure Followed (syncer : Syncer) (topo : Topology) (shelf : Shelf) (old new : Name) (after : Syncer)
    (shelf' : Shelf) : Prop where
  note : (shelf'.drawer new).note = (shelf.drawer old).note ∪ (shelf.drawer new).note
  carried : after.carriedPorts new = syncer.heir topo shelf old new
  filed : (syncer.heir topo shelf old new).isSome →
    (shelf'.drawer new).ports = fileOf topo ((syncer.heir topo shelf old new).getD ∅)

theorem followRename_shelf (plain : topo.Plain) (apart : new ≠ old) (acts : syncer.dryRun = false)
    (sureOld : sure old) (sureNew : sure new) (loose : (shelf.drawer new).stuck = false) :
    Safe (shelving legible sure) (followRename old new index topo) (fun moved after shelf' =>
      moved = true ∧ Followed syncer topo shelf old new after shelf') syncer shelf := by
  apply safe_bind.mpr
  apply (loadPorts_shelf plain).mono
  intro _ syncer₁ _ takes
  obtain ⟨clock, _, ticked⟩ := takes.later
  subst ticked
  apply safe_bind.mpr
  apply (migrateNote_shelf apart sureOld sureNew).mono
  intro moved syncer₂ shelf₂ ⟨moves, marks, merged⟩
  subst moves
  have beside : Syncer.Beside new syncer syncer₂ := (takes.others new apart).trans (.of_noteMarks marks)
  have brought : syncer₂.carriedPorts old = syncer.brings topo shelf old :=
    ((Syncer.Beside.of_noteMarks marks).carriedPorts).trans takes.ports
  have inherits : (syncer₂.followTo old new).carriedPorts new = syncer.heir topo shelf old new := by
    rw [carriedPorts_followTo, brought, beside.carriedPorts, Syncer.heir]
  have willing : (syncer₂.followTo old new).dryRun = false := by
    have same := (DeviceMarks.followTo : DeviceMarks syncer₂ (syncer₂.followTo old new)).settings
    rw [beside.settings] at same
    rw [same]
    exact acts
  rw [if_pos rfl]
  apply safe_bind.mpr (safe_modify.mpr ?_)
  apply safe_bind.mpr (safe_get.mpr ?_)
  apply safe_bind.mpr
  apply (savePorts_shelf plain).mono
  intro _ after shelf' ⟨written, text, held, wrote, left, _, saved⟩
  subst wrote left
  refine ⟨rfl, by simpa using merged.note, inherits, fun some => ?_⟩
  have minds : (syncer₂.followTo old new).Minds new := ⟨willing, .inr (inherits ▸ some)⟩
  have fresh := saved.fresh minds (merged.stuck.trans loose) portsWritten_followTo
  rw [inherits] at fresh
  simpa using fresh

end Memories

section Keeps

/-- A port that an interface still bears. -/
def Living (topo : Topology) (port : Index) : Prop := ∃ name, topo.indexOf name = some port

/-- The memory of an uplink: what the process carries, else what its file gives. -/
def Syncer.memoryOf (syncer : Syncer) (topo : Topology) (shelf : Shelf) (dev : Name) : PortMap :=
  (syncer.carriedPorts dev).getD (takeOver (believed topo (shelf.drawer dev).ports) shelf.clock)

/-- The lines for a living port that an address has under either name. -/
def Syncer.linesUnder (syncer : Syncer) (topo : Topology) (shelf : Shelf) (old new : Name) (mac : Mac) :
    Set (Index × Nat) :=
  {line | Living topo line.1 ∧ ((syncer.memoryOf topo shelf old).lookup mac = some line ∨
    (syncer.memoryOf topo shelf new).lookup mac = some line)}

/-- A rename forgets no keep: the note names what either named, and every address of it
with a line has its youngest one, in the process and on file. -/
structure KeepsNoted (syncer : Syncer) (topo : Topology) (shelf : Shelf) (old new : Name) (after : Syncer)
    (shelf' : Shelf) : Prop where
  note : (shelf'.drawer new).note = (shelf.drawer old).note ∪ (shelf.drawer new).note
  lines : ∀ mac ∈ (shelf'.drawer new).note, (syncer.linesUnder topo shelf old new mac).Nonempty →
    ∃ line ∈ syncer.linesUnder topo shelf old new mac,
      (∀ other ∈ syncer.linesUnder topo shelf old new mac, other.2 ≤ line.2) ∧
      (∃ ports, after.carriedPorts new = some ports ∧ ports.lookup mac = some line) ∧
      ∃ name, (⟨mac, name, line.1, line.2⟩ : PortsLine) ∈ believed topo (shelf'.drawer new).ports

/-- The memory carried on has, for every noted address, a line that no other line is
younger than. -/
def Syncer.HeirSuffices (syncer : Syncer) (topo : Topology) (shelf : Shelf) (old new : Name) : Prop :=
  ∀ mac ∈ (shelf.drawer old).note ∪ (shelf.drawer new).note,
    ∀ other ∈ syncer.linesUnder topo shelf old new mac,
      ∃ ports line, syncer.heir topo shelf old new = some ports ∧ ports.lookup mac = some line ∧
        Living topo line.1 ∧ other.2 ≤ line.2

/-- What is carried on was remembered under one of the names. -/
theorem Syncer.heir_remembered {ports : PortMap} {line : Index × Nat}
    (inherits : syncer.heir topo shelf old new = some ports) (found : ports.lookup mac = some line) :
    (syncer.memoryOf topo shelf old).lookup mac = some line ∨
      (syncer.memoryOf topo shelf new).lookup mac = some line := by
  rw [Syncer.heir] at inherits
  cases brought : syncer.brings topo shelf old with
  | none =>
      rw [brought] at inherits
      dsimp only at inherits
      exact .inr (by rw [Syncer.memoryOf, inherits]; exact found)
  | some taken =>
      rw [brought] at inherits
      obtain rfl := Option.some.inj inherits
      rw [Syncer.brings] at brought
      cases carried : syncer.carriedPorts old with
      | some kept =>
          rw [carried] at brought
          obtain rfl := Option.some.inj brought
          exact .inl (by rw [Syncer.memoryOf, carried]; exact found)
      | none =>
          rw [carried] at brought
          dsimp only at brought
          split at brought
          · cases brought
          · split at brought
            · cases brought
            · obtain rfl := Option.some.inj brought
              exact .inl (by rw [Syncer.memoryOf, carried]; exact found)

/-- A line on file is one of the memory that was written. -/
theorem mem_believed_of_living (plain : topo.Plain) {ports : PortMap} {line : Index × Nat}
    (found : ports.lookup mac = some line) (living : Living topo line.1) :
    ∃ name, (⟨mac, name, line.1, line.2⟩ : PortsLine) ∈ believed topo (fileOf topo ports) := by
  obtain ⟨name, bears⟩ := living
  exact ⟨name, (mem_believed_fileOf plain).mpr ⟨found, bears⟩⟩

end Keeps

/-- A followed rename forgets no keep exactly where the memory carried on has the youngest
line of every noted address. -/
theorem rename_keeps_noted_iff {after : Syncer} {shelf' : Shelf} (plain : topo.Plain) (apart : new ≠ old)
    (acts : syncer.dryRun = false) (sureOld : sure old) (sureNew : sure new)
    (loose : (shelf.drawer new).stuck = false)
    (ran : Runs (shelving legible sure) (followRename old new index topo) syncer shelf true after shelf') :
    KeepsNoted syncer topo shelf old new after shelf' ↔ syncer.HeirSuffices topo shelf old new := by
  obtain ⟨_, followed⟩ := (followRename_shelf plain apart acts sureOld sureNew loose).runs ran
  constructor
  · intro keeps mac noted other listed
    rw [← followed.note] at noted
    obtain ⟨line, ⟨living, _⟩, youngest, ⟨ports, carried, found⟩, _⟩ := keeps.lines mac noted ⟨other, listed⟩
    exact ⟨ports, line, followed.carried ▸ carried, found, living, youngest other listed⟩
  · intro enough
    refine ⟨followed.note, fun mac noted ⟨other, listed⟩ => ?_⟩
    rw [followed.note] at noted
    obtain ⟨ports, line, inherits, found, living, _⟩ := enough mac noted other listed
    have filed := followed.filed (by rw [inherits]; rfl)
    rw [inherits, Option.getD_some] at filed
    refine ⟨line, ⟨living, Syncer.heir_remembered inherits found⟩, fun other listed => ?_,
      ⟨ports, followed.carried.trans inherits, found⟩, filed ▸ mem_believed_of_living plain found living⟩
    obtain ⟨ports', line', inherits', found', _, younger⟩ := enough mac noted other listed
    rw [inherits] at inherits'
    obtain rfl := Option.some.inj inherits'
    rw [found] at found'
    obtain rfl := Option.some.inj found'
    exact younger

/-- The interface of `nic1` was called `eth0` when the first note was written. -/
def renamedShelf : Shelf where
  drawer := fun dev =>
    { note := if dev = "eth0" then {silentGuest} else if dev = "nic1" then {guest} else ∅
      record := if dev = "eth0" ∨ dev = "nic1" then some 2 else none
      ports := none, stuck := false, deeds := [] }
  lists := fun index => if index = 2 then {silentGuest, guest} else ∅
  fdb := []
  clock := 12
  held := none

/-- A process that remembers a guest under each name. -/
def bothNamesSyncer : Syncer where
  pairs := [⟨"nic1", "br0"⟩]
  authoritative := true
  portsLoaded := {"eth0", "nic1"}
  carriedPorts := fun dev =>
    if dev = "eth0" then some ((∅ : PortMap).insert silentGuest (4, 3))
    else if dev = "nic1" then some ((∅ : PortMap).insert guest (4, 9))
    else none

/-- The same with nothing carried under the new name. -/
def oldNameSyncer : Syncer :=
  { bothNamesSyncer with
    portsLoaded := {"eth0"}
    carriedPorts := fun dev =>
      if dev = "eth0" then some (((∅ : PortMap).insert guest (4, 9)).insert silentGuest (4, 3)) else none }

theorem rename_keeps_noted_old_name : ∃ (after : Syncer) (shelf' : Shelf),
    Runs (shelving (fun _ => True) fun _ => True) (followRename "eth0" "nic1" 2 bridgedTopology) oldNameSyncer
      renamedShelf true after shelf' ∧
      KeepsNoted oldNameSyncer bridgedTopology renamedShelf "eth0" "nic1" after shelf' := by
  have ended : (renamedShelf.serves ∅ (followRename "eth0" "nic1" 2 bridgedTopology) oldNameSyncer).1.1 = true := by
    decide +kernel
  have ran : Runs (shelving (fun _ => True) fun _ => True) (followRename "eth0" "nic1" 2 bridgedTopology)
      oldNameSyncer renamedShelf _ _ _ := Shelf.serves_runs ∅ ..
  rw [ended] at ran
  refine ⟨_, _, ran, (rename_keeps_noted_iff bridgedTopology_plain (by decide) rfl trivial trivial rfl ran).mpr ?_⟩
  intro mac _ other ⟨living, under⟩
  rcases under with found | none
  · exact ⟨_, other, rfl, found, living, Nat.le_refl _⟩
  · cases none

/-- What was remembered under the new name is lost to what the old name brings. -/
theorem rename_forgets_new_name : ∃ (after : Syncer) (shelf' : Shelf),
    Runs (shelving (fun _ => True) fun _ => True) (followRename "eth0" "nic1" 2 bridgedTopology) bothNamesSyncer
      renamedShelf true after shelf' ∧ bridgedTopology.indexOf "eth0" = none ∧
      bridgedTopology.indexOf "nic1" = some 2 ∧ (renamedShelf.drawer "eth0").record = some 2 ∧
      (renamedShelf.drawer "nic1").record = some 2 ∧
      (4, 9) ∈ bothNamesSyncer.linesUnder bridgedTopology renamedShelf "eth0" "nic1" guest ∧
      guest ∈ (shelf'.drawer "nic1").note ∧ (∀ ports, after.carriedPorts "nic1" = some ports → guest ∉ ports) ∧
      ¬ KeepsNoted bothNamesSyncer bridgedTopology renamedShelf "eth0" "nic1" after shelf' := by
  have ended : (renamedShelf.serves ∅ (followRename "eth0" "nic1" 2 bridgedTopology) bothNamesSyncer).1.1 = true := by
    decide +kernel
  have ran : Runs (shelving (fun _ => True) fun _ => True) (followRename "eth0" "nic1" 2 bridgedTopology)
      bothNamesSyncer renamedShelf _ _ _ := Shelf.serves_runs ∅ ..
  rw [ended] at ran
  obtain ⟨_, followed⟩ :=
    (followRename_shelf bridgedTopology_plain (by decide) rfl trivial trivial rfl).runs ran
  have under : (4, 9) ∈ bothNamesSyncer.linesUnder bridgedTopology renamedShelf "eth0" "nic1" guest :=
    ⟨⟨"vetha", rfl⟩, .inr rfl⟩
  have noted := followed.note
  rw [show (renamedShelf.drawer "eth0").note ∪ (renamedShelf.drawer "nic1").note = {silentGuest, guest} by
    decide] at noted
  have carried := followed.carried
  refine ⟨_, _, ran, rfl, rfl, rfl, rfl, under, noted ▸ by decide, fun ports known => ?_, fun keeps => ?_⟩
  · rw [carried] at known
    obtain rfl := Option.some.inj known
    decide
  · obtain ⟨line, _, _, ⟨ports, known, found⟩, _⟩ := keeps.lines guest (noted ▸ by decide) ⟨_, under⟩
    rw [carried] at known
    obtain rfl := Option.some.inj known
    cases found

end SriovMacSync
