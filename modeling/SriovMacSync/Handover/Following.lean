import SriovMacSync.Handover.Saving
import SriovMacSync.Memory.Preceding

namespace SriovMacSync

open Data Netlink Interaction Interaction.Action

/-! # Files that follow their interfaces

A rename takes the memory to the new name and leaves no file under the old one. -/

variable {legible sure : Name → Prop} {shelf shelf' : Shelf} {syncer after : Syncer} {dev old new : Name}
  {index : Index} {topo : Topology} {passAt : Nat} {macs : Set Mac} {reported : Prop}

section Moving

/-- Every memory file is what it was. -/
def Shelf.KeepsFiles (shelf shelf' : Shelf) : Prop := ∀ dev,
  (shelf'.drawer dev).ports = (shelf.drawer dev).ports ∧ (shelf'.drawer dev).stuck = (shelf.drawer dev).stuck

theorem Shelf.keepsFiles_setNote {note : Finset Mac} : shelf.KeepsFiles (shelf.setNote old note) := by
  intro dev
  by_cases same : dev = old
  · subst same
    simp
  · simp [Shelf.drawer_setNote_of_ne same]

theorem Shelf.keepsFiles_setRecord {record : Option Index} : shelf.KeepsFiles (shelf.setRecord old record) := by
  intro dev
  by_cases same : dev = old
  · subst same
    simp [Shelf.setRecord, Shelf.setDrawer]
  · simp [Shelf.setRecord, Shelf.setDrawer, same]

/-- What moving a note makes of the memory files: the old name's goes with it. -/
structure Relocated (old : Name) (moved : Bool) (shelf shelf' : Shelf) : Prop where
  stuck : ∀ dev, (shelf'.drawer dev).stuck = (shelf.drawer dev).stuck
  ports : ∀ dev, (moved = true → dev ≠ old) → (shelf'.drawer dev).ports = (shelf.drawer dev).ports
  gone : moved = true → (shelf.drawer old).stuck = false → (shelf'.drawer old).ports = none

theorem Relocated.waits (keeps : shelf.KeepsFiles shelf') : Relocated old false shelf shelf' :=
  ⟨fun dev => (keeps dev).2, fun dev _ => (keeps dev).1, nofun⟩

theorem Relocated.later {between : Shelf} {moved : Bool} (keeps : shelf.KeepsFiles between)
    (relocated : Relocated old moved between shelf') : Relocated old moved shelf shelf' where
  stuck dev := (relocated.stuck dev).trans (keeps dev).2
  ports dev apart := (relocated.ports dev apart).trans (keeps dev).1
  gone moved loose := relocated.gone moved ((keeps old).2.trans loose)

theorem removeNote_relocates :
    Safe (shelving legible sure) (removeNote old) (fun _ after shelf' =>
      NoteMarks Set.univ syncer after ∧ Relocated old true shelf shelf') syncer shelf := by
  apply removeNote_shelf.mono
  intro _ after shelf' ⟨marks, others, stuck, gone⟩
  refine ⟨marks, fun dev => ?_, fun dev apart => by rw [others dev (apart rfl)], fun _ => gone⟩
  by_cases same : dev = old
  · exact same ▸ stuck
  · rw [others dev same]

theorem migrateLocked_relocates :
    Safe (shelving legible sure) (migrateLocked old new index) (fun moved after shelf' =>
      NoteMarks Set.univ syncer after ∧ Relocated old moved shelf shelf') syncer shelf := by
  apply safe_bind.mpr
  apply loadOwned_shelf.mono
  intro owned syncer₁ _ ⟨same, marks, _⟩
  subst same
  apply safe_bind.mpr (safe_ask.mpr ⟨trivial, ?_⟩)
  intro macs shelf same
  obtain rfl : shelf = _ := same
  apply safe_bind.mpr (safe_bind.mpr (safe_get.mpr (safe_pure.mpr ?_)))
  split
  · split
    · apply safe_bind.mpr
      apply removeNote_relocates.mono
      intro _ after shelf' ⟨marks', relocated⟩
      exact ⟨marks.trans marks', relocated⟩
    · apply safe_bind.mpr
      apply noteIndex_shelf.mono
      intro _ syncer₂ _ ⟨marks₂, record, recorded⟩
      subst recorded
      apply safe_bind.mpr
      apply appendOwnedLocked_shelf.mono
      intro fresh syncer₃ _ ⟨marks₃, note, noted, _⟩
      subst noted
      have keeps : shelf.KeepsFiles ((shelf.setRecord new record).setNote new note) := fun dev =>
        ⟨(Shelf.keepsFiles_setNote dev).1.trans (Shelf.keepsFiles_setRecord dev).1,
          (Shelf.keepsFiles_setNote dev).2.trans (Shelf.keepsFiles_setRecord dev).2⟩
      have marks' := (marks.trans marks₂).trans marks₃
      cases fresh with
      | none => exact ⟨marks', .waits keeps⟩
      | some fresh =>
          apply safe_bind.mpr
          apply removeNote_relocates.mono
          intro _ after shelf' ⟨marks₄, relocated⟩
          exact ⟨marks'.trans marks₄, relocated.later keeps⟩
  · exact ⟨marks, .waits fun _ => ⟨rfl, rfl⟩⟩

theorem migrateNote_relocates (apart : new ≠ old) (away : shelf.Away dev) :
    Safe (shelving legible sure) (migrateNote old new index) (fun moved after shelf' =>
      NoteMarks Set.univ syncer after ∧ Relocated old moved shelf shelf' ∧ shelf'.Away dev) syncer shelf := by
  have moves : Safe (shelving legible sure) (migrateNote old new index) (fun moved after shelf' =>
      NoteMarks Set.univ syncer after ∧ Relocated old moved shelf shelf') syncer shelf := by
    have locked {first second : Name} {work : Section} : Safe (shelving legible sure)
        (locked first work (locked second work (migrateLocked old new index))) (fun moved after shelf' =>
          NoteMarks Set.univ syncer after ∧ Relocated old moved shelf shelf') syncer shelf := by
      apply locked_shelf
      apply locked_shelf
      apply migrateLocked_relocates.mono
      intro moved after shelf' facts
      obtain ⟨marks, relocated⟩ := facts
      exact ⟨marks, relocated.stuck, relocated.ports, relocated.gone⟩
    rw [migrateNote, if_neg apart.symm]
    split
    · exact locked
    · exact locked
  apply (moves.and (migrateNote_away away)).mono
  intro _ _ _ both
  obtain ⟨⟨marks, relocated⟩, free⟩ := both
  exact ⟨marks, relocated, free⟩

end Moving

section Renaming

theorem settings_followTo : (syncer.followTo old new).toSettings = syncer.toSettings :=
  (DeviceMarks.followTo : DeviceMarks syncer (syncer.followTo old new)).settings

/-- The new name counts as read where it did, or where a memory came along. -/
theorem unread_followTo (apart : new ≠ old) (never : (syncer.followTo old new).Unread new) : syncer.Unread new := by
  obtain ⟨unloaded, blank⟩ := never
  rw [mem_portsLoaded_followTo apart, not_or] at unloaded
  rw [carriedPorts_followTo] at blank
  cases known : syncer.carriedPorts old with
  | none =>
      rw [known] at blank
      exact ⟨unloaded.2, blank⟩
  | some ports =>
      rw [known] at unloaded
      exact absurd rfl unloaded.1

/-- The name an interface left: its file is gone and forgotten. -/
theorem followTo_advances_old (ready : Ready old syncer shelf) (gone : (shelf.drawer old).ports = none)
    {before : Syncer} {between : Shelf} :
    Advances reported False topo passAt old before between (syncer.followTo old new) shelf where
  ready := by
    refine ⟨(congrArg Settings.dryRun settings_followTo).trans ready.acts, ready.loose, ready.away, fun _ => ?_⟩
    exact portsWritten_followTo_old
  offered := by
    rw [Syncer.offered, gone]
    split <;> exact .inl rfl
  standing _ _ _ := .inr (.of_backed (.of_unwritten portsWritten_followTo_old) id)

/-- The name an interface took: the memory that is carried on is written there. -/
theorem followTo_saves_new (plain : topo.Plain) (apart : new ≠ old) (ready : Ready new syncer shelf) {passed : Nat} :
    Safe (shelving legible sure) (savePorts new topo passed) (fun _ after shelf' =>
      Advances reported reported topo passAt new syncer shelf after shelf') (syncer.followTo old new) shelf := by
  have acts := (congrArg Settings.dryRun (@settings_followTo syncer old new)).trans ready.acts
  have ready' : Ready new (syncer.followTo old new) shelf :=
    ⟨acts, ready.loose, ready.away, fun _ => portsWritten_followTo⟩
  apply (savePorts_writes ready').mono
  intro _ after shelf' ⟨free, outcome⟩
  rcases outcome with ⟨spared, same, drawer⟩ | ⟨heard, wrote, drawer⟩
  · subst same
    have never : (syncer.followTo old new).Unread new := by
      rcases spared with never | ⟨memo, _⟩
      · exact never
      · rw [portsWritten_followTo] at memo
        cases memo
    have blank := ready.read (unread_followTo apart never)
    refine ⟨⟨acts, by rw [drawer]; exact ready.loose, free, fun _ => portsWritten_followTo⟩, .inr ?_, ?_⟩
    · rw [Syncer.offered, if_pos never, Syncer.offered, if_pos (unread_followTo apart never), drawer]
    · intro stirred origin stands
      refine .inl ⟨⟨by rw [portsWritten_followTo, blank], by rw [drawer]⟩, ?_⟩
      apply Standing.of_backed (.of_unwritten portsWritten_followTo)
      intro told
      have written := stands.written told
      rw [blank] at written
      cases written
  · subst wrote
    refine .of_written plain ⟨acts, by rw [drawer]; exact ready.loose, free, fun never => absurd never heard⟩ heard
      (by simp [Syncer.setPortsWritten]; rfl) (by rw [drawer]; rfl)

/-- A rename followed, whether from, onto or past an uplink. -/
theorem followRename_advances (plain : topo.Plain) (apart : new ≠ old) (ready : Ready dev syncer shelf) :
    Safe (shelving legible sure) (followRename old new index topo) (fun moved after shelf' =>
      Advances reported (reported ∧ (dev = old → moved = false)) topo passAt dev syncer shelf after shelf')
      syncer shelf := by
  by_cases past : dev ≠ old ∧ dev ≠ new
  · apply (rests_elsewhere (followRename_beside past.1 past.2) (by simp [past]) ready.away).mono
    intro moved after shelf' rests
    exact (Advances.of_rests rests ready).imp fun told => told.1
  · apply safe_bind.mpr
    have reads : Safe (shelving legible sure) (loadPorts old topo) (fun _ after shelf' =>
        Advances reported reported topo passAt dev syncer shelf after shelf') syncer shelf := by
      by_cases same : dev = old
      · subst same
        exact loadPorts_advances plain ready
      · have within : Within (InScope {old} ∅) (loadPorts old topo) (fun _ after => Syncer.Beside dev syncer after)
            syncer := loadPorts_beside same (Set.mem_singleton old)
        exact (rests_elsewhere within (by simpa using same) ready.away).mono fun _ _ _ rests => .of_rests rests ready
    apply reads.mono
    intro _ syncer₁ shelf₁ first
    apply safe_bind.mpr
    apply (migrateNote_relocates apart first.ready.away).mono
    intro moved syncer₂ shelf₂ ⟨marks, relocated, free⟩
    have ready₂ : Ready dev syncer₂ shelf₂ := by
      obtain ⟨_, _, _, same⟩ := marks
      subst same
      exact ⟨first.ready.acts, (relocated.stuck dev).trans first.ready.loose, free, first.ready.read⟩
    have waits (stays : moved = true → dev ≠ old) :
        Advances reported reported topo passAt dev syncer shelf syncer₂ shelf₂ :=
      first.trans (.of_rests (.of_noteMarks marks (relocated.ports dev stays) (relocated.stuck dev) fun _ => free)
        first.ready)
    cases moved with
    | false => exact (waits nofun).imp fun told => told.1
    | true =>
        apply safe_bind.mpr (safe_modify.mpr ?_)
        apply safe_bind.mpr (safe_get.mpr ?_)
        apply safe_bind.mpr
        by_cases same : dev = old
        · subst same
          have gone := relocated.gone rfl first.ready.loose
          have left : Advances reported False topo passAt dev syncer shelf (syncer₂.followTo dev new) shelf₂ :=
            followTo_advances_old ready₂ gone
          have within {passed : Nat} : Within (InScope {new} ∅) (savePorts new topo passed)
              (fun _ after => Syncer.Beside dev (syncer₂.followTo dev new) after) (syncer₂.followTo dev new) :=
            savePorts_beside apart.symm (Set.mem_singleton new)
          apply (rests_elsewhere within (by simpa using apart.symm) free).mono
          intro _ after shelf' rests
          exact (left.trans (.of_rests rests left.ready)).imp fun told => nomatch told.2 rfl
        · obtain rfl : dev = new := by
            by_contra other
            exact past ⟨same, other⟩
          apply (followTo_saves_new plain apart ready₂).mono
          intro _ after shelf' saves
          exact ((waits fun _ => same).trans saves).imp fun told => told.1

end Renaming

section Settling

variable {named : Name} {reading : Reading}

/-- A name that is used again: the departed interface's file goes with its note. -/
theorem reused_advances (ready : Ready dev syncer shelf) :
    Safe (shelving legible sure) (locked dev .reused (removeNote dev)) (fun _ after shelf' =>
      Advances reported False topo passAt dev syncer shelf ((after.forgetUplink dev).sawNote dev true) shelf')
      syncer shelf := by
  apply locked_shelf
  apply removeNote_relocates.mono
  intro _ after shelf' ⟨marks, relocated⟩
  obtain ⟨_, _, _, same⟩ := marks
  subst same
  have loose : (shelf'.drawer dev).stuck = false := (relocated.stuck dev).trans ready.loose
  have gone : (shelf'.drawer dev).ports = none := relocated.gone rfl ready.loose
  refine ⟨⟨ready.acts, loose, nofun, fun _ => ?_⟩, .inl ?_, fun _ _ _ => .inr (.of_backed (.of_unwritten ?_) id)⟩
  · simp [Syncer.sawNote, Syncer.forgetUplink]
  · rw [Syncer.offered, Shelf.drawer_hold, gone]
    split <;> rfl
  · simp [Syncer.sawNote, Syncer.forgetUplink]

theorem reused_rests (apart : dev ≠ named) (away : shelf.Away dev) :
    Safe (shelving legible sure) (locked named .reused (removeNote named)) (fun _ after shelf' =>
      Rests macs dev syncer shelf ((after.forgetUplink named).sawNote named true) shelf') syncer shelf := by
  have within : Within (InScope {named} ∅) (locked named .reused (removeNote named))
      (fun _ after => Syncer.Beside dev syncer after) syncer :=
    (locked_within (Set.mem_singleton named) (removeNote_within (Set.mem_singleton named))).imp
      fun _ _ marks => .of_noteMarks marks
  apply (rests_elsewhere within (by simpa using apart) away).mono
  intro _ after shelf' rests
  have beside : Syncer.Beside dev after ((after.forgetUplink named).sawNote named true) :=
    (forgetUplink_beside apart).trans ⟨rfl, rfl, Iff.rfl, rfl⟩
  exact rests.trans (.of_beside beside rfl id)

/-- Settling a name, whether an uplink's own or another's. -/
theorem settleName_advances (plain : reading.topo.Plain) (ready : Ready dev syncer shelf) :
    Safe (shelving legible sure) (settleName reading named index) (fun goes after shelf' =>
      Advances reported (reported ∧ (dev = named → goes = false)) reading.topo passAt dev syncer shelf after shelf')
      syncer shelf := by
  have idle : Advances reported reported reading.topo passAt dev syncer shelf syncer shelf := .refl ready
  apply safe_bind.mpr
  apply recordedIndex_shelf.mono
  intro recorded syncer shelf ⟨same, same'⟩
  subst same same'
  split
  · exact idle.imp fun told => told.1
  · apply safe_bind.mpr (safe_get.mpr ?_)
    split
    · exact idle.imp fun told => told.1
    · apply safe_bind.mpr
      apply renamedTarget_shelf.mono
      intro target syncer₁ shelf₁ ⟨same, same', leadsTo⟩
      subst same same'
      split
      · rename_i target place new
        obtain ⟨_, other, _⟩ := leadsTo place new rfl
        exact followRename_advances plain other ready
      · apply safe_bind.mpr
        by_cases same : dev = named
        · subst same
          apply (reused_advances ready).mono
          intro _ after shelf' advances
          exact safe_bind.mpr (safe_modify.mpr (advances.imp fun told => nomatch told.2 rfl))
        · apply (reused_rests same ready.away).mono
          intro _ after shelf' rests
          exact safe_bind.mpr (safe_modify.mpr ((Advances.of_rests rests ready).imp fun told => told.1))

end Settling

end SriovMacSync
