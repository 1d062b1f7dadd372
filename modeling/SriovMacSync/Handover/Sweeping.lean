import SriovMacSync.Handover.Passing
import SriovMacSync.Memory.Refusals

namespace SriovMacSync

open Data Netlink Interaction Interaction.Action

/-! # A whole pass over an uplink's file

The sweep over the orphans comes first, and takes an uplink only where it is none. -/

variable {legible sure : Name → Prop} {shelf shelf' : Shelf} {syncer after : Syncer} {dev named : Name}
  {topo : Topology} {passAt : Nat} {apply act : Bool} {macs : Set Mac} {reported : Prop}

theorem Rests.of_apart (left : Apart topo dev syncer shelf after shelf') : Rests macs dev syncer shelf after shelf' :=
  .of_beside left.memory left.drawer fun _ => left.away

section Orphans

theorem stuck_answered {request : Call} {reply : Reply request}
    (answered : (shelving legible sure).answers shelf request reply shelf') :
    (shelf'.drawer dev).stuck = (shelf.drawer dev).stuck := by
  have drawers {named : Name} {drawer : Drawer} (kept : drawer.stuck = (shelf.drawer named).stuck) :
      ((shelf.setDrawer named drawer).drawer dev).stuck = (shelf.drawer dev).stuck := by
    by_cases here : dev = named
    · subst here
      simp [Shelf.setDrawer, kept]
    · simp [Shelf.setDrawer, here]
  cases request with
  | setSelfFdb index mac add =>
      obtain ⟨list, _, written⟩ := answered
      subst written
      unfold Shelf.does
      split
      · exact drawers rfl
      · rfl
  | dumpFdb => rw [answered.1]
  | bootMillis =>
      obtain ⟨_, later, _, ticked⟩ := answered
      subst ticked
      rfl
  | lock named work =>
      obtain rfl : shelf' = _ := answered
      rfl
  | unlock named =>
      obtain rfl : shelf' = _ := answered
      rfl
  | readNote named => cases reply <;> rw [answered.1]
  | putNote named macs =>
      rcases answered with ⟨_, written⟩ | ⟨_, _, same⟩
      · exact written ▸ drawers rfl
      · rw [same]
  | appendNote named macs =>
      rcases answered with ⟨_, written⟩ | ⟨_, _, part, _, written⟩
      · exact written ▸ drawers rfl
      · exact written ▸ drawers rfl
  | removeNote named =>
      rcases answered with removed | ⟨_, same⟩
      · exact removed ▸ drawers rfl
      · rw [same]
  | readIndex named => rw [answered.1]
  | putIndex named place =>
      rcases answered with ⟨_, written⟩ | ⟨_, _, same⟩
      · exact written ▸ drawers rfl
      · rw [same]
  | removeIndex named =>
      rcases answered with removed | ⟨_, same⟩
      · exact removed ▸ drawers rfl
      · rw [same]
  | readPorts named => rw [answered.1]
  | portsExist named => rw [answered.1]
  | putPorts named text =>
      replace answered : if _ then _ else _ := answered
      split at answered
      · rw [answered.2]
      · exact answered.2 ▸ drawers rfl
  | removePorts named =>
      replace answered : if _ then _ else _ := answered
      split at answered
      · rw [answered.2]
      · exact answered.2 ▸ drawers rfl
  | _ =>
      obtain rfl : shelf' = shelf := answered
      rfl

/-- Nothing a process does makes a file harder to write. -/
theorem stuck_shelf {α : Type} {action : Sync α} :
    Safe (shelving legible sure) action (fun _ _ shelf' => (shelf'.drawer dev).stuck = (shelf.drawer dev).stuck)
      syncer shelf :=
  Program.safe_of_kept (fun _ _ same => ⟨trivial, fun _ _ answered => (stuck_answered answered).trans same⟩)
    (show (shelf.drawer dev).stuck = (shelf.drawer dev).stuck from rfl)

theorem notedLink_shelf : Safe (shelving legible sure) (notedLink named topo) (fun _ after shelf' =>
    after = syncer ∧ shelf' = shelf) syncer shelf := by
  rw [notedLink]
  split
  · exact ⟨rfl, rfl⟩
  · apply safe_bind.mpr
    apply recordedIndex_shelf.mono
    intro recorded after shelf' same
    split
    · exact same
    · exact same

theorem isUnidentified_rests : Safe (shelving legible sure) (isUnidentified named) (fun _ after shelf' =>
    Rests macs dev syncer shelf after shelf') syncer shelf := by
  apply safe_bind.mpr (safe_ask.mpr ⟨trivial, ?_⟩)
  intro recorded shelf₁ ⟨same, _⟩
  subst same
  split
  · exact .refl
  · apply safe_bind.mpr
    apply loadOwned_shelf.mono
    intro owned after shelf' ⟨same, marks, _⟩
    exact .of_noteMarks marks (by rw [same]) (by rw [same]) fun free => same ▸ free

/-- An uplink that is none any more: with its note goes all that is held against its file. -/
theorem sweepOrphan_reworks (ready : Ready dev syncer shelf) :
    Safe (shelving legible sure) (sweepOrphan dev topo act) (fun _ after shelf' =>
      Reworks ∅ Set.univ dev syncer shelf after shelf') syncer shelf := by
  rw [sweepOrphan]
  split
  · apply safe_bind.mpr
    have marks : Safe (shelving legible sure) (sweepNote dev topo) (fun _ after _ => NoteMarks Set.univ syncer after)
        syncer shelf :=
      within_shelf (sweepNote_within (Set.mem_univ dev) fun _ _ => Set.mem_univ _)
    have free : Safe (shelving legible sure) (sweepNote dev topo) (fun _ _ shelf' => shelf'.held = none ∧
        (shelf'.drawer dev).stuck = (shelf.drawer dev).stuck) syncer shelf := locked_free.and stuck_shelf
    apply (marks.and free).mono
    intro noteGone middle shelf' facts
    obtain ⟨⟨_, _, _, same⟩, free, stuck⟩ := facts
    subst same
    refine safe_modify.mpr (.of_unwritten ⟨?_, stuck.trans ready.loose, ?_, fun _ => ?_⟩ ?_)
    · split <;> exact ready.acts
    · intro work held
      rw [free] at held
      cases held
    · split <;> simp [Syncer.sawNote, Syncer.forgetUplink]
    · split <;> simp [Syncer.sawNote, Syncer.forgetUplink]
  · apply safe_bind.mpr
    apply loadOwned_shelf.mono
    intro owned after shelf' facts
    obtain ⟨same, marks, _⟩ := facts
    exact .of_rests (.of_noteMarks marks (by rw [same]) (by rw [same]) fun free => same ▸ free) ready

/-- What its looking, its sweep and its rename keep, one device of the sweep keeps. -/
theorem dropOrphan_shelf {kept : Syncer → Shelf → Prop}
    (rests : ∀ {syncer shelf after shelf'}, kept syncer shelf → Rests ∅ dev syncer shelf after shelf' →
      kept after shelf')
    (sweeps : ∀ {syncer shelf act}, kept syncer shelf →
      Safe (shelving legible sure) (sweepOrphan named topo act) (fun _ after shelf' => kept after shelf') syncer shelf)
    (follows : ∀ {syncer shelf index new}, new ≠ named → kept syncer shelf →
      Safe (shelving legible sure) (followRename named new index topo) (fun _ after shelf' => kept after shelf')
        syncer shelf)
    (holds : kept syncer shelf) :
    Safe (shelving legible sure) (dropOrphan topo apply named) (fun _ after shelf' => kept after shelf') syncer shelf := by
  apply safe_bind.mpr (safe_get.mpr ?_)
  dsimp only
  apply safe_bind.mpr
  apply notedLink_shelf.mono
  intro found syncer₁ shelf₁ ⟨same, same'⟩
  subst same same'
  split
  · exact sweeps holds
  · apply safe_bind.mpr
    apply isUnidentified_rests.mono
    intro unidentified syncer₂ shelf₂ looks
    have holds := rests holds looks
    split
    · exact holds
    · apply safe_bind.mpr
      apply renamedTarget_shelf.mono
      intro target syncer₃ shelf₃ ⟨same, same', leadsTo⟩
      subst same same'
      split
      · rename_i target place new
        obtain ⟨_, other, _⟩ := leadsTo place new rfl
        split
        · exact safe_bind.mpr ((follows other holds).mono fun _ _ _ holds => holds)
        · exact holds
      · exact sweeps holds

/-- The sweep over others advances no report, and takes none back. -/
theorem dropOrphan_advances (plain : topo.Plain) (apart : dev ≠ named) (ready : Ready dev syncer shelf) :
    Safe (shelving legible sure) (dropOrphan topo apply named) (fun _ after shelf' =>
      Advances reported reported topo passAt dev syncer shelf after shelf') syncer shelf := by
  refine dropOrphan_shelf (fun known rests => known.trans (.of_rests rests known.ready)) ?_ ?_ (.refl ready)
  · intro before between act known
    have sweeps : Safe (shelving legible sure) (sweepOrphan named topo act) (fun _ after shelf' =>
        Apart topo dev before between after shelf') before between := sweepOrphan_apart apart known.ready.away
    exact sweeps.mono fun _ _ _ left => known.trans (.of_rests (.of_apart left) known.ready)
  · intro before between index new other known
    apply (followRename_advances plain other known.ready).mono
    intro moved after shelf' follows
    exact known.trans (follows.imp fun told => ⟨told, fun same => absurd same apart⟩)

theorem dropOrphan_reworks (plain : topo.Plain) (ready : Ready dev syncer shelf) :
    Safe (shelving legible sure) (dropOrphan topo apply named) (fun _ after shelf' =>
      Reworks ∅ Set.univ dev syncer shelf after shelf') syncer shelf := by
  by_cases apart : dev = named
  · subst apart
    refine dropOrphan_shelf (fun known rests => known.trans (.of_rests rests known.ready)) ?_ ?_
      (.of_rests .refl ready)
    · intro before between act known
      exact (sweepOrphan_reworks known.ready).mono fun _ _ _ sweeps => known.trans sweeps
    · intro before between index new other known
      apply (@followRename_advances _ _ _ _ _ _ _ _ _ 0 False plain other known.ready).mono
      intro moved after shelf' follows
      exact known.trans (.of_advances (follows.imp False.elim))
  · exact (@dropOrphan_advances _ _ _ _ _ _ _ 0 _ False plain apart ready).mono fun _ _ _ => .of_advances

end Orphans

/-- A stretch of a pass, whether an uplink is among the pass's own or strayed from them. -/
structure Passes (live told : Prop) (topo : Topology) (passAt : Nat) (dev : Name) (syncer : Syncer) (shelf : Shelf)
    (after : Syncer) (shelf' : Shelf) : Prop where
  advances : live → Advances False told topo passAt dev syncer shelf after shelf'
  reworks : Reworks ∅ Set.univ dev syncer shelf after shelf'

namespace Passes

variable {live told : Prop}

theorem of_advances (advances : Advances False told topo passAt dev syncer shelf after shelf') :
    Passes live told topo passAt dev syncer shelf after shelf' :=
  ⟨fun _ => advances, .of_advances (advances.imp False.elim)⟩

theorem imp {told' : Prop} (passes : Passes live told topo passAt dev syncer shelf after shelf')
    (implies : told' → told) : Passes live told' topo passAt dev syncer shelf after shelf' :=
  ⟨fun member => (passes.advances member).imp implies, passes.reworks⟩

theorem of_rests (rests : Rests ∅ dev syncer shelf after shelf') (ready : Ready dev syncer shelf) (silent : ¬ told) :
    Passes live told topo passAt dev syncer shelf after shelf' :=
  .of_advances ((Advances.of_rests rests ready).imp silent)

theorem trans {middle : Syncer} {between : Shelf} (first : Passes live False topo passAt dev syncer shelf middle between)
    (second : Passes live told topo passAt dev middle between after shelf') :
    Passes live told topo passAt dev syncer shelf after shelf' :=
  ⟨fun member => (first.advances member).trans (second.advances member), first.reworks.trans second.reworks⟩

end Passes

section Passing

variable {result : Except Errno (List Report)}

theorem dropOrphans_passes (plain : topo.Plain) (ready : Ready dev syncer shelf) :
    Safe (shelving legible sure) (dropOrphans topo apply) (fun _ after shelf' =>
      Passes (dev ∈ syncer.pairs.map (·.dev)) False topo passAt dev syncer shelf after shelf' ∧ Stamped syncer after)
      syncer shelf := by
  refine Safe.and ?_ (within_shelf (Stamped.of_device dropOrphans_within))
  apply safe_bind.mpr
  apply (@orphaned_apart _ _ _ _ _ topo ready.away).mono
  intro orphans after shelf' ⟨left, other⟩
  apply safe_forM (Passes.of_rests (.of_apart left) ready id)
  intro named listed middle between known
  have goes := known.reworks.ready
  have strays : Safe (shelving legible sure) (dropOrphan topo apply named) (fun _ after shelf' =>
      Reworks ∅ Set.univ dev middle between after shelf') middle between := dropOrphan_reworks plain goes
  by_cases live : dev ∈ syncer.pairs.map (·.dev)
  · have apart : dev ≠ named := by
      intro same
      exact other live (same ▸ listed)
    have advances : Safe (shelving legible sure) (dropOrphan topo apply named) (fun _ after shelf' =>
        Advances False False topo passAt dev middle between after shelf') middle between :=
      dropOrphan_advances plain apart goes
    exact advances.mono fun _ _ _ next => known.trans (.of_advances next)
  · exact strays.mono fun _ _ _ next => known.trans ⟨fun member => absurd member live, next⟩

/-- A whole pass that applies.  What it says of the file holds at its own stamp. -/
theorem reconcile_passes (plain : topo.Plain) (ready : Ready dev syncer shelf) :
    Safe (shelving legible sure) (reconcile true topo) (fun result after shelf' =>
      Passes (dev ∈ syncer.pairs.map (·.dev)) (legible dev ∧ ∃ reports, result = .ok reports ∧
        ∃ report ∈ reports, report.dev = dev) topo after.lastPassAt dev syncer shelf after shelf' ∧
        ∀ reports, result = .ok reports → ∀ report ∈ reports, report.dev ∈ syncer.pairs.map (·.dev)) syncer shelf := by
  apply safe_bind.mpr (safe_get.mpr ?_)
  dsimp only
  have failed {errno : Errno} : ¬ (legible dev ∧ ∃ reports, (.error errno : Except Errno (List Report)) = .ok reports ∧
      ∃ report ∈ reports, report.dev = dev) := fun ⟨_, _, same, _⟩ => nomatch same
  split
  · have sweeps : Safe (shelving legible sure) (dropOrphans topo true) (fun _ after shelf' =>
        Passes (dev ∈ syncer.pairs.map (·.dev)) False topo syncer.lastPassAt dev syncer shelf after shelf' ∧
          Stamped syncer after) syncer shelf := dropOrphans_passes plain ready
    apply safe_bind.mpr
    apply sweeps.mono
    intro _ after shelf' ⟨passes, stamped⟩
    refine safe_pure.mpr ⟨?_, fun reports same => ?_⟩
    · rw [stamped]
      apply passes.imp
      intro ⟨_, reports, same, report, listed, _⟩
      cases same
      cases listed
    · cases same
      exact nofun
  · apply safe_bind.mpr (safe_ask.mpr ⟨trivial, ?_⟩)
    intro dump shelf₀ ⟨same, _⟩
    subst same
    cases dump with
    | error errno => exact ⟨.of_rests .refl ready failed, nofun⟩
    | ok fdb =>
        apply safe_bind.mpr
        apply (@askDriver_apart _ _ _ _ _ topo _ ready.away).mono
        intro answer syncer₁ shelf₁ ⟨left, samePairs, same⟩
        subst same
        cases answer with
        | error errno => exact ⟨.of_rests (.of_apart left) ready failed, nofun⟩
        | ok answer =>
            apply safe_bind.mpr
            apply safe_bind.mpr (safe_ask.mpr ⟨trivial, ?_⟩)
            intro clock shelf₂ ⟨_, later, _, ticked⟩
            subst ticked
            refine safe_bind.mpr (safe_get.mpr (safe_bind.mpr (safe_modify.mpr (safe_pure.mpr ?_))))
            set syncer₂ : Syncer := { syncer₁ with lastPassAt := max clock (syncer₁.lastPassAt + 1) }
            have stamps : Rests ∅ dev syncer₁ shelf₁ syncer₂ { shelf₁ with clock := later } :=
              ⟨rfl, id, ⟨rfl, rfl⟩, .refl, rfl, id⟩
            have begins := (Rests.of_apart left).trans stamps
            have goes := begins.ready ready
            have swept : Safe (shelving legible sure) (dropOrphans topo true) (fun _ after shelf' =>
                Passes (dev ∈ syncer.pairs.map (·.dev)) False topo syncer₂.lastPassAt dev syncer₂
                  { shelf₁ with clock := later } after shelf' ∧ Stamped syncer₂ after) syncer₂
                { shelf₁ with clock := later } := by
              rw [← samePairs]
              exact dropOrphans_passes plain goes
            apply safe_bind.mpr
            apply swept.mono
            intro _ syncer₃ shelf₃ ⟨sweeps, stamped⟩
            set reading : Reading := ⟨topo, true, fdb, topo.livePfs (syncer.pairs.map (·.dev)), syncer₂.lastPassAt⟩
            have turns : Safe (shelving legible sure) (passPairs reading syncer.pairs answer) (fun result after shelf' =>
                Advances (legible dev ∧ False) (legible dev ∧ ∃ reports, result = .ok reports ∧
                  (False ∨ ∃ report ∈ reports, report.dev = dev)) topo syncer₂.lastPassAt dev syncer₃ shelf₃ after shelf')
                syncer₃ shelf₃ := passPairs_advances False plain rfl sweeps.reworks.ready
            apply (turns.and (within_shelf passPairs_reports)).mono
            intro result after shelf' ⟨advances, stamped', named⟩
            refine ⟨?_, named⟩
            rw [stamped', stamped]
            simp only [and_false, false_or] at advances
            exact ((Passes.of_rests begins ready id).trans sweeps).trans (.of_advances advances)

end Passing

end SriovMacSync
