import SriovMacSync.Memory.Apart
import SriovMacSync.Memory.Renames

namespace SriovMacSync

open Data Netlink Interaction Interaction.Action

/-! # What comes before an uplink's turn

Other turns, the sweep over the orphans and the settling of a name may move notes and
memories about, this uplink's too.  Nothing is done to its filter meanwhile, and a memory
file that can be neither replaced nor removed stays. -/

variable {legible sure : Name → Prop} {shelf shelf' : Shelf} {syncer after : Syncer} {dev : Name}
  {index : Index} {topo : Topology} {reading : Reading}

/-- What tidying leaves of a drawer: no deeds, and a memory file as it was or gone. -/
structure Drawer.Tidied (before after : Drawer) : Prop where
  deeds : after.deeds = before.deeds
  stuck : after.stuck = before.stuck
  ports : after.ports = before.ports ∨ before.stuck = false ∧ after.ports = none

theorem Drawer.Tidied.refl (drawer : Drawer) : drawer.Tidied drawer := ⟨rfl, rfl, .inl rfl⟩

theorem Drawer.Tidied.trans {first second third : Drawer} (one : first.Tidied second)
    (two : second.Tidied third) : first.Tidied third := by
  refine ⟨two.deeds.trans one.deeds, two.stuck.trans one.stuck, ?_⟩
  rcases two.ports with same | ⟨loose, none⟩
  · rw [same]
    exact one.ports
  · exact .inr ⟨one.stuck ▸ loose, none⟩

section Tidying

variable {old new : Name}

/-- A request of the work on notes: no filter write, no memory written, and no record but
this one. -/
def Call.Tidies (new : Name) (index : Index) (request : Call) : Prop :=
  request.writes = none ∧ (∀ dev text, request ≠ .putPorts dev text) ∧
    ∀ dev place, request = .putIndex dev place → dev = new ∧ place = index

theorem tidied_answered {request : Call} {reply : Reply request} (tidies : request.Tidies new index)
    (answered : (shelving legible sure).answers shelf request reply shelf') :
    (shelf.drawer dev).Tidied (shelf'.drawer dev) := by
  have note {named : Name} {note : Finset Mac} :
      (shelf.drawer dev).Tidied ((shelf.setNote named note).drawer dev) := by
    by_cases same : dev = named
    · subst same
      rw [Shelf.drawer_setNote]
      exact ⟨rfl, rfl, .inl rfl⟩
    · rw [Shelf.drawer_setNote_of_ne same]
      exact .refl _
  have record {named : Name} {record : Option Index} :
      (shelf.drawer dev).Tidied ((shelf.setRecord named record).drawer dev) := by
    by_cases same : dev = named
    · subst same
      simp only [Shelf.setRecord, Shelf.setDrawer, Function.update_self]
      exact ⟨rfl, rfl, .inl rfl⟩
    · simp only [Shelf.setRecord, Shelf.setDrawer, Function.update_of_ne same]
      exact .refl _
  cases request with
  | setSelfFdb place mac add => cases tidies.1
  | putPorts named text => exact absurd rfl (tidies.2.1 named text)
  | putNote named macs =>
      rcases answered with ⟨_, written⟩ | ⟨_, _, same⟩
      · exact written ▸ note
      · exact same ▸ .refl _
  | appendNote named macs =>
      rcases answered with ⟨_, written⟩ | ⟨_, _, part, _, written⟩
      · exact written ▸ note
      · exact written ▸ note
  | removeNote named =>
      rcases answered with removed | ⟨_, same⟩
      · exact removed ▸ note
      · exact same ▸ .refl _
  | putIndex named place =>
      rcases answered with ⟨_, written⟩ | ⟨_, _, same⟩
      · exact written ▸ record
      · exact same ▸ .refl _
  | removeIndex named =>
      rcases answered with removed | ⟨_, same⟩
      · exact removed ▸ record
      · exact same ▸ .refl _
  | removePorts named =>
      replace answered : if _ then _ else _ := answered
      split at answered
      · exact answered.2 ▸ .refl _
      · rename_i loose
        rw [answered.2]
        by_cases same : dev = named
        · subst same
          rw [Shelf.drawer_setPorts]
          exact ⟨rfl, rfl, .inr ⟨by simpa using loose, rfl⟩⟩
        · rw [Shelf.drawer_setPorts_of_ne same]
          exact .refl _
  | dumpFdb => exact answered.1 ▸ .refl _
  | bootMillis =>
      obtain ⟨_, later, _, ticked⟩ := answered
      subst ticked
      exact .refl _
  | lock named work =>
      obtain rfl : shelf' = _ := answered
      exact .refl _
  | unlock named =>
      obtain rfl : shelf' = _ := answered
      exact .refl _
  | readNote named => cases reply <;> exact answered.1 ▸ .refl _
  | readIndex named => exact answered.1 ▸ .refl _
  | readPorts named => exact answered.1 ▸ .refl _
  | portsExist named => exact answered.1 ▸ .refl _
  | _ =>
      obtain rfl : shelf' = shelf := answered
      exact .refl _

theorem tidies_of_file {request : Call} (writes : request.writes = none) (records : request.records = none)
    (spares : ∀ dev text, request ≠ .putPorts dev text) : request.Tidies new index := by
  refine ⟨writes, spares, ?_⟩
  intro dev place same
  subst same
  cases records

theorem loadOwned_tidies : Asks (Call.Tidies new index) (loadOwned dev) :=
  .bind (.ask (tidies_of_file rfl rfl nofun)) fun _ => .bind .modify fun _ => .pure

theorem removeNote_tidies : Asks (Call.Tidies new index) (removeNote dev) :=
  .bind (.ask (tidies_of_file rfl rfl nofun)) fun _ => .bind (.ask (tidies_of_file rfl rfl nofun)) fun _ =>
    .bind (.ask (tidies_of_file rfl rfl nofun)) fun _ => .modify

theorem locked_tidies {α : Type} {work : Section} {body : Sync α} (tidies : Asks (Call.Tidies new index) body) :
    Asks (Call.Tidies new index) (locked dev work body) :=
  .bind (.ask (tidies_of_file rfl rfl nofun)) fun _ => .bind tidies fun _ =>
    .bind (.ask (tidies_of_file rfl rfl nofun)) fun _ => .pure

theorem migrateLocked_tidies : Asks (Call.Tidies new index) (migrateLocked old new index) := by
  refine .bind loadOwned_tidies fun owned => .bind (.ask (tidies_of_file rfl rfl nofun)) fun macs =>
    .bind (.bind .get fun _ => .pure) fun readable => .ite (.ite ?_ ?_) .pure
  · exact .bind removeNote_tidies fun _ => .pure
  · have record : Asks (Call.Tidies new index) (noteIndex new index) := by
      refine .bind .get fun _ => .ite (.bind (.ask ⟨rfl, nofun, ?_⟩) fun _ => .ite .modify .pure) .pure
      intro dev place same
      cases same
      exact ⟨rfl, rfl⟩
    have append : Asks (Call.Tidies new index) (appendOwnedLocked new macs.list) :=
      .bind loadOwned_tidies fun _ => .bind (.bind .get fun _ => .pure) fun _ => .ite
        (.ite .pure (.bind (.ask (tidies_of_file rfl rfl nofun)) fun _ => .pure)) .pure
    refine .bind record fun _ => .bind append fun appended => ?_
    cases appended with
    | none => exact .pure
    | some fresh => exact .bind removeNote_tidies fun _ => .pure

theorem migrateNote_tidies : Asks (Call.Tidies new index) (migrateNote old new index) :=
  .ite .pure (.ite (locked_tidies (locked_tidies migrateLocked_tidies))
    (locked_tidies (locked_tidies migrateLocked_tidies)))

/-- What work on notes leaves of every drawer. -/
structure Tidying (new : Name) (index : Index) (shelf shelf' : Shelf) : Prop where
  drawers : ∀ dev, (shelf.drawer dev).Tidied (shelf'.drawer dev)
  records : ∀ dev place, (shelf'.drawer dev).record = some place →
    (shelf.drawer dev).record = some place ∨ dev = new ∧ place = index

theorem tidying_shelf {α : Type} {action : Sync α} (tidies : Asks (Call.Tidies new index) action) :
    Safe (shelving legible sure) action (fun _ _ shelf' => Tidying new index shelf shelf') syncer shelf := by
  have kept : Safe (shelving legible sure) action (fun _ _ shelf' => True ∧ Tidying new index shelf shelf')
      syncer shelf := by
    apply (tidies syncer).frame _ ⟨fun _ => .refl _, fun _ _ => .inl⟩
    intro middle request ⟨drawers, records⟩ allowed
    refine ⟨trivial, fun reply shelf' answered => ?_⟩
    refine ⟨fun dev => (drawers dev).trans (tidied_answered allowed answered), fun dev place recorded => ?_⟩
    rcases record_answered answered recorded with before | asked
    · exact records dev place before
    · exact .inr (allowed.2.2 dev place asked)
  exact kept.mono fun _ _ _ holds => holds.2

theorem locked_free {α : Type} {work : Section} {body : Sync α} :
    Safe (shelving legible sure) (locked dev work body) (fun _ _ shelf' => shelf'.held = none) syncer shelf := by
  apply locked_shelf
  exact always_shelf.mono fun _ _ _ _ => rfl

end Tidying

/-- What may come before an uplink's turn. -/
structure Precedes (topo : Topology) (dev : Name) (syncer : Syncer) (shelf : Shelf) (after : Syncer)
    (shelf' : Shelf) : Prop where
  faithful : syncer.Faithful topo shelf dev → after.Faithful topo shelf' dev
  away : shelf'.Away dev
  deeds : (shelf'.drawer dev).deeds = (shelf.drawer dev).deeds
  stuck : (shelf'.drawer dev).stuck = (shelf.drawer dev).stuck
  filed : (shelf.drawer dev).stuck = true → (shelf'.drawer dev).ports = (shelf.drawer dev).ports
  leads : ∀ other ≠ dev, shelf'.Leads topo dev other → shelf.Leads topo dev other

namespace Precedes

theorem refl (away : shelf.Away dev) : Precedes topo dev syncer shelf syncer shelf :=
  ⟨id, away, rfl, rfl, fun _ => rfl, fun _ _ => id⟩

theorem trans {middle : Syncer} {between : Shelf} (first : Precedes topo dev syncer shelf middle between)
    (second : Precedes topo dev middle between after shelf') : Precedes topo dev syncer shelf after shelf' where
  faithful holds := second.faithful (first.faithful holds)
  away := second.away
  deeds := second.deeds.trans first.deeds
  stuck := second.stuck.trans first.stuck
  filed stuck := (second.filed (first.stuck ▸ stuck)).trans (first.filed stuck)
  leads other apart led := first.leads other apart (second.leads other apart led)

theorem of_apart (apart : Apart topo dev syncer shelf after shelf') :
    Precedes topo dev syncer shelf after shelf' where
  faithful holds := holds.of_same apart.memory.written (by rw [apart.drawer])
  away := apart.away
  deeds := by rw [apart.drawer]
  stuck := by rw [apart.drawer]
  filed _ := by rw [apart.drawer]
  leads := apart.leads

/-- Tidying precedes a turn as long as what would spare a rewrite is no more than before. -/
theorem of_tidying {new : Name} (tidying : Tidying new index shelf shelf') (away : shelf'.Away dev)
    (bears : topo.nameOf index = some new)
    (written : after.portsWritten dev = syncer.portsWritten dev ∨ after.portsWritten dev = none) :
    Precedes topo dev syncer shelf after shelf' where
  faithful holds := by
    intro keys text memo file
    rcases written with same | none
    · rcases (tidying.drawers dev).ports with kept | ⟨_, gone⟩
      · exact holds keys text (same ▸ memo) (kept ▸ file)
      · rw [gone] at file
        cases file
    · rw [none] at memo
      cases memo
  away := away
  deeds := (tidying.drawers dev).deeds
  stuck := (tidying.drawers dev).stuck
  filed stuck := by
    rcases (tidying.drawers dev).ports with kept | ⟨loose, _⟩
    · exact kept
    · rw [stuck] at loose
      cases loose
  leads other apart := by
    intro ⟨place, recorded, led⟩
    rcases tidying.records other place recorded with before | ⟨isNew, same⟩
    · exact ⟨place, before, led⟩
    · subst isNew same
      rw [bears] at led
      exact absurd (Option.some.inj led) apart

end Precedes

section Settling

variable {old new : Name}

theorem Precedes.of_saved {written : Option (List Text)} {text : Option Text} {held : Option (Name × Section)}
    (away : shelf.Away dev) (idle : held = shelf.held ∨ held = none)
    (saved : Saved syncer topo shelf new (syncer.setPortsWritten new written) text) :
    Precedes topo dev syncer shelf (syncer.setPortsWritten new written) ((shelf.setPorts new text).hold held) := by
  have records {other : Name} : (((shelf.setPorts new text).hold held).drawer other).record =
      (shelf.drawer other).record := Shelf.record_setPorts
  have free : ((shelf.setPorts new text).hold held).Away dev := by
    intro work
    rcases idle with same | none
    · exact same ▸ away work
    · exact none ▸ nofun
  have leads : ∀ other ≠ dev, ((shelf.setPorts new text).hold held).Leads topo dev other →
      shelf.Leads topo dev other := by
    intro other _ ⟨place, recorded, led⟩
    exact ⟨place, records ▸ recorded, led⟩
  by_cases same : dev = new
  · subst same
    refine ⟨saved.faithful, free, by simp, by simp, fun stuck => ?_, leads⟩
    simpa using saved.kept (.inr stuck)
  · have drawer : ((shelf.setPorts new text).hold held).drawer dev = shelf.drawer dev :=
      Shelf.drawer_setPorts_of_ne same
    refine ⟨fun holds => ?_, free, by rw [drawer], by rw [drawer], fun _ => by rw [drawer], leads⟩
    exact holds.of_same (by simp [Syncer.setPortsWritten, same]) (by rw [drawer])

theorem migrateNote_away (away : shelf.Away dev) :
    Safe (shelving legible sure) (migrateNote old new index) (fun _ _ shelf' => shelf'.Away dev) syncer shelf := by
  have freed {shelf' : Shelf} (free : shelf'.held = none) : shelf'.Away dev := by
    intro work
    rw [free]
    exact nofun
  rw [migrateNote]
  split
  · exact away
  · split
    · exact locked_free.mono fun _ _ _ free => freed free
    · exact locked_free.mono fun _ _ _ free => freed free

theorem migrateNote_tidying (away : shelf.Away dev) :
    Safe (shelving legible sure) (migrateNote old new index) (fun _ after shelf' =>
      NoteMarks Set.univ syncer after ∧ Tidying new index shelf shelf' ∧ shelf'.Away dev) syncer shelf := by
  have marks : Safe (shelving legible sure) (migrateNote old new index) (fun _ after _ =>
      NoteMarks Set.univ syncer after) syncer shelf :=
    within_shelf (migrateNote_within (Set.mem_univ old) (Set.mem_univ new) (Set.mem_univ (index, true)))
  exact marks.and ((tidying_shelf migrateNote_tidies).and (migrateNote_away away))

theorem portsWritten_followTo_old : (syncer.followTo old new).portsWritten old = none := by
  have kept {before : Syncer} : (before.moveCarried old new).portsWritten = before.portsWritten := by
    unfold Syncer.moveCarried
    split <;> rfl
  rw [Syncer.followTo, kept]
  by_cases same : old = new
  · subst same
    simp [Syncer.moveMarks, Syncer.setPortsWritten]
  · simp [Syncer.moveMarks, Syncer.setPortsWritten, same]

/-- A rename followed, whether from, onto or past an uplink, may precede its turn. -/
theorem followRename_precedes (plain : topo.Plain) (apart : new ≠ old) (bears : topo.nameOf index = some new)
    (away : shelf.Away dev) :
    Safe (shelving legible sure) (followRename old new index topo) (fun _ after shelf' =>
      Precedes topo dev syncer shelf after shelf') syncer shelf := by
  by_cases past : dev ≠ old ∧ dev ≠ new
  · exact (followRename_apart past.1 past.2 bears away).mono fun _ _ _ => .of_apart
  · apply safe_bind.mpr
    apply (loadPorts_shelf plain).mono
    intro _ syncer₁ _ takes
    obtain ⟨clock, _, ticked⟩ := takes.later
    subst ticked
    have first : Precedes topo dev syncer shelf syncer₁ { shelf with clock } := by
      refine ⟨fun holds => ?_, away, rfl, rfl, fun _ => rfl, fun _ _ => id⟩
      by_cases same : dev = old
      · exact same ▸ takes.faithful (same ▸ holds)
      · exact holds.of_same (takes.others dev same).written rfl
    apply safe_bind.mpr
    apply (migrateNote_tidying first.away).mono
    intro moved syncer₂ shelf₂ ⟨marks, tidying, free⟩
    split
    · apply safe_bind.mpr (safe_modify.mpr ?_)
      apply safe_bind.mpr (safe_get.mpr ?_)
      apply safe_bind.mpr
      have unwritten : (syncer₂.followTo old new).portsWritten dev = none := by
        by_cases same : dev = old
        · exact same ▸ portsWritten_followTo_old
        · obtain rfl : dev = new := by
            by_contra other
            exact past ⟨same, other⟩
          exact portsWritten_followTo
      have second := first.trans (.of_tidying tidying free bears (.inr unwritten))
      apply (savePorts_shelf plain).mono
      intro _ after shelf' ⟨written, text, held, wrote, left, idle, saved⟩
      subst wrote left
      exact second.trans (.of_saved second.away idle saved)
    · apply first.trans (.of_tidying tidying free bears (.inl ?_))
      exact (Syncer.Beside.of_noteMarks marks).written

variable {named : Name}

theorem recordedIndex_shelf :
    Safe (shelving legible sure) (recordedIndex named) (fun _ after shelf' => after = syncer ∧ shelf' = shelf)
      syncer shelf := by
  apply safe_bind.mpr (safe_get.mpr ?_)
  split
  · exact ⟨rfl, rfl⟩
  · exact safe_ask.mpr ⟨trivial, fun _ _ answered => ⟨rfl, answered.1⟩⟩

/-- What a rename is followed onto is what the record leads to. -/
theorem renamedTarget_shelf :
    Safe (shelving legible sure) (renamedTarget named topo) (fun target after shelf' =>
      after = syncer ∧ shelf' = shelf ∧ ∀ place new, target = some (place, new) →
        topo.nameOf place = some new ∧ new ≠ named ∧ shelf.Leads topo new named) syncer shelf := by
  apply safe_bind.mpr (safe_ask.mpr ⟨trivial, ?_⟩)
  intro recorded shelf₁ ⟨same, told⟩
  subst same
  split
  · exact ⟨rfl, rfl, nofun⟩
  · rename_i index
    have kept : (shelf₁.drawer named).record = some index := by
      rcases told with same | ⟨_, none⟩
      · exact same.symm
      · cases none
    split
    · exact ⟨rfl, rfl, nofun⟩
    · rename_i link found
      refine ⟨rfl, rfl, fun place new same => ?_⟩
      split at same
      · cases same
      · rename_i other
        cases same
        have bears : topo.nameOf index = some link.name := by rw [Topology.nameOf, found, Option.map_some]
        exact ⟨bears, other, index, kept, bears⟩

/-- A name that is used again: the note of the departed interface goes, and what was
remembered with it. -/
theorem reused_precedes (bears : topo.nameOf index = some dev) :
    Safe (shelving legible sure) (locked dev .reused (removeNote dev)) (fun _ after shelf' =>
      Precedes topo dev syncer shelf ((after.forgetUplink dev).sawNote dev true) shelf') syncer shelf := by
  have tidies : Safe (shelving legible sure) (locked dev .reused (removeNote dev)) (fun _ _ shelf' =>
      Tidying dev index shelf shelf') syncer shelf := tidying_shelf (locked_tidies removeNote_tidies)
  apply (tidies.and locked_free).mono
  intro _ after shelf' ⟨tidying, free⟩
  apply Precedes.of_tidying tidying _ bears (.inr _)
  · intro work
    rw [free]
    exact nofun
  · simp [Syncer.sawNote, Syncer.forgetUplink]

theorem reused_apart (apart : dev ≠ named) (away : shelf.Away dev) :
    Safe (shelving legible sure) (locked named .reused (removeNote named)) (fun _ after shelf' =>
      Apart topo dev syncer shelf ((after.forgetUplink named).sawNote named true) shelf') syncer shelf := by
  have within : Within (InScope {named} ∅) (locked named .reused (removeNote named))
      (fun _ after => Syncer.Beside dev syncer after) syncer :=
    (locked_within (Set.mem_singleton named) (removeNote_within (Set.mem_singleton named))).imp
      fun _ _ marks => .of_noteMarks marks
  apply (apart_shelf within (by simpa using apart) (by simp) away).mono
  intro _ after shelf' left
  exact ⟨left.memory.trans ((forgetUplink_beside apart).trans ⟨rfl, rfl, Iff.rfl, rfl⟩), left.drawer, left.away,
    left.leads⟩

/-- Settling any name may precede an uplink's turn, and concerns no uplink that the name's
record does not lead to. -/
theorem settleName_shelf (plain : reading.topo.Plain) (bears : reading.topo.nameOf index = some named)
    (away : shelf.Away dev) :
    Safe (shelving legible sure) (settleName reading named index) (fun _ after shelf' =>
      Precedes reading.topo dev syncer shelf after shelf' ∧
        (dev ≠ named → ¬ shelf.Leads reading.topo dev named → Apart reading.topo dev syncer shelf after shelf'))
      syncer shelf := by
  have idle : Precedes reading.topo dev syncer shelf syncer shelf ∧ (dev ≠ named →
      ¬ shelf.Leads reading.topo dev named → Apart reading.topo dev syncer shelf syncer shelf) :=
    ⟨.refl away, fun _ _ => .refl away⟩
  apply safe_bind.mpr
  apply recordedIndex_shelf.mono
  intro recorded syncer shelf ⟨same, same'⟩
  subst same same'
  split
  · exact idle
  · apply safe_bind.mpr (safe_get.mpr ?_)
    split
    · exact idle
    · apply safe_bind.mpr
      apply renamedTarget_shelf.mono
      intro target syncer₁ shelf₁ ⟨same, same', leadsTo⟩
      subst same same'
      split
      · rename_i target place new
        obtain ⟨bears', other, led⟩ := leadsTo place new rfl
        apply (Safe.and (followRename_precedes plain other bears' away) (?_ : Safe _ _ (fun _ after shelf' =>
          dev ≠ named → ¬ shelf₁.Leads reading.topo dev named →
            Apart reading.topo dev syncer₁ shelf₁ after shelf') _ _)).mono fun _ _ _ holds => holds
        by_cases past : dev ≠ named ∧ dev ≠ new
        · exact (followRename_apart past.1 past.2 bears' away).mono fun _ _ _ left _ _ => left
        · apply always_shelf.mono
          intro _ _ _ _ apart unled
          refine absurd ⟨apart, ?_⟩ past
          intro same
          exact unled (same ▸ led)
      · apply safe_bind.mpr
        by_cases same : dev = named
        · subst same
          apply (reused_precedes bears).mono
          intro _ after shelf' precedes
          exact safe_bind.mpr (safe_modify.mpr ⟨precedes, fun apart => absurd rfl apart⟩)
        · apply (reused_apart same away).mono
          intro _ after shelf' left
          exact safe_bind.mpr (safe_modify.mpr ⟨.of_apart left, fun _ _ => left⟩)

end Settling

section Orphans

variable {named : Name} {apply : Bool}

theorem isUnidentified_apart (apart : dev ≠ named) (away : shelf.Away dev) :
    Safe (shelving legible sure) (isUnidentified named) (fun _ after shelf' =>
      Apart topo dev syncer shelf after shelf') syncer shelf := by
  have within : Within (InScope {named} ∅) (isUnidentified named)
      (fun _ after => Syncer.Beside dev syncer after) syncer := by
    apply within_ask_bind (inScope_file rfl rfl rfl (Set.mem_singleton named))
    intro recorded
    split
    · exact within_pure.mpr (.refl _)
    · exact Syncer.Beside.bind ((loadOwned_within (Set.mem_singleton named)).imp fun _ _ marks => .of_noteMarks marks)
        fun _ middle => within_pure.mpr (.refl _)
  exact apart_shelf within (by simpa using apart) (by simp) away

theorem notedLink_apart (apart : dev ≠ named) (away : shelf.Away dev) :
    Safe (shelving legible sure) (notedLink named topo) (fun _ after shelf' =>
      Apart topo dev syncer shelf after shelf') syncer shelf := by
  have within : Within (InScope {named} ∅) (notedLink named topo)
      (fun _ after => Syncer.Beside dev syncer after) syncer :=
    (notedLink_within (Set.mem_singleton named)).imp fun _ _ ⟨same, _⟩ => same ▸ .refl _
  exact apart_shelf within (by simpa using apart) (by simp) away

theorem dropOrphan_precedes (plain : topo.Plain) (apart : dev ≠ named) (away : shelf.Away dev) :
    Safe (shelving legible sure) (dropOrphan topo apply named) (fun _ after shelf' =>
      Precedes topo dev syncer shelf after shelf') syncer shelf := by
  apply safe_bind.mpr (safe_get.mpr ?_)
  dsimp only
  apply safe_bind.mpr
  apply (notedLink_apart apart away).mono
  intro found syncer₁ shelf₁ first
  have known := Precedes.of_apart first
  have sweeps {before : Syncer} {between : Shelf} (earlier : Precedes topo dev syncer shelf before between)
      {act : Bool} : Safe (shelving legible sure) (sweepOrphan named topo act) (fun _ after shelf' =>
        Precedes topo dev syncer shelf after shelf') before between :=
    (sweepOrphan_apart apart earlier.away).mono fun _ _ _ left => earlier.trans (.of_apart left)
  split
  · exact sweeps known
  · apply safe_bind.mpr
    apply (isUnidentified_apart apart known.away).mono
    intro unidentified syncer₂ shelf₂ second
    have known := known.trans (.of_apart second)
    split
    · exact known
    · apply safe_bind.mpr
      apply renamedTarget_shelf.mono
      intro target syncer₃ shelf₃ ⟨same, same', leadsTo⟩
      subst same same'
      split
      · rename_i target place new
        obtain ⟨bears, other, _⟩ := leadsTo place new rfl
        split
        · apply safe_bind.mpr
          apply (followRename_precedes plain other bears known.away).mono
          intro _ after shelf' follows
          exact known.trans follows
        · exact known
      · exact sweeps known

theorem orphaned_apart (away : shelf.Away dev) :
    Safe (shelving legible sure) orphaned (fun orphans after shelf' =>
      Apart topo dev syncer shelf after shelf' ∧ (dev ∈ syncer.pairs.map (·.dev) → dev ∉ orphans)) syncer shelf := by
  have within : Within (InScope ∅ ∅) orphaned (fun orphans after =>
      Syncer.Beside dev syncer after ∧ (dev ∈ syncer.pairs.map (·.dev) → dev ∉ orphans)) syncer := by
    apply within_get
    split
    · exact ⟨⟨rfl, rfl, Iff.rfl, rfl⟩, fun _ => List.not_mem_nil⟩
    · apply within_ask_bind (inScope_idle rfl rfl)
      intro now
      apply notedDevicesOrNone_within.bind
      intro noted after same
      subst same
      refine ⟨⟨rfl, rfl, Iff.rfl, rfl⟩, fun live listed => ?_⟩
      have missing := (List.mem_filter.mp (List.mem_of_mem_filter listed)).2
      simp only [decide_eq_true_eq] at missing
      exact missing live
  have left : Safe (shelving legible sure) orphaned (fun _ after shelf' =>
      Apart topo dev syncer shelf after shelf') syncer shelf :=
    apart_shelf (within.imp fun _ _ holds => holds.1) (by simp) (by simp) away
  exact (left.and (within_shelf within)).mono fun _ _ _ ⟨aside, _, others⟩ => ⟨aside, others⟩

theorem dropOrphans_precedes (plain : topo.Plain) (live : dev ∈ syncer.pairs.map (·.dev)) (away : shelf.Away dev) :
    Safe (shelving legible sure) (dropOrphans topo apply) (fun _ after shelf' =>
      Precedes topo dev syncer shelf after shelf') syncer shelf := by
  apply safe_bind.mpr
  apply (@orphaned_apart _ _ _ _ _ topo away).mono
  intro orphans after shelf' ⟨left, other⟩
  apply safe_forM (Precedes.of_apart left)
  intro named listed syncer shelf known
  have apart : dev ≠ named := by
    intro same
    exact other live (same ▸ listed)
  exact (dropOrphan_precedes plain apart known.away).mono fun _ _ _ next => known.trans next

end Orphans

section Pairs

variable {pair : Pair} {answer : Answer}

/-- The turn of another uplink may precede this one's, and concerns it only where a record
leads from there to here. -/
theorem passPair_shelf (plain : reading.topo.Plain) (apart : dev ≠ pair.dev) (away : shelf.Away dev) :
    Safe (shelving legible sure) (passPair reading pair answer) (fun _ after shelf' =>
      Precedes reading.topo dev syncer shelf after shelf' ∧ (¬ shelf.Leads reading.topo dev pair.dev →
        Apart reading.topo dev syncer shelf after shelf')) syncer shelf := by
  rw [passPair]
  split
  · rename_i link bridge found below
    split
    · rename_i anat located
      have bears := Topology.nameOf_of_indexOf (Topology.get_spec found).1
      apply safe_bind.mpr
      apply (settleName_shelf plain bears away).mono
      intro goes syncer₁ shelf₁ ⟨precedes, otherwise⟩
      split
      · apply (passUplink_apart apart (Topology.anatomy_dev located ▸ bears) precedes.away).mono
        intro _ after shelf' left
        exact ⟨precedes.trans (.of_apart left), fun unled => (otherwise apart unled).trans left⟩
      · exact ⟨precedes, otherwise apart⟩
    · exact ⟨.refl away, fun _ => .refl away⟩
  · exact ⟨.refl away, fun _ => .refl away⟩

/-- The turns of others concern no uplink that no record leads to. -/
theorem passPairs_apart (plain : reading.topo.Plain) {pairs : List Pair} (apart : ∀ other ∈ pairs, dev ≠ other.dev)
    (unled : ∀ other ∈ pairs, ¬ shelf.Leads reading.topo dev other.dev) (away : shelf.Away dev) :
    Safe (shelving legible sure) (passPairs reading pairs answer) (fun _ after shelf' =>
      Apart reading.topo dev syncer shelf after shelf') syncer shelf := by
  induction pairs generalizing answer syncer shelf with
  | nil => exact .refl away
  | cons pair rest ih =>
      apply safe_bind.mpr
      apply (passPair_shelf plain (apart pair List.mem_cons_self) away).mono
      intro turn syncer₁ shelf₁ ⟨_, otherwise⟩
      have first := otherwise (unled pair List.mem_cons_self)
      cases turn with
      | error errno => exact first
      | ok turn =>
          obtain ⟨report, answer'⟩ := turn
          apply safe_bind.mpr
          have others : ∀ other ∈ rest, dev ≠ other.dev := fun other listed => apart other (List.mem_cons_of_mem _ listed)
          apply (ih others _ first.away).mono
          · intro reports after shelf' later
            cases reports with
            | error errno => exact first.trans later
            | ok reports => exact first.trans later
          · intro other listed led
            exact unled other (List.mem_cons_of_mem _ listed) (first.leads other.dev (others other listed).symm led)

end Pairs

end SriovMacSync
