import SriovMacSync.Memory.Preceding
import SriovMacSync.Memory.Reflecting

namespace SriovMacSync

open Data Netlink Interaction Interaction.Action

/-! # An uplink's own turn, held against one address

What the turn does to the address, by what was asked of the kernel and what it said. -/

variable {legible sure : Name → Prop} {shelf shelf' : Shelf} {syncer after : Syncer} {dev : Name}
  {index : Index} {topo : Topology} {reading : Reading} {mac : Mac}

/-- A stretch of an uplink's turn: it keeps to the uplink's drawer, and leaves the memory
file and what is held against it. -/
structure Tends (dev : Name) (syncer : Syncer) (shelf : Shelf) (after : Syncer) (shelf' : Shelf) : Prop where
  settings : after.toSettings = syncer.toSettings
  loaded : dev ∈ after.portsLoaded ↔ dev ∈ syncer.portsLoaded
  written : after.portsWritten dev = syncer.portsWritten dev
  others : ∀ other ≠ dev, shelf'.drawer other = shelf.drawer other
  away : shelf.Away dev → shelf'.Away dev
  ports : (shelf'.drawer dev).ports = (shelf.drawer dev).ports
  stuck : (shelf'.drawer dev).stuck = (shelf.drawer dev).stuck

namespace Tends

theorem refl : Tends dev syncer shelf syncer shelf := ⟨rfl, Iff.rfl, rfl, fun _ _ => rfl, id, rfl, rfl⟩

theorem trans {middle : Syncer} {between : Shelf} (first : Tends dev syncer shelf middle between)
    (second : Tends dev middle between after shelf') : Tends dev syncer shelf after shelf' where
  settings := second.settings.trans first.settings
  loaded := second.loaded.trans first.loaded
  written := second.written.trans first.written
  others other apart := (second.others other apart).trans (first.others other apart)
  away free := second.away (first.away free)
  ports := second.ports.trans first.ports
  stuck := second.stuck.trans first.stuck

theorem of_beside (beside : Syncer.Beside dev syncer after) : Tends dev syncer shelf after shelf :=
  ⟨beside.settings, beside.loaded, beside.written, fun _ _ => rfl, id, rfl, rfl⟩

theorem setNote {note : Finset Mac} {held : Option (Name × Section)} (idle : held = shelf.held ∨ held = none)
    (beside : Syncer.Beside dev syncer after) :
    Tends dev syncer shelf after ((shelf.setNote dev note).hold held) := by
  refine ⟨beside.settings, beside.loaded, beside.written, fun other apart => ?_, fun away work => ?_, by simp, by simp⟩
  · exact Shelf.drawer_setNote_of_ne apart
  · rcases idle with same | none
    · exact same ▸ away work
    · exact none ▸ nofun

theorem setRecord {record : Option Index} (beside : Syncer.Beside dev syncer after) :
    Tends dev syncer shelf after (shelf.setRecord dev record) := by
  refine ⟨beside.settings, beside.loaded, beside.written, fun other apart => ?_, id, ?_, ?_⟩
  · simp [Shelf.setRecord, Shelf.setDrawer, apart]
  · simp [Shelf.setRecord, Shelf.setDrawer]
  · simp [Shelf.setRecord, Shelf.setDrawer]

theorem of_enters {macs : List Mac} (enters : Enters dev index macs shelf shelf')
    (beside : Syncer.Beside dev syncer after) : Tends dev syncer shelf after shelf' := by
  refine ⟨beside.settings, beside.loaded, beside.written, enters.others, fun _ work => ?_, enters.files.1,
    enters.files.2⟩
  rw [enters.free]
  exact nofun

theorem of_writing {work : Section} {answers : List (Mac × Except Errno Unit)} {middle : Shelf} {note : Finset Mac}
    (writes : Writing dev work index false answers (shelf.hold (some (dev, work))) middle)
    (beside : Syncer.Beside dev syncer after) :
    Tends dev syncer shelf after ((middle.setNote dev note).hold none) := by
  refine ⟨beside.settings, beside.loaded, beside.written, fun other apart => ?_, fun _ _ => nofun, ?_, ?_⟩
  · exact (Shelf.drawer_setNote_of_ne apart).trans (writes.others other apart)
  · simp [writes.drawer]
  · simp [writes.drawer]

theorem dropPorts {macs : List Mac} : Tends dev syncer shelf (syncer.dropPorts dev macs) shelf := by
  unfold Syncer.dropPorts
  split
  · exact ⟨rfl, Iff.rfl, rfl, fun _ _ => rfl, id, rfl, rfl⟩
  · exact refl

end Tends

section Removing

theorem notMem_dropPorts {macs : List Mac} (dropped : mac ∈ macs) :
    mac ∉ ((syncer.dropPorts dev macs).carriedPorts dev).getD ∅ := by
  unfold Syncer.dropPorts
  split
  · simp [Syncer.setPorts, mem_retain, dropped]
  · rename_i unknown
    simp [unknown]

/-- A removal of what a pass found unwanted. -/
def Deed.Retires (deed : Deed) (mac : Mac) : Prop :=
  deed.mac = mac ∧ deed.add = false ∧ ∃ macs, deed.work = .retire macs

/-- What a refused removal leaves for now: the address on the note, and no port of it in
the process. -/
structure LetBe (dev : Name) (mac : Mac) (shelf : Shelf) (after : Syncer) (shelf' : Shelf) : Prop where
  noted : mac ∈ (shelf.drawer dev).note → mac ∈ (shelf'.drawer dev).note
  unmapped : mac ∉ (after.carriedPorts dev).getD ∅

/-- The removals of a turn, held against one address. -/
structure Removes (act : Bool) (dev : Name) (mac : Mac) (stale : List Mac) (shelf : Shelf) (retired : Retired)
    (after : Syncer) (shelf' : Shelf) (new : List Deed) : Prop where
  deeds : (shelf'.drawer dev).deeds = new ++ (shelf.drawer dev).deeds
  asks : act = true → mac ∈ stale → ∃ deed ∈ new, deed.Retires mac
  refused : ∀ deed ∈ new, deed.Refused mac →
    act = true ∧ mac ∈ stale ∧ mac ∉ retired.dropped ∧ LetBe dev mac shelf after shelf'

theorem Removes.of_answers {stale : List Mac} {work : Section} {answers : List (Mac × Except Errno Unit)}
    {note : Finset Mac} {middle : Shelf} (nodup : stale.Nodup) (asked : answers.map (·.1) = stale)
    (settles : note = (shelf.drawer dev).note \ (absentOrOk answers).toFinset ∨
      ¬ sure dev ∧ note = (shelf.drawer dev).note)
    (writes : Writing dev (.retire stale) index false answers (shelf.hold (some (dev, work))) middle) :
    Removes true dev mac stale shelf ⟨absentOrOk answers, answeredOk answers, refusedBut .noEntry answers⟩
      (syncer.dropPorts dev ((refusedBut .noEntry answers).map (·.1))) ((middle.setNote dev note).hold none)
      (answers.map fun answer => (⟨.retire stale, index, answer.1, false, answer.2⟩ : Deed)).reverse where
  deeds := by simp [writes.drawer]
  asks _ unwanted := by
    rw [← asked] at unwanted
    obtain ⟨answer, given, same⟩ := List.mem_map.mp unwanted
    exact ⟨_, List.mem_reverse.mpr (List.mem_map_of_mem given), same, rfl, stale, rfl⟩
  refused deed listed := by
    intro ⟨_, same, errno, told, other⟩
    obtain ⟨answer, given, made⟩ := List.mem_map.mp (List.mem_reverse.mp listed)
    subst made
    dsimp only at same told
    subst same
    have member : answer.1 ∈ stale := asked ▸ List.mem_map_of_mem given
    rw [← asked] at nodup
    have present : answer.1 ∉ absentOrOk answers := by
      intro settled
      rcases mem_absentOrOk.mp settled with said | said
      · rw [reply_unique nodup given said] at told
        cases told
      · rw [reply_unique nodup given said] at told
        exact other (Except.error.inj told).symm
    refine ⟨rfl, member, present, fun named => ?_, notMem_dropPorts ?_⟩
    · rcases settles with same | ⟨_, same⟩
      · simp [same, named, present]
      · simpa [same] using named
    · exact mem_refusedBut.mpr ⟨errno, other, told ▸ given⟩

theorem retireStale_shelf {act : Bool} {stale : List Mac} (mac : Mac) (nodup : stale.Nodup) :
    Safe (shelving legible sure) (retireStale act dev index stale) (fun retired after shelf' =>
      Tends dev syncer shelf after shelf' ∧ ∃ new, Removes act dev mac stale shelf retired after shelf' new)
      syncer shelf := by
  rw [retireStale]
  split
  · rename_i acts
    obtain ⟨acts, _⟩ := acts
    subst acts
    apply safe_bind.mpr
    apply retire_shelf.mono
    intro retired syncer₁ _ facts
    obtain ⟨marks, answers, note, middle, asked, outcome, settles, writes, left⟩ := facts
    subst left outcome
    apply safe_bind.mpr (safe_modify.mpr ?_)
    exact ⟨(Tends.of_writing writes (.of_noteMarks marks)).trans .dropPorts, _, .of_answers nodup asked settles writes⟩
  · rename_i idle
    refine ⟨.refl, [], rfl, fun acts unwanted => ?_, by simp⟩
    exact absurd ⟨acts, List.ne_nil_of_mem unwanted⟩ idle

/-- Writing the difference a turn made leaves on the note what the turn left owned. -/
theorem mergeOwned_shelf {apply : Bool} {before owned : Finset Mac} (mac : Mac) :
    Safe (shelving legible sure) (mergeOwned apply dev before owned) (fun _ after shelf' =>
      NoteMarks Set.univ syncer after ∧ ∃ note held, shelf' = (shelf.setNote dev note).hold held ∧
        (held = shelf.held ∨ held = none) ∧ (mac ∈ owned → mac ∈ (shelf.drawer dev).note → mac ∈ note))
      syncer shelf := by
  have idle : NoteMarks Set.univ syncer syncer ∧ ∃ note held, shelf = (shelf.setNote dev note).hold held ∧
      (held = shelf.held ∨ held = none) ∧ (mac ∈ owned → mac ∈ (shelf.drawer dev).note → mac ∈ note) :=
    ⟨.refl _, _, shelf.held, by rw [Shelf.setNote_self]; rfl, .inl rfl, fun _ => id⟩
  rw [mergeOwned]
  split
  · apply safe_bind.mpr (safe_get.mpr ?_)
    split
    · apply locked_shelf
      apply safe_bind.mpr
      apply readOwned_shelf.mono
      intro current syncer₁ _ facts
      obtain ⟨same, marks, reads⟩ := facts
      subst same
      apply safe_bind.mpr
      apply writeOwned_shelf.mono
      intro done after _ facts
      obtain ⟨marks', note, written, settles⟩ := facts
      subst written
      refine ⟨marks.trans marks', note, none, rfl, .inr rfl, fun stays named => ?_⟩
      rcases settles with ⟨readable, same⟩ | ⟨same, _⟩
      · obtain ⟨_, names⟩ := reads.resolve_left fun failed => readable failed.1
        rw [same, names]
        exact Finset.mem_sdiff.mpr ⟨Finset.mem_union_left _ named, fun gone => (Finset.mem_sdiff.mp gone).2 stays⟩
      · exact same ▸ named
    · exact idle
  · exact idle

end Removing

section Settling

variable {want owned : Finset Mac}

theorem recordOwner_shelf {needed : Bool} :
    Safe (shelving legible sure) (recordOwner needed dev index) (fun _ after shelf' =>
      Tends dev syncer shelf after shelf' ∧ (shelf'.drawer dev).note = (shelf.drawer dev).note ∧
        (shelf'.drawer dev).deeds = (shelf.drawer dev).deeds) syncer shelf := by
  rw [recordOwner]
  split
  · apply noteIndex_shelf.mono
    intro _ after _ facts
    obtain ⟨marks, record, written⟩ := facts
    subst written
    refine ⟨.setRecord (.of_noteMarks marks), ?_, ?_⟩
    · simp [Shelf.setRecord, Shelf.setDrawer]
    · simp [Shelf.setRecord, Shelf.setDrawer]
  · exact ⟨.refl, rfl, rfl⟩

theorem registerMissing_shelf {act : Bool} {toAdd : List Mac} :
    Safe (shelving legible sure) (registerMissing act dev index toAdd) (fun put after shelf' =>
      Tends dev syncer shelf after shelf' ∧ (∀ other ∈ put, other ∈ toAdd) ∧
        (∀ mac ∉ toAdd, (mac ∈ (shelf'.drawer dev).note ↔ mac ∈ (shelf.drawer dev).note)) ∧
        ∃ new, (shelf'.drawer dev).deeds = new ++ (shelf.drawer dev).deeds ∧ ∀ deed ∈ new, deed.add = true)
      syncer shelf := by
  rw [registerMissing]
  split
  · apply safe_bind.mpr
    apply registerBatchLocked_shelf.mono
    intro registered after shelf' facts
    obtain ⟨marks, enters, went⟩ := facts
    have tends : Tends dev syncer shelf after shelf' := .of_enters enters (.of_noteMarks marks)
    obtain ⟨new, deeds, adds⟩ := enters.deeds
    have added : ∀ deed ∈ new, deed.add = true := fun deed listed => (adds deed listed).2.2.1
    cases registered with
    | none => exact ⟨tends, fun _ listed => absurd listed List.not_mem_nil, enters.note, new, deeds, added⟩
    | some done => exact ⟨tends, went done rfl, enters.note, new, deeds, added⟩
  · exact ⟨.refl, fun _ listed => absurd listed List.not_mem_nil, fun _ _ => Iff.rfl, [], rfl,
      fun _ listed => absurd listed List.not_mem_nil⟩

/-- What a turn does to its filter and its note, held against one address. -/
structure Settles (act : Bool) (dev : Name) (mac : Mac) (want owned : Finset Mac) (shelf : Shelf)
    (settled : Settled) (after : Syncer) (shelf' : Shelf) (new : List Deed) : Prop where
  deeds : (shelf'.drawer dev).deeds = new ++ (shelf.drawer dev).deeds
  asks : act = true → mac ∈ owned → mac ∉ want → ∃ deed ∈ new, deed.Retires mac
  refused : ∀ deed ∈ new, deed.Refused mac →
    act = true ∧ mac ∈ owned ∧ mac ∉ want ∧ mac ∈ settled.owned ∧ LetBe dev mac shelf after shelf'

theorem settleCard_shelf (mac : Mac) : Safe (shelving legible sure) (settleCard reading dev index want owned)
    (fun settled after shelf' => Tends dev syncer shelf after shelf' ∧ ∃ new,
      Settles (reading.apply && !syncer.dryRun) dev mac want owned shelf settled after shelf' new)
    syncer shelf := by
  apply safe_bind.mpr (safe_get.mpr ?_)
  dsimp only
  apply safe_bind.mpr (safe_ask.mpr ⟨trivial, ?_⟩)
  intro wantOrder shelf₀ same
  obtain rfl : shelf₀ = shelf := same
  set act := reading.apply && !syncer.dryRun
  set toAdd := wantOrder.list.filter (· ∉ selfList reading.fdb index) with toAdd_def
  have adds : ∀ other ∈ toAdd, other ∈ want := by
    intro other listed
    exact (wantOrder.mem_iff other).mp (List.mem_of_mem_filter listed)
  apply safe_bind.mpr
  apply (recordOwner_shelf).mono
  intro _ syncer₁ shelf₁ ⟨first, notes₁, deeds₁⟩
  apply safe_bind.mpr
  apply registerMissing_shelf.mono
  intro put syncer₂ shelf₂ ⟨second, put_asked, noted, added, deeds₂, allAdd⟩
  apply safe_bind.mpr (safe_ask.mpr ⟨trivial, ?_⟩)
  intro ownedOrder shelf₃ same
  obtain rfl : shelf₃ = shelf₂ := same
  set stale := ownedOrder.list.filter (· ∉ want) with stale_def
  have unwanted : mac ∈ stale ↔ mac ∈ owned ∧ mac ∉ want := by
    rw [stale_def, List.mem_filter, ownedOrder.mem_iff, decide_eq_true_eq, Finset.mem_union, List.mem_toFinset]
    constructor
    · intro ⟨either, notWanted⟩
      exact ⟨either.resolve_right fun entered => notWanted (adds mac (put_asked mac entered)), notWanted⟩
    · exact fun ⟨before, notWanted⟩ => ⟨.inl before, notWanted⟩
  apply safe_bind.mpr
  apply (retireStale_shelf mac (ownedOrder.nodup.filter _)).mono
  intro retired syncer₃ shelf₄ ⟨third, removed, removes⟩
  apply safe_bind.mpr
  apply (mergeOwned_shelf mac).mono
  intro _ after _ ⟨marks, note, held, left, idle, merges⟩
  subst left
  have beside : Syncer.Beside dev syncer₃ after := .of_noteMarks marks
  refine safe_pure.mpr ⟨((first.trans second).trans third).trans (.setNote idle beside), removed ++ added, ?_, ?_, ?_⟩
  · simp [removes.deeds, deeds₂, deeds₁]
  · intro acts before notWanted
    obtain ⟨deed, listed, retires⟩ := removes.asks acts (unwanted.mpr ⟨before, notWanted⟩)
    exact ⟨deed, List.mem_append_left _ listed, retires⟩
  · intro deed listed refused
    rcases List.mem_append.mp listed with listed | listed
    · obtain ⟨acts, member, present, letBe⟩ := removes.refused deed listed refused
      obtain ⟨before, notWanted⟩ := unwanted.mp member
      have stays : mac ∈ (owned ∪ put.toFinset) \ retired.dropped.toFinset :=
        Finset.mem_sdiff.mpr ⟨Finset.mem_union_left _ before, fun gone => present (List.mem_toFinset.mp gone)⟩
      refine ⟨acts, before, notWanted, stays, fun named => ?_, ?_⟩
      · have still : mac ∈ (shelf₃.drawer dev).note :=
          (noted mac fun asked => notWanted (adds mac asked)).mpr (notes₁ ▸ named)
        simpa using merges stays (letBe.noted still)
      · rw [beside.carriedPorts]
        exact letBe.unmapped
    · exact absurd refused.1 (by rw [allAdd deed listed]; decide)

end Settling

section Remembering

variable {learntAt : LearntAt} {ports : PortMap} {seen : Nat} {owned : Finset Mac}

theorem mem_noteSeen_some {other : Mac} {port : Index} :
    mac ∈ noteSeen ports other (some port) seen ↔ mac = other ∨ mac ∈ ports := by
  unfold noteSeen
  split <;> simp [AList.mem_insert]

theorem mem_foldl_learnt {rows : List (Sigma fun _ : Mac => Index)} :
    mac ∈ rows.foldl (fun ports row => noteSeen ports row.1 (some row.2) seen) ports ↔
      mac ∈ rows.map (·.1) ∨ mac ∈ ports := by
  induction rows generalizing ports with
  | nil => simp
  | cons row rest ih =>
      rw [List.foldl_cons, ih, mem_noteSeen_some, List.map_cons, List.mem_cons]
      tauto

/-- What a pass remembers: of what is owned, what it found learnt and what it knew. -/
theorem mem_follow : mac ∈ ports.follow learntAt seen owned ↔ mac ∈ owned ∧ (mac ∈ learntAt ∨ mac ∈ ports) := by
  rw [PortMap.follow, mem_retain, mem_foldl_learnt]
  simp [AList.mem_keys, AList.keys, List.keys]

/-- What the end of a turn leaves of a drawer. -/
structure Files (dev : Name) (shelf shelf' : Shelf) : Prop where
  others : ∀ other ≠ dev, shelf'.drawer other = shelf.drawer other
  away : shelf.Away dev → shelf'.Away dev
  note : (shelf'.drawer dev).note = (shelf.drawer dev).note
  deeds : (shelf'.drawer dev).deeds = (shelf.drawer dev).deeds
  stuck : (shelf'.drawer dev).stuck = (shelf.drawer dev).stuck

theorem Files.refl : Files dev shelf shelf := ⟨fun _ _ => rfl, id, rfl, rfl, rfl⟩

/-- What an address is remembered by, once the turn has gone over the memory. -/
structure Remembers (topo : Topology) (dev : Name) (mac : Mac) (learnt : Prop) (shelf : Shelf) (after : Syncer)
    (shelf' : Shelf) : Prop where
  mapped : mac ∈ (after.carriedPorts dev).getD ∅ ↔ learnt
  filed : (shelf.drawer dev).stuck = false → shelf'.Recalls topo dev mac → learnt
  stuck : (shelf.drawer dev).stuck = true → (shelf'.drawer dev).ports = (shelf.drawer dev).ports

theorem refreshMemory_shelf (plain : reading.topo.Plain) {readable : Bool} (mac : Mac) :
    Safe (shelving legible sure) (refreshMemory reading dev readable learntAt owned) (fun _ after shelf' =>
      Files dev shelf shelf' ∧ after.portsLoaded = syncer.portsLoaded ∧
        (readable = true → reading.apply = true → syncer.dryRun = false → syncer.Faithful reading.topo shelf dev →
          mac ∈ owned → mac ∉ (syncer.carriedPorts dev).getD ∅ →
            Remembers reading.topo dev mac (mac ∈ learntAt) shelf after shelf')) syncer shelf := by
  rw [refreshMemory]
  split
  · apply safe_bind.mpr (safe_modify.mpr ?_)
    set ports := ((syncer.carriedPorts dev).getD ∅).follow learntAt reading.passAt owned with ports_def
    have mapped : (syncer.setPorts dev (some ports)).carriedPorts dev = some ports := by simp [Syncer.setPorts]
    split
    · apply (savePorts_shelf plain).mono
      intro _ after shelf' facts
      obtain ⟨written, text, held, wrote, left, idle, saved⟩ := facts
      subst wrote left
      refine ⟨⟨fun other apart => Shelf.drawer_setPorts_of_ne apart, fun away work => ?_, by simp, by simp, by simp⟩, rfl, ?_⟩
      · rcases idle with same | none
        · exact same ▸ away work
        · rw [none]
          exact (Option.some_ne_none _).symm
      · intro _ _ acts faithful member unmapped
        have learnt : mac ∈ ports ↔ mac ∈ learntAt := by
          rw [ports_def, mem_follow]
          simp [member, unmapped]
        have minds : (syncer.setPorts dev (some ports)).Minds dev := ⟨acts, .inr (by rw [mapped]; rfl)⟩
        refine ⟨?_, fun loose => ?_, fun stuck => ?_⟩
        · change mac ∈ ((syncer.setPorts dev (some ports)).carriedPorts dev).getD ∅ ↔ mac ∈ learntAt
          rw [mapped]
          exact learnt
        · intro facts
          obtain ⟨line, listed, same⟩ := facts
          have covered := saved.bounded minds loose (faithful.of_same rfl rfl) line (by simpa using listed)
          rw [mapped, same] at covered
          exact learnt.mp covered
        · simpa using saved.kept (.inr stuck)
    · rename_i idle
      exact ⟨.refl, rfl, fun _ acts => absurd acts idle⟩
  · rename_i unreadable
    exact ⟨.refl, rfl, fun readable => absurd readable unreadable⟩

end Remembering

section Turn

variable {pair : Pair} {link : Link} {anat : Anatomy} {answer : Answer}

theorem decideWanted_shelf {owned : Finset Mac} :
    Safe (shelving legible sure) (decideWanted reading dev anat answer owned) (fun decision after shelf' =>
      shelf' = shelf ∧ Syncer.Beside dev syncer after ∧ ∀ wanted answer', decision = .ok (wanted, answer') →
        ∃ vfMacs, wanted = syncer.wantedWithKeeps reading.topo anat reading.fdb vfMacs owned) syncer shelf := by
  have beside : Safe (shelving legible sure) (decideWanted reading dev anat answer owned) (fun _ after _ =>
      Syncer.Beside dev syncer after) syncer shelf :=
    within_shelf (decideWanted_beside : Within (InScope Set.univ Set.univ) _ _ _)
  have decides : Safe (shelving legible sure) (decideWanted reading dev anat answer owned) (fun decision _ shelf' =>
      shelf' = shelf ∧ ∀ wanted answer', decision = .ok (wanted, answer') →
        ∃ vfMacs, wanted = syncer.wantedWithKeeps reading.topo anat reading.fdb vfMacs owned) syncer shelf := by
    apply safe_bind.mpr (safe_get.mpr ?_)
    dsimp only
    split
    · apply safe_bind.mpr (safe_modify.mpr ?_)
      apply safe_bind.mpr (safe_ask.mpr ⟨trivial, ?_⟩)
      intro fresh shelf₁ same
      obtain rfl : shelf₁ = shelf := same
      cases fresh with
      | error errno => exact ⟨rfl, nofun⟩
      | ok fresh =>
          refine safe_bind.mpr (safe_modify.mpr ⟨rfl, fun wanted answer' same => ⟨fresh, ?_⟩⟩)
          exact (Prod.mk.inj (Except.ok.inj same)).1.symm
    · exact ⟨rfl, fun wanted answer' same => ⟨_, (Prod.mk.inj (Except.ok.inj same)).1.symm⟩⟩
  exact (decides.and beside).mono fun _ _ _ ⟨⟨same, decided⟩, aside⟩ => ⟨same, aside, decided⟩

theorem reportReleased_shelf {apply : Bool} {shed : List Mac} :
    Safe (shelving legible sure) (reportReleased apply dev shed) (fun _ after shelf' =>
      after = syncer ∧ shelf' = shelf) syncer shelf := by
  rw [reportReleased]
  split
  · exact safe_bind.mpr (safe_ask.mpr ⟨trivial, fun _ _ same => ⟨rfl, same⟩⟩)
  · exact ⟨rfl, rfl⟩

/-- The dump has an address learnt behind the bridge. -/
def Relearnt (topo : Topology) (anat : Anatomy) (fdb : List FdbEntry) (mac : Mac) : Prop :=
  ∃ entry ∈ fdb, FacesGuest anat (topo.reach anat.bridge) entry ∧ entry.mac = mac

/-- What is wanted of an uplink depends on the settings and on its own memory. -/
theorem wantedWithKeeps_congr (named : topo.nameOf anat.dev = some dev)
    (settings : after.toSettings = syncer.toSettings) (ports : after.carriedPorts dev = syncer.carriedPorts dev)
    {fdb : List FdbEntry} {vfMacs : List (Index × Mac)} {owned : Finset Mac} :
    after.wantedWithKeeps topo anat fdb vfMacs owned = syncer.wantedWithKeeps topo anat fdb vfMacs owned := by
  have exclude : after.exclude = syncer.exclude := congrArg Settings.exclude settings
  have extra : after.extra = syncer.extra := congrArg Settings.extra settings
  have skip : after.exclusions topo anat vfMacs = syncer.exclusions topo anat vfMacs := exclusions_congr exclude
  have desired {reach : Reach} {skip : Finset Mac} :
      after.desired topo anat reach skip fdb = syncer.desired topo anat reach skip fdb := by
    rw [Syncer.desired, Syncer.desired, extra]
  have kept {reach : Reach} {skip want wire : Finset Mac} :
      after.quietSurvivors topo anat reach skip want wire owned =
        syncer.quietSurvivors topo anat reach skip want wire owned := by
    simp only [Syncer.quietSurvivors, named, ports]
  simp only [Syncer.wantedWithKeeps, skip, desired, kept]

/-- An uplink's turn, held against one address. -/
structure TurnedOver (legible : Name → Prop) (reading : Reading) (dev : Name) (anat : Anatomy) (mac : Mac) (syncer : Syncer)
    (shelf : Shelf) (reports : Prop) (after : Syncer) (shelf' : Shelf) (new : List Deed) : Prop where
  others : ∀ other ≠ dev, shelf'.drawer other = shelf.drawer other
  away : shelf.Away dev → shelf'.Away dev
  loaded : dev ∈ after.portsLoaded
  deeds : (shelf'.drawer dev).deeds = new ++ (shelf.drawer dev).deeds
  refused : syncer.Faithful reading.topo shelf dev → ∀ deed ∈ new, deed.Refused mac →
    mac ∈ (shelf'.drawer dev).note ∧
      Remembers reading.topo dev mac (Relearnt reading.topo anat reading.fdb mac) shelf after shelf'
  retries : reports → reading.apply = true → syncer.dryRun = false → legible dev → dev ∈ syncer.portsLoaded →
    mac ∈ (shelf.drawer dev).note → (∀ vfMacs, mac ∉ (syncer.wantedWithKeeps reading.topo anat reading.fdb vfMacs
      (shelf.drawer dev).note).want) → ∃ deed ∈ new, deed.Retires mac

theorem mem_wanted_learntAt {below : Link} (known : topo.linkAt anat.bridge = some below) {fdb : List FdbEntry}
    {vfMacs : List (Index × Mac)} {owned : Finset Mac} :
    mac ∈ (syncer.wantedWithKeeps topo anat fdb vfMacs owned).learntAt ↔ Relearnt topo anat fdb mac :=
  mem_desired_learntAt known

theorem passUplink_shelf (plain : reading.topo.Plain) (named : reading.topo.nameOf anat.dev = some pair.dev)
    {below : Link} (known : reading.topo.linkAt anat.bridge = some below) (mac : Mac) :
    Safe (shelving legible sure) (passUplink reading pair link anat answer) (fun result after shelf' =>
      ∃ new, TurnedOver legible reading pair.dev anat mac syncer shelf
        (∃ report answer', result = .ok (some report, answer')) after shelf' new) syncer shelf := by
  apply safe_bind.mpr
  apply (loadPorts_shelf plain).mono
  intro _ syncer₁ _ takes
  obtain ⟨clock, _, ticked⟩ := takes.later
  subst ticked
  have faithful₁ : syncer.Faithful reading.topo shelf pair.dev → syncer₁.Faithful reading.topo shelf pair.dev :=
    fun holds => (takes.faithful holds).of_same rfl rfl
  apply safe_bind.mpr
  apply loadOwned_shelf.mono
  intro owned syncer₂ shelf₂ ⟨same, marks, reads⟩
  have beside₂ : Syncer.Beside pair.dev syncer₁ syncer₂ := .of_noteMarks marks
  refine safe_bind.mpr (safe_bind.mpr (safe_get.mpr (safe_pure.mpr ?_)))
  apply safe_bind.mpr
  apply decideWanted_shelf.mono
  intro decision syncer₃ shelf₃ ⟨same', beside₃, decided⟩
  subst same same'
  have loaded₃ : pair.dev ∈ syncer₃.portsLoaded := beside₃.loaded.mpr (beside₂.loaded.mpr takes.loaded)
  cases decision with
  | error errno =>
      exact ⟨[], fun _ _ => rfl, id, loaded₃, rfl, nofun, nofun⟩
  | ok decision =>
      obtain ⟨wanted, answer'⟩ := decision
      obtain ⟨vfMacs, isWanted⟩ := decided wanted answer' rfl
      apply safe_bind.mpr (safe_get.mpr ?_)
      set relieved := syncer₃.relieve reading pair.dev anat wanted owned
      have fewer : relieved.want ⊆ wanted.want := Finset.sdiff_subset
      apply safe_bind.mpr
      apply reportReleased_shelf.mono
      intro _ syncer₃ shelf₃ ⟨told, same⟩
      subst told same
      apply safe_bind.mpr
      apply (settleCard_shelf mac).mono
      intro settled syncer₄ shelf₄ ⟨tends, new, settles⟩
      apply safe_bind.mpr
      apply (refreshMemory_shelf plain mac).mono
      intro _ syncer₅ shelf₅ ⟨files, loaded, remembers⟩
      refine safe_bind.mpr (safe_modify.mpr (safe_pure.mpr ⟨new, ?_⟩))
      refine ⟨?_, ?_, ?_, ?_, ?_, ?_⟩
      · exact fun other apart => (files.others other apart).trans (tends.others other apart)
      · exact fun away => files.away (tends.away away)
      · exact loaded ▸ tends.loaded.mpr loaded₃
      · exact files.deeds.trans settles.deeds
      · intro faithful deed listed refused
        obtain ⟨acts, before, notWanted, stays, letBe⟩ := settles.refused deed listed refused
        rw [Bool.and_eq_true, Bool.not_eq_true'] at acts
        obtain ⟨readable, names⟩ := reads.resolve_left fun failed => by
          rw [failed.2.1] at before
          exact Finset.notMem_empty mac before
        have faithful₄ : syncer₄.Faithful reading.topo shelf₄ pair.dev :=
          (faithful₁ faithful).of_same (tends.written.trans (beside₃.written.trans beside₂.written)) tends.ports
        have remembered := remembers (decide_eq_true readable) acts.1 ((congrArg Settings.dryRun tends.settings).trans
          acts.2) faithful₄ stays letBe.unmapped
        rw [isWanted, mem_wanted_learntAt known] at remembered
        refine ⟨?_, remembered.mapped, fun loose => ?_, fun stuck => ?_⟩
        · exact files.note ▸ letBe.noted (names ▸ before)
        · exact remembered.filed (tends.stuck.trans loose)
        · exact (remembered.stuck (tends.stuck.trans stuck)).trans tends.ports
      · intro _ applies acts certain loaded₀ noted unwanted
        have owned_note : owned = (shelf.drawer pair.dev).note := (reads.resolve_left fun failed => failed.2.2.2 certain).2
        have settings : syncer₂.toSettings = syncer.toSettings := by
          obtain ⟨_, _, _, same⟩ := takes.marks
          rw [beside₂.settings, same]
        have ports : syncer₂.carriedPorts pair.dev = syncer.carriedPorts pair.dev := by
          rw [beside₂.carriedPorts, takes.ports, Syncer.brings, if_pos loaded₀]
          cases syncer.carriedPorts pair.dev <;> rfl
        apply settles.asks
        · have dry : syncer₃.dryRun = false :=
            (congrArg Settings.dryRun (beside₃.settings.trans settings)).trans acts
          rw [applies, dry]
          rfl
        · exact owned_note ▸ noted
        · intro member
          apply unwanted vfMacs
          rw [← wantedWithKeeps_congr named settings ports, ← owned_note, ← isWanted]
          exact fewer member

end Turn

end SriovMacSync
