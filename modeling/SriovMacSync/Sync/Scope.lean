import SriovMacSync.Interaction.Judgement
import SriovMacSync.Sync.Flush

namespace SriovMacSync

open Data Netlink Interaction Interaction.Action

/-! Which files and which filters each part of the program reaches, and which of
its memory it changes, whatever the replies are. -/

/-- The device whose files, or whose note's lock, a request is about. -/
def Call.about : Call → Option Name
  | .lock dev _ | .unlock dev | .readNote dev | .putNote dev _ | .appendNote dev _
  | .removeNote dev | .readIndex dev | .putIndex dev _ | .removeIndex dev | .readPorts dev
  | .portsExist dev | .putPorts dev _ | .removePorts dev => some dev
  | _ => none

/-- The filter a request writes, and whether it adds. -/
def Call.writes : Call → Option (Index × Bool)
  | .setSelfFdb index _ add => some (index, add)
  | _ => none

/-- The interface a request records beside a note. -/
def Call.records : Call → Option Index
  | .putIndex _ index => some index
  | _ => none

/-- The requests that reach no other files and no other filters than these, and
record no other interface. -/
def InScope (devs : Set Name) (filters : Set (Index × Bool)) (request : Call) : Prop :=
  (∀ dev, request.about = some dev → dev ∈ devs) ∧
    (∀ filter, request.writes = some filter → filter ∈ filters) ∧
    ∀ index, request.records = some index → ∃ add, (index, add) ∈ filters

theorem inScope_file {devs : Set Name} {filters : Set (Index × Bool)} {request : Call} {dev : Name}
    (about : request.about = some dev) (writes : request.writes = none)
    (records : request.records = none) (member : dev ∈ devs) : InScope devs filters request := by
  refine ⟨?_, by simp [writes], by simp [records]⟩
  rintro other found
  obtain rfl : dev = other := Option.some.inj (about.symm.trans found)
  exact member

theorem inScope_idle {devs : Set Name} {filters : Set (Index × Bool)} {request : Call}
    (about : request.about = none) (writes : request.writes = none) :
    InScope devs filters request := by
  refine ⟨by simp [about], by simp [writes], fun index records => ?_⟩
  cases request <;> simp [Call.about, Call.records] at about records

/-- Only what is known about these notes changed. -/
def NoteMarks (devs : Set Name) (before after : Syncer) : Prop :=
  ∃ unreadable indices, (∀ dev ∉ devs, indices dev = before.indices dev) ∧
    after = { before with unreadable, indices }

theorem NoteMarks.refl {devs : Set Name} (syncer : Syncer) : NoteMarks devs syncer syncer :=
  ⟨_, _, fun _ _ => rfl, rfl⟩

theorem NoteMarks.trans {devs : Set Name} {first second third : Syncer}
    (one : NoteMarks devs first second) (two : NoteMarks devs second third) :
    NoteMarks devs first third := by
  obtain ⟨_, _, same, rfl⟩ := one
  obtain ⟨_, _, same', rfl⟩ := two
  exact ⟨_, _, fun dev apart => (same' dev apart).trans (same dev apart), rfl⟩

theorem NoteMarks.setIndex {devs : Set Name} {syncer : Syncer} {dev : Name} {index : Option Index}
    (member : dev ∈ devs) : NoteMarks devs syncer (syncer.setIndex dev index) := by
  refine ⟨_, _, fun other apart => ?_, rfl⟩
  exact Function.update_of_ne (by rintro rfl; exact apart member) _ _

theorem NoteMarks.sawNote {devs : Set Name} {syncer : Syncer} {dev : Name} {readable : Bool} :
    NoteMarks devs syncer (syncer.sawNote dev readable) := ⟨_, _, fun _ _ => rfl, rfl⟩

/-- Only the port memory and what is known about its files changed. -/
def PortMarks (before after : Syncer) : Prop :=
  ∃ carriedPorts portsLoaded portsWritten,
    after = { before with carriedPorts, portsLoaded, portsWritten }

theorem PortMarks.refl (syncer : Syncer) : PortMarks syncer syncer := ⟨_, _, _, rfl⟩

/-- Dating deletions changes the port memory and nothing else. -/
theorem dateAll_marks {syncer : Syncer} {topo : Topology} {now : Nat} {events : List Event} :
    ∃ carriedPorts,
      events.foldl (Syncer.dateOne topo now) syncer = { syncer with carriedPorts } := by
  have one (syncer : Syncer) (event : Event) :
      ∃ carriedPorts, Syncer.dateOne topo now syncer event = { syncer with carriedPorts } := by
    unfold Syncer.dateOne
    split
    · split
      · generalize syncer.servedBy topo _ = served
        induction served generalizing syncer with
        | nil => exact ⟨_, rfl⟩
        | cons dev rest ih =>
            rw [List.foldl_cons]
            refine (ih _).imp fun carriedPorts same => same.trans ?_
            split <;> rfl
      · exact ⟨_, rfl⟩
    · exact ⟨_, rfl⟩
  induction events generalizing syncer with
  | nil => exact ⟨_, rfl⟩
  | cons event rest ih =>
      obtain ⟨first, dated⟩ := one syncer event
      obtain ⟨carriedPorts, same⟩ := @ih { syncer with carriedPorts := first }
      exact ⟨carriedPorts, by rw [List.foldl_cons, dated, same]⟩

section Notes

variable {dev : Name} {devs : Set Name} {filters : Set (Index × Bool)} {syncer : Syncer}

theorem readOwned_within (member : dev ∈ devs) :
    Within (InScope devs filters) (readOwned dev) (fun _ after => NoteMarks devs syncer after) syncer := by
  simp only [Within, readOwned, safe_bind, safe_ask, safe_modify, safe_pure]
  exact ⟨inScope_file rfl rfl rfl member, fun _ _ _ => .sawNote⟩

theorem loadOwned_within (member : dev ∈ devs) :
    Within (InScope devs filters) (loadOwned dev) (fun _ after => NoteMarks devs syncer after) syncer := by
  simp only [Within, loadOwned, safe_bind, safe_ask, safe_modify, safe_pure]
  refine ⟨inScope_file rfl rfl rfl member, fun reading _ _ => ?_⟩
  split
  · exact .sawNote
  · exact NoteMarks.sawNote.trans (.setIndex member)

/-- Two parts of the program after another, both changing only note marks. -/
theorem NoteMarks.bind {allowed : Call → Prop} {α β : Type} {first : Sync α} {rest : α → Sync β}
    {before : Syncer}
    (left : Within allowed first (fun _ after => NoteMarks devs before after) before)
    (right : ∀ value middle,
      Within allowed (rest value) (fun _ after => NoteMarks devs middle after) middle) :
    Within allowed (first >>= rest) (fun _ after => NoteMarks devs before after) before :=
  left.bind fun value middle one => (right value middle).imp fun _ _ two => one.trans two

theorem noteIsReadable_within {allowed : Call → Prop} :
    Within allowed (noteIsReadable dev) (fun _ after => NoteMarks devs syncer after) syncer :=
  NoteMarks.refl syncer

theorem writeOwned_within (member : dev ∈ devs) {set : Finset Mac} :
    Within (InScope devs filters) (writeOwned dev set) (fun _ after => NoteMarks devs syncer after)
      syncer := by
  refine NoteMarks.bind noteIsReadable_within fun readable middle => ?_
  split
  · refine NoteMarks.bind (loadOwned_within member) fun owned middle => ?_
    split
    · exact within_pure.mpr (.refl _)
    · exact within_ask.mpr ⟨inScope_file rfl rfl rfl member, fun _ => .refl _⟩
  · exact within_pure.mpr (.refl _)

theorem noteIndex_within (member : dev ∈ devs) {index : Index} {add : Bool}
    (filter : (index, add) ∈ filters) :
    Within (InScope devs filters) (noteIndex dev index) (fun _ after => NoteMarks devs syncer after)
      syncer := by
  simp only [Within, noteIndex, safe_bind, safe_get]
  split
  · simp only [safe_bind, safe_ask]
    refine ⟨⟨?_, by simp [Call.writes], ?_⟩, fun written _ _ => ?_⟩
    · rintro other about
      obtain rfl := Option.some.inj about
      exact member
    · rintro other records
      obtain rfl := Option.some.inj records
      exact ⟨add, filter⟩
    · split
      · exact .setIndex member
      · exact .refl _
  · exact .refl _

theorem recordedIndex_within (member : dev ∈ devs) :
    Within (InScope devs filters) (recordedIndex dev) (fun _ after => after = syncer) syncer := by
  simp only [Within, recordedIndex, notedIndex, safe_bind, safe_get]
  split
  · rfl
  · exact ⟨inScope_file rfl rfl rfl member, fun _ _ _ => rfl⟩

theorem removeNote_within (member : dev ∈ devs) :
    Within (InScope devs filters) (removeNote dev) (fun _ after => NoteMarks devs syncer after)
      syncer := by
  simp only [Within, removeNote, safe_bind, safe_ask, safe_modify]
  exact ⟨inScope_file rfl rfl rfl member, fun _ _ _ => ⟨inScope_file rfl rfl rfl member, fun _ _ _ =>
    ⟨inScope_file rfl rfl rfl member, fun _ _ _ => .setIndex member⟩⟩⟩

theorem appendOwnedLocked_within (member : dev ∈ devs) {added : List Mac} :
    Within (InScope devs filters) (appendOwnedLocked dev added)
      (fun _ after => NoteMarks devs syncer after) syncer := by
  refine NoteMarks.bind (loadOwned_within member) fun set middle => ?_
  refine NoteMarks.bind noteIsReadable_within fun readable middle => ?_
  split
  · dsimp only
    split
    · exact within_pure.mpr (.refl _)
    · exact NoteMarks.bind (within_ask.mpr ⟨inScope_file rfl rfl rfl member, fun _ => .refl _⟩)
        fun _ middle => within_pure.mpr (.refl _)
  · exact within_pure.mpr (.refl _)

theorem unnoteLocked_within (member : dev ∈ devs) {macs : List Mac} :
    Within (InScope devs filters) (unnoteLocked dev macs)
      (fun _ after => NoteMarks devs syncer after) syncer := by
  refine NoteMarks.bind noteIsReadable_within fun readable middle => ?_
  split
  · refine NoteMarks.bind (loadOwned_within member) fun before middle => ?_
    dsimp only
    split
    · exact within_pure.mpr (.refl _)
    · exact writeOwned_within member
  · exact within_pure.mpr (.refl _)

theorem forgetLocked_within (member : dev ∈ devs) {dropped : List Mac} :
    Within (InScope devs filters) (forgetLocked dev dropped)
      (fun _ after => NoteMarks devs syncer after) syncer := by
  rw [forgetLocked]
  split
  · refine NoteMarks.bind (readOwned_within member) fun fin middle => ?_
    exact NoteMarks.bind (writeOwned_within member) fun _ middle => within_pure.mpr (.refl _)
  · exact within_pure.mpr (.refl _)

theorem locked_within {α : Type} {work : Section} {body : Sync α} (member : dev ∈ devs)
    {post : α → Syncer → Prop}
    (within : Within (InScope devs filters) body post syncer) :
    Within (InScope devs filters) (locked dev work body) post syncer := by
  refine (within_ask.mpr ⟨inScope_file rfl rfl rfl member, fun _ => rfl⟩ :
    Within _ (ask (.lock dev work)) (fun _ after => after = syncer) syncer).bind ?_
  rintro _ _ rfl
  refine within.bind fun value memory holds => ?_
  refine (within_ask.mpr ⟨inScope_file rfl rfl rfl member, fun _ => rfl⟩ :
    Within _ (ask (.unlock dev)) (fun _ after => after = memory) memory).bind ?_
  rintro _ _ rfl
  exact within_pure.mpr holds

theorem saveOwnedMerged_within (member : dev ∈ devs) {before after : Finset Mac} :
    Within (InScope devs filters) (saveOwnedMerged dev before after)
      (fun _ after => NoteMarks devs syncer after) syncer := by
  refine within_get ?_
  split
  · refine locked_within member (NoteMarks.bind (readOwned_within member) fun current middle => ?_)
    exact NoteMarks.bind (writeOwned_within member) fun _ middle => within_pure.mpr (.refl _)
  · exact within_pure.mpr (.refl _)

theorem migrateLocked_within {old new : Name} {index : Index} {add : Bool}
    (oldMember : old ∈ devs) (newMember : new ∈ devs) (filter : (index, add) ∈ filters) :
    Within (InScope devs filters) (migrateLocked old new index)
      (fun _ after => NoteMarks devs syncer after) syncer := by
  refine NoteMarks.bind (loadOwned_within oldMember) fun owned middle => ?_
  refine NoteMarks.bind (within_ask.mpr ⟨inScope_idle rfl rfl, fun _ => .refl _⟩)
    fun macs middle => ?_
  refine NoteMarks.bind noteIsReadable_within fun readable middle => ?_
  split
  · split
    · exact NoteMarks.bind (removeNote_within oldMember) fun _ middle => within_pure.mpr (.refl _)
    · refine NoteMarks.bind (noteIndex_within newMember filter) fun _ middle => ?_
      refine NoteMarks.bind (appendOwnedLocked_within newMember) fun appended middle => ?_
      split
      · exact within_pure.mpr (.refl _)
      · exact NoteMarks.bind (removeNote_within oldMember) fun _ middle =>
          within_pure.mpr (.refl _)
  · exact within_pure.mpr (.refl _)

theorem migrateNote_within {old new : Name} {index : Index} {add : Bool}
    (oldMember : old ∈ devs) (newMember : new ∈ devs) (filter : (index, add) ∈ filters) :
    Within (InScope devs filters) (migrateNote old new index)
      (fun _ after => NoteMarks devs syncer after) syncer := by
  rw [migrateNote]
  have within : Within (InScope devs filters) (migrateLocked old new index)
      (fun _ after => NoteMarks devs syncer after) syncer :=
    migrateLocked_within oldMember newMember filter
  split
  · exact within_pure.mpr (.refl _)
  · split
    · exact locked_within oldMember (locked_within newMember within)
    · exact locked_within newMember (locked_within oldMember within)

theorem notedDevicesOrNone_within :
    Within (InScope devs filters) notedDevicesOrNone (fun _ after => after = syncer) syncer := by
  simp only [Within, notedDevicesOrNone, notedDevices, safe_bind, safe_ask, safe_pure]
  refine ⟨inScope_idle rfl rfl, fun listing _ _ => ?_⟩
  cases listing <;> rfl

end Notes

section Ports

variable {dev : Name} {devs : Set Name} {filters : Set (Index × Bool)} {syncer : Syncer}
  {topo : Topology}

theorem loadPorts_within (member : dev ∈ devs) :
    Within (InScope devs filters) (loadPorts dev topo) (fun _ after => PortMarks syncer after)
      syncer := by
  simp only [Within, loadPorts, safe_bind, safe_get]
  split
  · exact .refl _
  · simp only [safe_bind, safe_modify]
    split
    · exact ⟨_, _, _, rfl⟩
    · simp only [readPorts, safe_bind, safe_ask, safe_pure]
      refine ⟨inScope_idle rfl rfl, fun now _ _ => ⟨inScope_file rfl rfl rfl member, fun text _ _ => ?_⟩⟩
      split <;> exact ⟨_, _, _, rfl⟩

theorem memoHolds_within (member : dev ∈ devs) {keys : List Text} {empty : Bool} :
    Within (InScope devs filters) (memoHolds dev keys empty) (fun _ after => after = syncer)
      syncer := by
  simp only [Within, memoHolds, safe_bind, safe_get]
  split
  · exact ⟨inScope_file rfl rfl rfl member, fun _ _ _ => rfl⟩
  · rfl

theorem replacePorts_within (member : dev ∈ devs) {lines : List Text} :
    Within (InScope devs filters) (replacePorts dev lines) (fun _ after => after = syncer)
      syncer := by
  rw [replacePorts]
  split
  · simp only [Within, safe_bind, safe_ask]
    refine ⟨inScope_file rfl rfl rfl member, fun removed _ _ => ?_⟩
    split
    · rfl
    · exact ⟨inScope_file rfl rfl rfl member, fun _ _ _ => rfl⟩
  · exact within_ask.mpr ⟨inScope_file rfl rfl rfl member, fun _ => rfl⟩

theorem savePorts_within (member : dev ∈ devs) {passAt : Nat} :
    Within (InScope devs filters) (savePorts dev topo passAt)
      (fun _ after => ∃ written, after = { syncer with portsWritten := written }) syncer := by
  refine within_get ?_
  split
  · exact ⟨_, rfl⟩
  · refine Within.bind (locked_within member (Within.bind (memoHolds_within member) ?_ :
      Within _ _ (fun _ after => after = syncer) _)) ?_
    · rintro held _ rfl
      split
      · exact within_pure.mpr rfl
      · refine (replacePorts_within member).bind ?_
        rintro wrote _ rfl
        exact within_pure.mpr rfl
    · rintro wrote _ rfl
      split <;> exact ⟨_, rfl⟩

end Ports

section Writes

variable {dev : Name} {index : Index} {devs : Set Name} {filters : Set (Index × Bool)}
  {syncer : Syncer}

theorem setEach_within {add : Bool} {macs : List Mac} (filter : (index, add) ∈ filters) :
    Within (InScope devs filters) (setEach index add macs)
      (fun answers after => answers.map (·.1) = macs ∧ after = syncer) syncer := by
  induction macs with
  | nil => exact ⟨rfl, rfl⟩
  | cons mac rest ih =>
      refine within_ask_bind ⟨by simp [Call.about], ?_, by simp [Call.records]⟩ fun answer => ?_
      · intro written found
        obtain rfl := Option.some.inj found
        exact filter
      · refine ih.bind ?_
        rintro answers _ ⟨rfl, rfl⟩
        exact within_pure.mpr ⟨rfl, rfl⟩

theorem registerBatchLocked_within (member : dev ∈ devs) (filter : (index, true) ∈ filters)
    {macs : List Mac} :
    Within (InScope devs filters) (registerBatchLocked dev index macs)
      (fun _ after => NoteMarks devs syncer after) syncer := by
  refine locked_within member ?_
  refine NoteMarks.bind (appendOwnedLocked_within member) fun appended middle => ?_
  split
  · exact within_pure.mpr (.refl _)
  · refine NoteMarks.bind ((setEach_within filter).imp fun _ _ holds => holds.2 ▸ .refl _)
      fun answers middle => ?_
    dsimp only
    split
    · exact NoteMarks.bind (unnoteLocked_within member) fun _ middle => within_pure.mpr (.refl _)
    · exact within_pure.mpr (.refl _)

theorem retire_within (member : dev ∈ devs) (filter : (index, false) ∈ filters) {work : Section}
    {macs : List Mac} :
    Within (InScope devs filters) (retire work dev index macs)
      (fun _ after => NoteMarks devs syncer after) syncer := by
  refine locked_within member ?_
  refine NoteMarks.bind ((setEach_within filter).imp fun _ _ holds => holds.2 ▸ .refl _)
    fun answers middle => ?_
  exact NoteMarks.bind (forgetLocked_within member) fun _ middle => within_pure.mpr (.refl _)

theorem unregisterAll_within (filter : (index, false) ∈ filters) {owned : Finset Mac} :
    Within (InScope devs filters) (unregisterAll index owned) (fun _ after => after = syncer)
      syncer := by
  refine within_ask_bind (inScope_idle rfl rfl) fun macs => ?_
  refine (setEach_within filter).bind ?_
  rintro answers _ ⟨-, rfl⟩
  exact within_pure.mpr rfl

theorem readBack_within {cache : ReadBack} :
    Within (InScope devs filters) (readBack index cache) (fun _ after => after = syncer)
      syncer := by
  rw [readBack]
  split
  · exact within_pure.mpr rfl
  · refine within_ask_bind (inScope_idle rfl rfl) fun answer => ?_
    cases answer <;> exact within_pure.mpr rfl

end Writes

/-- Everything about devices may have changed; what a process was told, the
driver's answer and the pass stamp did not. -/
def DeviceMarks (before after : Syncer) : Prop :=
  ∃ absentSince indices carriedPorts portsLoaded portsWritten unreadable carried,
    after = { before with
      absentSince, indices, carriedPorts, portsLoaded, portsWritten, unreadable, carried }

theorem DeviceMarks.refl (syncer : Syncer) : DeviceMarks syncer syncer :=
  ⟨_, _, _, _, _, _, _, rfl⟩

theorem DeviceMarks.trans {first second third : Syncer} (one : DeviceMarks first second)
    (two : DeviceMarks second third) : DeviceMarks first third := by
  obtain ⟨_, _, _, _, _, _, _, rfl⟩ := one
  obtain ⟨_, _, _, _, _, _, _, rfl⟩ := two
  exact ⟨_, _, _, _, _, _, _, rfl⟩

theorem NoteMarks.device {devs : Set Name} {before after : Syncer} (marks : NoteMarks devs before after) :
    DeviceMarks before after := by
  obtain ⟨_, _, _, rfl⟩ := marks
  exact ⟨_, _, _, _, _, _, _, rfl⟩

theorem PortMarks.device {before after : Syncer} (marks : PortMarks before after) :
    DeviceMarks before after := by
  obtain ⟨_, _, _, rfl⟩ := marks
  exact ⟨_, _, _, _, _, _, _, rfl⟩

theorem DeviceMarks.settings {before after : Syncer} (marks : DeviceMarks before after) :
    after.toSettings = before.toSettings := by
  obtain ⟨_, _, _, _, _, _, _, rfl⟩ := marks
  rfl

theorem DeviceMarks.bind {allowed : Call → Prop} {α β : Type} {first : Sync α} {rest : α → Sync β}
    {before : Syncer}
    (left : Within allowed first (fun _ after => DeviceMarks before after) before)
    (right : ∀ value middle,
      Within allowed (rest value) (fun _ after => DeviceMarks middle after) middle) :
    Within allowed (first >>= rest) (fun _ after => DeviceMarks before after) before :=
  left.bind fun value middle one => (right value middle).imp fun _ _ two => one.trans two

theorem DeviceMarks.followTo {syncer : Syncer} {dev newName : Name} :
    DeviceMarks syncer (syncer.followTo dev newName) := by
  have ports : DeviceMarks syncer (syncer.movePorts dev newName) := by
    unfold Syncer.movePorts
    split <;> exact ⟨_, _, _, _, _, _, _, rfl⟩
  have marks {syncer : Syncer} : DeviceMarks syncer (syncer.moveMarks dev newName) :=
    ⟨_, _, _, _, _, _, _, rfl⟩
  have carried {syncer : Syncer} : DeviceMarks syncer (syncer.moveCarried dev newName) := by
    unfold Syncer.moveCarried
    split <;> exact ⟨_, _, _, _, _, _, _, rfl⟩
  exact (ports.trans marks).trans carried

theorem DeviceMarks.forgetUplink {syncer : Syncer} {dev : Name} :
    DeviceMarks syncer (syncer.forgetUplink dev) := ⟨_, _, _, _, _, _, _, rfl⟩

theorem DeviceMarks.sawNote {syncer : Syncer} {dev : Name} {readable : Bool} :
    DeviceMarks syncer (syncer.sawNote dev readable) := ⟨_, _, _, _, _, _, _, rfl⟩

section Sweep

/-- The filter writes that only take out. -/
def removals : Set (Index × Bool) := {filter | filter.2 = false}

theorem mem_removals {index : Index} : (index, false) ∈ removals := rfl

variable {devs : Set Name} {filters : Set (Index × Bool)} {topo : Topology} {dev : Name}
  {syncer : Syncer}

theorem notedLink_within (member : dev ∈ devs) :
    Within (InScope devs filters) (notedLink dev topo)
      (fun found after => after = syncer ∧ ∀ link, found = some link → topo.get dev = some link)
      syncer := by
  rw [notedLink]
  cases located : topo.get dev with
  | none => exact within_pure.mpr ⟨rfl, by simp⟩
  | some link =>
      refine (recordedIndex_within member).bind ?_
      rintro recorded _ rfl
      split
      · split <;> exact within_pure.mpr ⟨rfl, by simp⟩
      · exact within_pure.mpr ⟨rfl, by simp⟩

theorem renamedTarget_within (member : dev ∈ devs) :
    Within (InScope devs filters) (renamedTarget dev topo) (fun _ after => after = syncer)
      syncer := by
  refine within_ask_bind (inScope_file rfl rfl rfl member) fun recorded => ?_
  split
  · exact within_pure.mpr rfl
  · split <;> exact within_pure.mpr rfl

theorem followRename_within {newName : Name} {index : Index} :
    Within (InScope Set.univ removals) (followRename dev newName index topo)
      (fun _ after => DeviceMarks syncer after) syncer := by
  refine DeviceMarks.bind ((loadPorts_within (Set.mem_univ _)).imp fun _ _ marks => marks.device)
    fun _ middle => ?_
  refine DeviceMarks.bind ((migrateNote_within (Set.mem_univ _) (Set.mem_univ _)
    mem_removals).imp fun _ _ marks => marks.device)
    fun moved middle => ?_
  cases moved with
  | true =>
      refine DeviceMarks.bind (within_modify .followTo) fun _ middle => within_get ?_
      refine Within.bind (savePorts_within (Set.mem_univ _)) ?_
      rintro _ _ ⟨_, rfl⟩
      exact ⟨_, _, _, _, _, _, _, rfl⟩
  | false => exact within_pure.mpr (.refl _)

/-- The filter of the interface a name finds may be cleared. -/
def Clears (topo : Topology) (dev : Name) (filters : Set (Index × Bool)) : Prop :=
  ∀ link, topo.get dev = some link → (link.index, false) ∈ filters

theorem takeOut_within (member : dev ∈ devs) (clears : Clears topo dev filters)
    {owned : Finset Mac} :
    Within (InScope devs filters) (takeOut dev topo owned) (fun _ after => after = syncer)
      syncer := by
  refine (notedLink_within member).bind ?_
  rintro found _ ⟨rfl, located⟩
  split
  · refine (unregisterAll_within (clears _ (located _ rfl))).bind ?_
    rintro kept _ rfl
    exact within_pure.mpr rfl
  · exact within_pure.mpr rfl

theorem sweepNote_within (member : dev ∈ devs) (clears : Clears topo dev filters) :
    Within (InScope devs filters) (sweepNote dev topo)
      (fun _ after => NoteMarks devs syncer after) syncer := by
  refine locked_within member ?_
  refine NoteMarks.bind (loadOwned_within member) fun owned middle => ?_
  split
  · refine NoteMarks.bind noteIsReadable_within fun readable middle => ?_
    split
    · exact NoteMarks.bind (removeNote_within member) fun _ middle => within_pure.mpr (.refl _)
    · exact within_pure.mpr (.refl _)
  · refine NoteMarks.bind ((takeOut_within member clears).imp ?_) fun kept middle => ?_
    · rintro _ _ rfl
      exact .refl _
    · refine NoteMarks.bind noteIsReadable_within fun readable middle => ?_
      split
      · exact NoteMarks.bind (removeNote_within member) fun _ middle => within_pure.mpr (.refl _)
      · exact NoteMarks.bind (writeOwned_within member) fun _ middle => within_pure.mpr (.refl _)

theorem sweepOrphan_within {act : Bool} :
    Within (InScope Set.univ removals) (sweepOrphan dev topo act)
      (fun _ after => DeviceMarks syncer after) syncer := by
  cases act with
  | true =>
      refine DeviceMarks.bind ((sweepNote_within (Set.mem_univ _) fun _ _ => mem_removals).imp fun _ _ marks => marks.device)
        fun noteGone middle => ?_
      cases noteGone with
      | true => exact DeviceMarks.forgetUplink.trans .sawNote
      | false => exact DeviceMarks.forgetUplink
  | false =>
      exact DeviceMarks.bind ((loadOwned_within (Set.mem_univ _)).imp fun _ _ marks => marks.device)
        fun _ middle => within_pure.mpr (.refl _)

theorem isUnidentified_within :
    Within (InScope Set.univ removals) (isUnidentified dev) (fun _ after => DeviceMarks syncer after)
      syncer := by
  refine within_ask_bind (inScope_file rfl rfl rfl (Set.mem_univ _)) fun recorded => ?_
  split
  · exact within_pure.mpr (.refl _)
  · exact DeviceMarks.bind ((loadOwned_within (Set.mem_univ _)).imp fun _ _ marks => marks.device)
      fun _ middle => within_pure.mpr (.refl _)

theorem dropOrphan_within {apply : Bool} :
    Within (InScope Set.univ removals) (dropOrphan topo apply dev)
      (fun _ after => DeviceMarks syncer after) syncer := by
  refine within_get ?_
  dsimp only
  refine (notedLink_within (Set.mem_univ _)).bind ?_
  rintro link _ ⟨rfl, -⟩
  split
  · exact sweepOrphan_within
  · refine DeviceMarks.bind isUnidentified_within fun unidentified middle => ?_
    split
    · exact within_pure.mpr (.refl _)
    · refine (renamedTarget_within (Set.mem_univ _)).bind ?_
      rintro target _ rfl
      split
      · split
        · exact DeviceMarks.bind followRename_within fun _ middle => within_pure.mpr (.refl _)
        · exact within_pure.mpr (.refl _)
      · exact sweepOrphan_within

theorem orphaned_within :
    Within (InScope devs filters) orphaned (fun _ after => DeviceMarks syncer after) syncer := by
  refine within_get ?_
  split
  · exact ⟨_, _, _, _, _, _, _, rfl⟩
  · refine within_ask_bind (inScope_idle rfl rfl) fun now => ?_
    refine notedDevicesOrNone_within.bind ?_
    rintro noted _ rfl
    exact ⟨_, _, _, _, _, _, _, rfl⟩

theorem dropOrphans_within {apply : Bool} :
    Within (InScope Set.univ removals) (dropOrphans topo apply)
      (fun _ after => DeviceMarks syncer after) syncer := by
  refine orphaned_within.bind fun devs middle marks => ?_
  refine within_forM marks fun dev _ memory reached => ?_
  exact dropOrphan_within.imp fun _ _ next => reached.trans next

end Sweep

end SriovMacSync
