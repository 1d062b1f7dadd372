import SriovMacSync.Memory.Aside

namespace SriovMacSync

open Data Netlink Interaction Interaction.Action

/-! # An address that is to be remembered nowhere

Out of the process's memory of the quiet, out of the pool a batch may surrender from and
out of the memory file: what a reflection makes of an address, and what the rest of a
batch leaves so. -/

variable {legible sure : Name → Prop} {shelf : Shelf} {syncer : Syncer} {dev : Name} {index : Index}
  {topo : Topology} {mac : Mac}

/-- A stretch of an uplink's turn that is none of an address' business. -/
structure Shelf.Spares (dev : Name) (index : Index) (mac : Mac) (before after : Shelf) : Prop where
  note : mac ∈ (after.drawer dev).note ↔ mac ∈ (before.drawer dev).note
  list : mac ∈ after.lists index ↔ mac ∈ before.lists index
  stuck : (after.drawer dev).stuck = (before.drawer dev).stuck
  deeds : ∃ new, (after.drawer dev).deeds = new ++ (before.drawer dev).deeds ∧
    ∀ deed ∈ new, deed.mac ≠ mac
  away : before.Away dev → after.Away dev

namespace Shelf.Spares

theorem refl (shelf : Shelf) : Shelf.Spares dev index mac shelf shelf :=
  ⟨Iff.rfl, Iff.rfl, rfl, ⟨[], rfl, by simp⟩, id⟩

theorem trans {first second third : Shelf} (one : Shelf.Spares dev index mac first second)
    (two : Shelf.Spares dev index mac second third) : Shelf.Spares dev index mac first third := by
  obtain ⟨new, noted, apart⟩ := one.deeds
  obtain ⟨more, noted', apart'⟩ := two.deeds
  refine ⟨two.note.trans one.note, two.list.trans one.list, two.stuck.trans one.stuck,
    ⟨more ++ new, by rw [noted', noted, List.append_assoc], ?_⟩, fun away => two.away (one.away away)⟩
  intro deed listed
  rcases List.mem_append.mp listed with listed | listed
  · exact apart' deed listed
  · exact apart deed listed

theorem of_beside {after : Shelf} (beside : Shelf.Beside dev index shelf after) :
    Shelf.Spares dev index mac shelf after :=
  ⟨by rw [beside.drawer], by rw [beside.list], by rw [beside.drawer], ⟨[], by rw [beside.drawer]; rfl, by simp⟩,
    fun _ => beside.away⟩

theorem of_writing {work : Section} {answers : List (Mac × Except Errno Unit)} {held : Option (Name × Section)}
    {middle : Shelf} {note : Finset Mac} (writes : Writing dev work index false answers (shelf.hold held) middle)
    (unasked : mac ∉ answers.map (·.1)) (same : mac ∈ note ↔ mac ∈ (shelf.drawer dev).note) :
    Shelf.Spares dev index mac shelf ((middle.setNote dev note).hold none) := by
  refine ⟨by simpa using same, writes.unasked mac unasked, by simp [writes.drawer],
    ⟨(answers.map fun answer => (⟨work, index, answer.1, false, answer.2⟩ : Deed)).reverse,
      by simp [writes.drawer], ?_⟩, fun _ => nofun⟩
  intro deed listed
  obtain ⟨answer, given, rfl⟩ := List.mem_map.mp (List.mem_reverse.mp listed)
  exact fun same => unasked (same ▸ List.mem_map_of_mem given)

theorem of_enters {macs : List Mac} {after : Shelf} (enters : Enters dev index macs shelf after)
    (unasked : mac ∉ macs) : Shelf.Spares dev index mac shelf after := by
  obtain ⟨new, noted, asked⟩ := enters.deeds
  refine ⟨enters.note mac unasked, enters.list mac unasked, enters.files.2, ⟨new, noted, ?_⟩, ?_⟩
  · intro deed listed same
    exact unasked (same ▸ (asked deed listed).2.2.2)
  · intro _ work
    rw [enters.free]
    exact nofun

theorem setPorts {text : Option Text} {held : Option (Name × Section)}
    (idle : held = shelf.held ∨ held = none) :
    Shelf.Spares dev index mac shelf ((shelf.setPorts dev text).hold held) := by
  refine ⟨by simp, Iff.rfl, by simp, ⟨[], by simp, by simp⟩, fun away work => ?_⟩
  rcases idle with rfl | rfl
  · exact away work
  · exact nofun

end Shelf.Spares

/-- An address a process remembers nothing of, the memory file apart. -/
structure Evicted (topo : Topology) (dev : Name) (mac : Mac) (syncer : Syncer) (shelf : Shelf) :
    Prop where
  acts : syncer.dryRun = false
  loaded : dev ∈ syncer.portsLoaded
  unmapped : mac ∉ (syncer.carriedPorts dev).getD ∅
  unkept : ∀ carried, syncer.carried dev = some carried → mac ∉ carried.quiet
  faithful : syncer.Faithful topo shelf dev

/-- An address remembered nowhere, unless the memory file cannot be written. -/
structure Forgotten (topo : Topology) (dev : Name) (mac : Mac) (syncer : Syncer) (shelf : Shelf) : Prop
    extends Evicted topo dev mac syncer shelf where
  unfiled : (shelf.drawer dev).stuck = false → ¬ shelf.Recalls topo dev mac

theorem Syncer.Faithful.of_same {after : Syncer} {shelf' : Shelf} (faithful : syncer.Faithful topo shelf dev)
    (written : after.portsWritten dev = syncer.portsWritten dev)
    (ports : (shelf'.drawer dev).ports = (shelf.drawer dev).ports) : after.Faithful topo shelf' dev := by
  intro keys text memo file
  exact faithful keys text (written ▸ memo) (ports ▸ file)

theorem Evicted.move {after : Syncer} {shelf' : Shelf} (evicted : Evicted topo dev mac syncer shelf)
    (beside : Syncer.Beside dev syncer after) (ports : (shelf'.drawer dev).ports = (shelf.drawer dev).ports) :
    Evicted topo dev mac after shelf' where
  acts := (congrArg Settings.dryRun beside.settings).trans evicted.acts
  loaded := beside.loaded.mpr evicted.loaded
  unmapped := by rw [beside.carriedPorts]; exact evicted.unmapped
  unkept carried known := evicted.unkept carried (beside.carried ▸ known)
  faithful := evicted.faithful.of_same beside.written ports

theorem Forgotten.move {after : Syncer} {shelf' : Shelf} (forgotten : Forgotten topo dev mac syncer shelf)
    (beside : Syncer.Beside dev syncer after) (ports : (shelf'.drawer dev).ports = (shelf.drawer dev).ports)
    (stuck : (shelf'.drawer dev).stuck = (shelf.drawer dev).stuck) : Forgotten topo dev mac after shelf' where
  toEvicted := forgotten.toEvicted.move beside ports
  unfiled loose := by
    rw [Shelf.Recalls, ports]
    exact forgotten.unfiled (stuck ▸ loose)

/-- What is kept about an uplink may change as long as nothing new is kept quiet. -/
theorem Evicted.setCarried {carried : Carried} (evicted : Evicted topo dev mac syncer shelf)
    (fewer : carried.quiet ⊆ ((syncer.carried dev).getD {}).quiet) :
    Evicted topo dev mac (syncer.setCarried dev (some carried)) shelf where
  acts := evicted.acts
  loaded := evicted.loaded
  unmapped := evicted.unmapped
  unkept kept known := by
    have same : some carried = some kept := by simpa [Syncer.setCarried] using known
    obtain rfl := Option.some.inj same
    intro listed
    have before := fewer listed
    cases found : syncer.carried dev with
    | none => simp [found] at before
    | some old =>
        rw [found] at before
        exact evicted.unkept old found before
  faithful := evicted.faithful

theorem Forgotten.setCarried {carried : Carried} (forgotten : Forgotten topo dev mac syncer shelf)
    (fewer : carried.quiet ⊆ ((syncer.carried dev).getD {}).quiet) :
    Forgotten topo dev mac (syncer.setCarried dev (some carried)) shelf :=
  ⟨forgotten.toEvicted.setCarried fewer, forgotten.unfiled⟩

theorem Evicted.noLongerKept {macs : List Mac} (evicted : Evicted topo dev mac syncer shelf) :
    Evicted topo dev mac (syncer.noLongerKept dev macs) shelf := by
  unfold Syncer.noLongerKept
  split
  · rename_i carried known
    apply evicted.setCarried
    simp [known]
  · exact evicted

theorem Forgotten.noLongerKept {macs : List Mac} (forgotten : Forgotten topo dev mac syncer shelf) :
    Forgotten topo dev mac (syncer.noLongerKept dev macs) shelf :=
  ⟨forgotten.toEvicted.noLongerKept, forgotten.unfiled⟩

theorem Evicted.freeSlots {count : Nat} (evicted : Evicted topo dev mac syncer shelf) :
    Evicted topo dev mac (syncer.freeSlots dev count) shelf := by
  unfold Syncer.freeSlots
  split
  · rename_i carried known
    apply evicted.setCarried
    simp [known]
  · exact evicted

theorem Evicted.setPorts {ports : PortMap} (evicted : Evicted topo dev mac syncer shelf)
    (unmapped : mac ∉ ports) : Evicted topo dev mac (syncer.setPorts dev (some ports)) shelf where
  acts := evicted.acts
  loaded := evicted.loaded
  unmapped := by simpa [Syncer.setPorts] using unmapped
  unkept := evicted.unkept
  faithful := evicted.faithful

theorem mem_retain {keep : Mac → Bool} {ports : PortMap} : mac ∈ retain keep ports ↔ keep mac ∧ mac ∈ ports := by
  rw [← AList.lookup_isSome, lookup_retain, ← AList.lookup_isSome]
  split <;> simp [*]

theorem Evicted.dropPorts {macs : List Mac} (evicted : Evicted topo dev mac syncer shelf) :
    Evicted topo dev mac (syncer.dropPorts dev macs) shelf := by
  unfold Syncer.dropPorts
  split
  · rename_i ports known
    apply evicted.setPorts
    rw [mem_retain]
    intro listed
    exact evicted.unmapped (by rw [known]; exact listed.2)
  · exact evicted

theorem Evicted.saved {written : Option (List Text)} {text : Option Text} {held : Option (Name × Section)}
    (evicted : Evicted topo dev mac syncer shelf)
    (saved : Saved syncer topo shelf dev (syncer.setPortsWritten dev written) text) :
    Forgotten topo dev mac (syncer.setPortsWritten dev written) ((shelf.setPorts dev text).hold held) where
  acts := evicted.acts
  loaded := evicted.loaded
  unmapped := evicted.unmapped
  unkept := evicted.unkept
  faithful := saved.faithful evicted.faithful
  unfiled loose := by
    intro ⟨line, listed, same⟩
    have loose' : (shelf.drawer dev).stuck = false := by simpa using loose
    have listed' : line ∈ believed topo text := by simpa using listed
    have minds : syncer.Minds dev := ⟨evicted.acts, .inl evicted.loaded⟩
    exact evicted.unmapped (same ▸ saved.bounded minds loose' evicted.faithful line listed')

/-- A memory saved without an address leaves its file without it. -/
theorem savePorts_forgets (plain : topo.Plain) (index : Index)
    (evicted : Evicted topo dev mac syncer shelf) {passAt : Nat} :
    Safe (shelving legible sure) (savePorts dev topo passAt) (fun _ after shelf' =>
      Forgotten topo dev mac after shelf' ∧ Shelf.Spares dev index mac shelf shelf') syncer shelf := by
  apply (savePorts_shelf plain).mono
  intro _ after shelf' ⟨written, text, held, wrote, left, idle, saved⟩
  subst wrote left
  exact ⟨evicted.saved saved, .setPorts idle⟩

end SriovMacSync
