import SriovMacSync.Memory.Sections

namespace SriovMacSync

open Data Netlink Interaction Interaction.Action

/-! # The memory file beside a note

The file follows the memory of the process, except where it cannot be written; and a
rewrite is spared only where the file already says the same. -/

variable {legible sure : Name → Prop} {shelf : Shelf} {syncer : Syncer} {dev : Name} {topo : Topology}

/-- Whatever would spare the next rewrite remembers all the file does. -/
def Syncer.Faithful (syncer : Syncer) (topo : Topology) (shelf : Shelf) (dev : Name) : Prop :=
  ∀ keys text, syncer.portsWritten dev = some keys → (shelf.drawer dev).ports = some text →
    ∀ ports passAt, keysOf topo ports passAt = keys →
      ∀ line ∈ believed topo (some text), line.mac ∈ ports

/-- An address has a line in the memory file that would be taken over. -/
def Shelf.Recalls (shelf : Shelf) (topo : Topology) (dev : Name) (mac : Mac) : Prop :=
  ∃ line ∈ believed topo (shelf.drawer dev).ports, line.mac = mac

/-- What a rewrite makes of a memory file: nothing to remember is no file. -/
def fileOf (topo : Topology) (ports : PortMap) : Option Text :=
  if linesOf topo ports = [] then none
  else some (joinLines (portsFormat :: linesOf topo ports))

theorem mem_believed_fileOf (plain : topo.Plain) {ports : PortMap} {line : PortsLine} :
    line ∈ believed topo (fileOf topo ports) ↔
      ports.lookup line.mac = some (line.index, line.seen) ∧
        topo.indexOf line.name = some line.index := by
  rw [fileOf]
  split
  · rename_i none
    constructor
    · simp [believed]
    · rintro ⟨found, bears⟩
      have listed : portsLine line.mac line.name line.index line.seen ∈ linesOf topo ports :=
        mem_linesOf.mpr ⟨_, _, _, _, found, Topology.nameOf_of_indexOf bears, rfl⟩
      rw [none] at listed
      cases listed
  · exact mem_believed_written plain

/-- Memories with one set of keys remember the same addresses behind ports that bear
their names. -/
theorem mem_of_keysOf_eq (plain : topo.Plain) {ports other : PortMap} {passAt passAt' : Nat}
    (same : keysOf topo other passAt' = keysOf topo ports passAt) {mac : Mac} {index : Index}
    {seen : Nat} {name : Name} (found : ports.lookup mac = some (index, seen))
    (named : topo.nameOf index = some name) : mac ∈ other := by
  have listed : portsKey mac name index (seen < passAt) ∈ keysOf topo ports passAt :=
    mem_keysOf.mpr ⟨mac, index, seen, name, found, named, rfl⟩
  rw [← same] at listed
  obtain ⟨mac', index', seen', name', found', named', agree⟩ := mem_keysOf.mp listed
  obtain ⟨rfl, -, -, -⟩ := portsKey_inj (plain.isField named) (plain.isField named') agree
  exact AList.lookup_isSome.mp (by rw [found']; rfl)

section Writing

theorem memoHolds_shelf {keys : List Text} {empty : Bool} :
    Safe (shelving legible sure) (memoHolds dev keys empty) (fun held after shelf' =>
      after = syncer ∧ shelf' = shelf ∧ (held = true → syncer.portsWritten dev = some keys ∧
        (shelf.drawer dev).ports.isSome = !empty)) syncer shelf := by
  refine safe_bind.mpr (safe_get.mpr ?_)
  split
  · rename_i memo
    refine safe_bind.mpr (safe_ask.mpr ⟨trivial, ?_⟩)
    rintro present _ ⟨rfl, rfl⟩
    refine ⟨rfl, rfl, fun held => ⟨memo, ?_⟩⟩
    cases empty <;> simpa using held
  · exact ⟨rfl, rfl, nofun⟩

theorem replacePorts_shelf {ports : PortMap} :
    Safe (shelving legible sure) (replacePorts dev (linesOf topo ports)) (fun wrote after shelf' =>
      after = syncer ∧ ∃ text, shelf' = shelf.setPorts dev text ∧
        text = (if (shelf.drawer dev).stuck then (shelf.drawer dev).ports else fileOf topo ports) ∧
        (wrote = true → text = fileOf topo ports) ∧ ((shelf.drawer dev).stuck = false → wrote = true)) syncer shelf := by
  have same : shelf = shelf.setPorts dev (shelf.drawer dev).ports := by
    simp [Shelf.setPorts, Shelf.setDrawer]
  unfold replacePorts
  split
  · rename_i empty
    have file : fileOf topo ports = none := if_pos (List.isEmpty_iff.mp empty)
    refine safe_bind.mpr (safe_ask.mpr ⟨trivial, fun removed shelf' answered => ?_⟩)
    replace answered : if _ then _ else _ := answered
    split at answered
    · rename_i stuck
      obtain ⟨rfl, rfl⟩ := answered
      refine safe_bind.mpr (safe_ask.mpr ⟨trivial, ?_⟩)
      rintro present _ ⟨rfl, rfl⟩
      refine ⟨rfl, _, same, (if_pos stuck).symm, fun wrote => ?_, fun loose => absurd stuck (by simp [loose])⟩
      rw [file]
      simpa using wrote
    · rename_i loose
      obtain ⟨rfl, rfl⟩ := answered
      split
      · exact ⟨rfl, none, rfl, file.symm, fun _ => file.symm, fun _ => rfl⟩
      · refine safe_bind.mpr (safe_ask.mpr ⟨trivial, ?_⟩)
        rintro present _ ⟨rfl, rfl⟩
        exact ⟨rfl, _, rfl, file.symm, fun _ => file.symm, fun _ => by simp⟩
  · rename_i some
    have file : fileOf topo ports = Option.some (joinLines (portsFormat :: linesOf topo ports)) :=
      if_neg (by simpa using some)
    refine safe_ask.mpr ⟨trivial, fun wrote shelf' answered => ?_⟩
    replace answered : if _ then _ else _ := answered
    split at answered
    · rename_i stuck
      obtain ⟨rfl, rfl⟩ := answered
      exact ⟨rfl, _, same, (if_pos stuck).symm, by simp, fun loose => absurd stuck (by simp [loose])⟩
    · rename_i loose
      obtain ⟨rfl, rfl⟩ := answered
      exact ⟨rfl, _, rfl, file.symm.trans (if_neg loose).symm, fun _ => file.symm, fun _ => rfl⟩

/-- The process has something to say about an uplink's memory file. -/
def Syncer.Minds (syncer : Syncer) (dev : Name) : Prop :=
  syncer.dryRun = false ∧ (dev ∈ syncer.portsLoaded ∨ (syncer.carriedPorts dev).isSome)

/-- What saving a memory makes of its file. -/
structure Saved (syncer : Syncer) (topo : Topology) (shelf : Shelf) (dev : Name) (after : Syncer)
    (text : Option Text) : Prop where
  faithful : syncer.Faithful topo shelf dev → after.Faithful topo (shelf.setPorts dev text) dev
  kept : ¬ syncer.Minds dev ∨ (shelf.drawer dev).stuck = true → text = (shelf.drawer dev).ports
  bounded : syncer.Minds dev → (shelf.drawer dev).stuck = false → syncer.Faithful topo shelf dev →
    ∀ line ∈ believed topo text, line.mac ∈ (syncer.carriedPorts dev).getD ∅
  fresh : syncer.Minds dev → (shelf.drawer dev).stuck = false → syncer.portsWritten dev = none →
    text = fileOf topo ((syncer.carriedPorts dev).getD ∅)

theorem savePorts_shelf (plain : topo.Plain) {passAt : Nat} :
    Safe (shelving legible sure) (savePorts dev topo passAt) (fun _ after shelf' =>
      ∃ written text held, after = syncer.setPortsWritten dev written ∧
        shelf' = (shelf.setPorts dev text).hold held ∧ (held = shelf.held ∨ held = none) ∧
        Saved syncer topo shelf dev after text) syncer shelf := by
  have same : shelf = shelf.setPorts dev (shelf.drawer dev).ports := by
    simp [Shelf.setPorts, Shelf.setDrawer]
  have idle : shelf = (shelf.setPorts dev (shelf.drawer dev).ports).hold shelf.held := by
    rw [← same]
    rfl
  have unchanged : syncer = syncer.setPortsWritten dev (syncer.portsWritten dev) := by
    simp [Syncer.setPortsWritten]
  refine safe_bind.mpr (safe_get.mpr ?_)
  split
  · rename_i silent
    have mute : ¬ syncer.Minds dev := by
      rintro ⟨acts, knows⟩
      rcases silent with dry | ⟨unread, none⟩
      · rw [acts] at dry
        cases dry
      · rcases knows with loaded | some
        · exact unread loaded
        · rw [none] at some
          cases some
    refine ⟨_, _, _, unchanged, idle, .inl rfl, fun faithful => ?_, fun _ => rfl,
      fun minds => absurd minds mute, fun minds => absurd minds mute⟩
    rw [← same]
    exact faithful
  · rename_i speaks
    set ports := (syncer.carriedPorts dev).getD ∅ with ports_def
    have covers (text : Option Text) (wrote : text = fileOf topo ports) :
        ∀ line ∈ believed topo text, line.mac ∈ ports := by
      intro line listed
      rw [wrote] at listed
      exact AList.lookup_isSome.mp (by rw [((mem_believed_fileOf plain).mp listed).1]; rfl)
    refine safe_bind.mpr (locked_shelf (safe_bind.mpr (memoHolds_shelf.mono ?_)))
    rintro held syncer _ ⟨rfl, rfl, sparing⟩
    split
    · -- the memo spares the write
      rename_i spared
      obtain ⟨memo, shape⟩ := sparing spared
      refine ⟨_, _, none, unchanged, ?_, .inr rfl, fun faithful => ?_, fun _ => rfl,
        fun _ _ faithful => ?_, fun _ _ unwritten => ?_⟩
      · rw [← same]
        rfl
      · rw [← same]
        exact faithful
      · cases file : (shelf.drawer dev).ports with
        | none => simp [believed]
        | some text => exact faithful _ text memo file ports passAt rfl
      · rw [unwritten] at memo
        cases memo
    · refine safe_bind.mpr (replacePorts_shelf.mono ?_)
      rintro wrote syncer _ ⟨rfl, text, rfl, outcome, written, -⟩
      refine safe_pure.mpr (safe_modify.mpr ?_)
      refine ⟨if wrote then some (keysOf topo ports passAt) else none, text, none, rfl, rfl, .inr rfl, ?_⟩
      · replace outcome : text = if (shelf.drawer dev).stuck then (shelf.drawer dev).ports
            else fileOf topo ports := outcome
        have settled (loose : (shelf.drawer dev).stuck = false) : text = fileOf topo ports := by
          rw [outcome, loose]
          rfl
        refine ⟨fun _ => ?_, fun held => ?_, fun _ loose _ => covers text (settled loose),
          fun _ loose _ => settled loose⟩
        · intro keys file memo found other passAt' agree line listed
          simp only [Syncer.setPortsWritten, Function.update_self] at memo
          cases wrote with
          | false => cases memo
          | true =>
              obtain rfl := Option.some.inj memo
              simp only [Shelf.drawer_setPorts] at found
              rw [← found, written rfl] at listed
              obtain ⟨remembered, bears⟩ := (mem_believed_fileOf plain).mp listed
              exact mem_of_keysOf_eq plain agree remembered (Topology.nameOf_of_indexOf bears)
        · rcases held with mute | stuck
          · simp only [not_or, not_and, Bool.not_eq_true] at speaks
            refine absurd ⟨speaks.1, ?_⟩ mute
            by_cases loaded : dev ∈ syncer.portsLoaded
            · exact .inl loaded
            · exact .inr (Option.isSome_iff_ne_none.mpr (speaks.2 loaded))
          · rw [outcome, if_pos stuck]

end Writing

end SriovMacSync
