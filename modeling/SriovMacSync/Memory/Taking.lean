import SriovMacSync.Memory.Forgetting

namespace SriovMacSync

open Data Netlink Interaction Interaction.Action

/-! # Taking a memory over

A process that has not looked at an uplink's memory file yet reads it once, and what it
takes over is what the believed lines of the file say. -/

variable {legible sure : Name → Prop} {shelf : Shelf} {syncer : Syncer} {dev : Name} {topo : Topology}

section TakeOver

variable {read : List PortsLine} {ports : PortMap} {mac : Mac} {now ahead : Nat}

theorem mem_foldl_insert : mac ∈ read.foldl (fun ports line =>
    ports.insert line.mac (line.index, line.seen - ahead)) ports ↔
      (∃ line ∈ read, line.mac = mac) ∨ mac ∈ ports := by
  induction read generalizing ports with
  | nil => simp
  | cons line rest ih =>
      rw [List.foldl_cons, ih, AList.mem_insert]
      simp only [List.mem_cons, exists_eq_or_imp]
      constructor
      · intro known
        rcases known with later | same | before
        · exact .inl (.inr later)
        · exact .inl (.inl same.symm)
        · exact .inr before
      · intro known
        rcases known with (same | later) | before
        · exact .inr (.inl same.symm)
        · exact .inl later
        · exact .inr (.inr before)

theorem lookup_foldl_insert {spot : Index × Nat} (found : (read.foldl (fun ports line =>
    ports.insert line.mac (line.index, line.seen - ahead)) ports).lookup mac = some spot) :
    (∃ line ∈ read, line.mac = mac ∧ spot = (line.index, line.seen - ahead)) ∨ ports.lookup mac = some spot := by
  induction read generalizing ports with
  | nil => exact .inr found
  | cons line rest ih =>
      rcases ih found with ⟨later, listed, agrees⟩ | known
      · exact .inl ⟨later, List.mem_cons_of_mem _ listed, agrees⟩
      · by_cases same : mac = line.mac
        · subst same
          rw [AList.lookup_insert] at known
          exact .inl ⟨line, List.mem_cons_self, rfl, (Option.some.inj known).symm⟩
        · rw [AList.lookup_insert_ne same] at known
          exact .inr known

/-- Taken over is whatever a line is about. -/
theorem mem_takeOver : mac ∈ takeOver read now ↔ ∃ line ∈ read, line.mac = mac := by
  rw [takeOver, mem_foldl_insert]
  simp [AList.notMem_empty]

/-- What is taken over of an address is what one of its lines says, put back with the rest. -/
theorem lookup_takeOver {spot : Index × Nat} (found : (takeOver read now).lookup mac = some spot) :
    ∃ line ∈ read, line.mac = mac ∧
      spot = (line.index, line.seen - ((read.map (·.seen)).foldl max 0 - now)) := by
  rcases lookup_foldl_insert found with taken | none
  · exact taken
  · cases none

end TakeOver

/-- The memory a process has of an uplink once it has read what there is to read. -/
def Syncer.brings (syncer : Syncer) (topo : Topology) (shelf : Shelf) (dev : Name) : Option PortMap :=
  match syncer.carriedPorts dev with
  | some ports => some ports
  | none =>
      if dev ∈ syncer.portsLoaded then none
      else
        let ports := takeOver (believed topo (shelf.drawer dev).ports) shelf.clock
        if ports.entries = [] then none else some ports

/-- What reading an uplink's memory file makes of a process. -/
structure Takes (syncer : Syncer) (topo : Topology) (shelf : Shelf) (dev : Name) (after : Syncer) (shelf' : Shelf) :
    Prop where
  later : ∃ clock ≥ shelf.clock, shelf' = { shelf with clock }
  marks : PortMarks syncer after
  others : ∀ other ≠ dev, Syncer.Beside other syncer after
  loaded : dev ∈ after.portsLoaded
  ports : after.carriedPorts dev = syncer.brings topo shelf dev
  faithful : syncer.Faithful topo shelf dev → after.Faithful topo shelf' dev

/-- What a memory taken over is held against is no less than its file says. -/
theorem faithful_takeOver (plain : topo.Plain) {now passAt : Nat}
    (memo : syncer.portsWritten dev =
      some (keysOf topo (takeOver (believed topo (shelf.drawer dev).ports) now) passAt)) :
    syncer.Faithful topo shelf dev := by
  intro keys text written file ports passAt' agree line listed
  rw [memo] at written
  obtain rfl := Option.some.inj written
  rw [file] at agree
  have taken : line.mac ∈ takeOver (believed topo (some text)) now := mem_takeOver.mpr ⟨line, listed, rfl⟩
  obtain ⟨spot, found⟩ := Option.isSome_iff_exists.mp (AList.lookup_isSome.mpr taken)
  obtain ⟨origin, believes, _, place⟩ := lookup_takeOver found
  subst place
  have bears : topo.indexOf origin.name = some origin.index :=
    of_decide_eq_true (List.mem_filter.mp believes).2
  exact mem_of_keysOf_eq plain agree found (Topology.nameOf_of_indexOf bears)

theorem loadPorts_shelf (plain : topo.Plain) :
    Safe (shelving legible sure) (loadPorts dev topo)
      (fun _ after shelf' => Takes syncer topo shelf dev after shelf') syncer shelf := by
  apply safe_bind.mpr (safe_get.mpr ?_)
  split
  · rename_i read
    refine ⟨⟨shelf.clock, Nat.le_refl _, rfl⟩, .refl _, fun other _ => .refl _, read, ?_, id⟩
    rw [Syncer.brings]
    split
    · assumption
    · rw [if_pos read]
      assumption
  · rename_i unread
    have aside {other : Name} (apart : other ≠ dev) :
        Syncer.Beside other syncer { syncer with portsLoaded := insert dev syncer.portsLoaded } :=
      ⟨rfl, rfl, by simp [apart], rfl⟩
    apply safe_bind.mpr (safe_modify.mpr ?_)
    split
    · rename_i carried
      obtain ⟨ports, known⟩ := Option.isSome_iff_exists.mp carried
      refine ⟨⟨shelf.clock, Nat.le_refl _, rfl⟩, ⟨_, _, _, rfl⟩, fun other apart => aside apart,
        Finset.mem_insert_self _ _, ?_, fun faithful => faithful.of_same rfl rfl⟩
      rw [Syncer.brings, known]
    · rename_i uncarried
      have none : syncer.carriedPorts dev = none := by simpa using uncarried
      apply safe_bind.mpr (safe_ask.mpr ⟨trivial, ?_⟩)
      intro now shelf₁ ⟨current, later, after, ticked⟩
      subst current ticked
      apply safe_bind.mpr (safe_bind.mpr (safe_ask.mpr ⟨trivial, ?_⟩))
      intro text shelf₁ ⟨same, told⟩
      subst same told
      apply safe_pure.mpr
      dsimp only
      rw [← believed]
      split
      · rename_i some
        refine ⟨⟨later, after, rfl⟩, ⟨_, _, _, rfl⟩, fun other apart => ?_, Finset.mem_insert_self _ _, ?_,
          fun _ => faithful_takeOver plain (by simp [Syncer.setPortsWritten]; rfl)⟩
        · exact ((aside apart).trans (.setPorts apart)).trans (.setPortsWritten apart)
        · rw [Syncer.brings, none]
          dsimp only
          rw [if_neg unread, if_neg some]
          simp [Syncer.setPorts, Syncer.setPortsWritten]
      · rename_i empty
        refine ⟨⟨later, after, rfl⟩, ⟨_, _, _, rfl⟩, fun other apart => aside apart, Finset.mem_insert_self _ _, ?_,
          fun faithful => faithful.of_same rfl rfl⟩
        rw [Syncer.brings, none]
        dsimp only
        rw [if_neg unread, if_pos (by simpa using empty)]

end SriovMacSync
