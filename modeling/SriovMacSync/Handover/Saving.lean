import SriovMacSync.Handover.Backing

namespace SriovMacSync

open Data Netlink Interaction Interaction.Action

/-! # Writing and taking over

A memory that is saved is in its file, or the write was spared because the file matches it
but for the stamps. -/

variable {legible sure : Name → Prop} {shelf : Shelf} {syncer : Syncer} {dev : Name} {topo topo' : Topology}
  {passAt passed : Nat} {macs : Set Mac} {reported : Prop}

/-- Work on other files leaves an uplink's file and memory. -/
theorem rests_elsewhere {α : Type} {action : Sync α} {devs : Set Name} {filters : Set (Index × Bool)}
    (within : Within (InScope devs filters) action (fun _ after => Syncer.Beside dev syncer after) syncer)
    (outside : dev ∉ devs) (away : shelf.Away dev) :
    Safe (shelving legible sure) action (fun _ after shelf' => Rests macs dev syncer shelf after shelf')
      syncer shelf := by
  have kept : Safe (shelving legible sure) action (fun _ after shelf' => Syncer.Beside dev syncer after ∧
      shelf'.drawer dev = shelf.drawer dev ∧ shelf'.Away dev) syncer shelf := by
    apply within.frame _ ⟨rfl, away⟩
    intro middle request ⟨drawer, free⟩ scope
    refine ⟨trivial, fun reply after answered => ?_⟩
    obtain ⟨same, free', _⟩ := drawer_of_elsewhere scope outside free answered
    exact ⟨same.trans drawer, free'⟩
  exact kept.mono fun _ _ _ ⟨beside, drawer, free⟩ => .of_beside beside drawer fun _ => free

/-- The write was spared: there is nothing to say yet, or the file is held to say it. -/
def Spared (topo : Topology) (passed : Nat) (dev : Name) (syncer : Syncer) (shelf : Shelf) : Prop :=
  syncer.Unread dev ∨ syncer.portsWritten dev = some (keysOf topo (syncer.portsOf dev) passed) ∧
    ((linesOf topo (syncer.portsOf dev)) ≠ [] → (shelf.drawer dev).ports.isSome)

theorem savePorts_writes (ready : Ready dev syncer shelf) :
    Safe (shelving legible sure) (savePorts dev topo passed) (fun _ after shelf' => shelf'.Away dev ∧
      (Spared topo passed dev syncer shelf ∧ after = syncer ∧ shelf'.drawer dev = shelf.drawer dev ∨
        ¬ syncer.Unread dev ∧ after = syncer.setPortsWritten dev (some (keysOf topo (syncer.portsOf dev) passed)) ∧
          shelf'.drawer dev = { shelf.drawer dev with ports := fileOf topo (syncer.portsOf dev) })) syncer shelf := by
  apply safe_bind.mpr (safe_get.mpr ?_)
  split
  · rename_i silent
    rw [ready.acts] at silent
    exact ⟨ready.away, .inl ⟨.inl (silent.resolve_left (by simp)), rfl, rfl⟩⟩
  · rename_i speaks
    have heard : ¬ syncer.Unread dev := fun never => speaks (.inr never)
    dsimp only
    rw [← Syncer.portsOf]
    apply safe_bind.mpr (locked_shelf (safe_bind.mpr (memoHolds_shelf.mono ?_)))
    intro held after _ facts
    obtain ⟨same, same', sparing⟩ := facts
    subst same same'
    split
    · rename_i spared
      obtain ⟨memo, shape⟩ := sparing spared
      refine ⟨fun _ => (Option.some_ne_none _).symm, .inl ⟨.inr ⟨memo, fun some => ?_⟩, rfl, rfl⟩⟩
      have filled : (linesOf topo (after.portsOf dev)).isEmpty = false := by simpa using some
      rw [filled] at shape
      exact shape
    · apply safe_bind.mpr
      apply replacePorts_shelf.mono
      intro wrote after' _ facts
      obtain ⟨same, text, left, outcome, _, wrote'⟩ := facts
      subst same left
      have done := wrote' ready.loose
      subst done
      refine safe_pure.mpr (safe_modify.mpr ⟨fun _ => (Option.some_ne_none _).symm, .inr ⟨heard, rfl, ?_⟩⟩)
      have settled : text = fileOf topo (after'.portsOf dev) := by
        rw [outcome, if_neg]
        exact Bool.eq_false_iff.mp ready.loose
      simp [settled]

/-- Once the file is written, it matches the memory. -/
theorem Advances.of_written {after : Syncer} {shelf' : Shelf} {reported' : Prop} (plain : topo.Plain)
    (ready : Ready dev after shelf') (heard : ¬ after.Unread dev)
    (memo : after.portsWritten dev = some (keysOf topo (after.portsOf dev) passed))
    (file : (shelf'.drawer dev).ports = fileOf topo (after.portsOf dev)) :
    Advances reported reported' topo passAt dev syncer shelf after shelf' where
  ready := ready
  offered := .inl (if_neg heard)
  standing _ _ _ := .inr ((Standing.of_written plain memo file).mono (Set.Subset.refl _) (.inl rfl))

theorem savePorts_advances (plain : topo.Plain) (ready : Ready dev syncer shelf) :
    Safe (shelving legible sure) (savePorts dev topo passed) (fun _ after shelf' =>
      Advances reported reported topo passAt dev syncer shelf after shelf') syncer shelf := by
  apply (savePorts_writes ready).mono
  intro _ after shelf' ⟨free, outcome⟩
  rcases outcome with ⟨_, same, drawer⟩ | ⟨heard, wrote, drawer⟩
  · subst same
    exact .of_rests (.of_beside (.refl _) drawer fun _ => free) ready
  · subst wrote
    have ready' : Ready dev (syncer.setPortsWritten dev (some (keysOf topo (syncer.portsOf dev) passed))) shelf' :=
      ⟨ready.acts, by rw [drawer]; exact ready.loose, free, fun never => absurd never heard⟩
    exact .of_written plain ready' heard (by simp [Syncer.setPortsWritten]; rfl) (by rw [drawer]; rfl)

theorem savePorts_reworks (plain : topo.Plain) (ready : Ready dev syncer shelf) :
    Safe (shelving legible sure) (savePorts dev topo passed) (fun _ after shelf' =>
      Reworks macs {none} dev syncer shelf after shelf') syncer shelf := by
  apply (savePorts_writes ready).mono
  intro _ after shelf' ⟨free, outcome⟩
  rcases outcome with ⟨_, same, drawer⟩ | ⟨heard, wrote, drawer⟩
  · subst same
    exact .of_rests (.of_beside (.refl _) drawer fun _ => free) ready
  · subst wrote
    have file : (shelf'.drawer dev).ports = fileOf topo (syncer.portsOf dev) := by rw [drawer]
    have stands : Standing False topo 0 ∅ none dev
        (syncer.setPortsWritten dev (some (keysOf topo (syncer.portsOf dev) passed))) shelf' :=
      .of_written plain (by simp [Syncer.setPortsWritten]; rfl) file
    refine ⟨⟨ready.acts, by rw [drawer]; exact ready.loose, free, fun never => absurd never heard⟩, ?_⟩
    exact fun _ _ _ _ => .inr ⟨none, rfl, stands.backed.mono (Set.empty_subset _) (.inl rfl)⟩

/-- What taking over leaves of an uplink. -/
theorem loadPorts_advances (plain : topo.Plain) (ready : Ready dev syncer shelf) :
    Safe (shelving legible sure) (loadPorts dev topo) (fun _ after shelf' =>
      Advances reported reported topo passAt dev syncer shelf after shelf') syncer shelf := by
  apply safe_bind.mpr (safe_get.mpr ?_)
  split
  · exact .refl ready
  · rename_i unloaded
    have marked {clock : Nat} : Rests ∅ dev syncer shelf
        { syncer with portsLoaded := insert dev syncer.portsLoaded } { shelf with clock } :=
      ⟨rfl, fun unread => absurd (Finset.mem_insert_self _ _) unread.1, ⟨rfl, rfl⟩, .refl, rfl, id⟩
    apply safe_bind.mpr (safe_modify.mpr ?_)
    split
    · exact .of_rests marked ready
    · rename_i uncarried
      have never : syncer.Unread dev := ⟨unloaded, by simpa using uncarried⟩
      apply safe_bind.mpr (safe_ask.mpr ⟨trivial, ?_⟩)
      intro now shelf₁ facts
      obtain ⟨current, clock, _, ticked⟩ := facts
      subst current ticked
      apply safe_bind.mpr (safe_bind.mpr (safe_ask.mpr ⟨trivial, ?_⟩))
      intro text shelf₁ facts
      obtain ⟨same, told⟩ := facts
      subst same told
      apply safe_pure.mpr
      dsimp only
      rw [← believed]
      split
      · set taken := takeOver (believed topo (shelf.drawer dev).ports) shelf.clock with taken_def
        set after := (Syncer.setPorts { syncer with portsLoaded := insert dev syncer.portsLoaded } dev
          (some taken)).setPortsWritten dev (some (keysOf topo taken (newestSeen taken)))
        have heard : ¬ after.Unread dev := fun unread => unread.1 (Finset.mem_insert_self _ _)
        have carried : after.portsOf dev = taken := by
          simp [after, Syncer.portsOf, Syncer.setPorts, Syncer.setPortsWritten]
        have memo : after.portsWritten dev = some (keysOf topo taken (newestSeen taken)) := by
          simp [after, Syncer.setPortsWritten]
        refine ⟨⟨ready.acts, ready.loose, ready.away, fun never => absurd never heard⟩, .inl (if_neg heard), ?_⟩
        intro stirred origin stands
        refine .inr (.of_backed (fun keys written file => ?_) fun reported => ?_)
        · rw [memo] at written
          obtain rfl := Option.some.inj written
          obtain ⟨ahead, bound, agrees⟩ := Matches.taken file
          rw [carried, Syncer.offered, if_pos never]
          exact ⟨topo, taken, newestSeen taken, ahead, bound, plain, rfl, agrees⟩
        · have written := stands.written reported
          rw [ready.read never] at written
          cases written
      · exact .of_rests marked ready

end SriovMacSync
