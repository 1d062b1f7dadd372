import SriovMacSync.Handover.Matching
import SriovMacSync.Memory.Aside

namespace SriovMacSync

open Data Netlink Interaction Interaction.Action

/-! # What a process may believe of a memory file

The process compares keys with what it last put into the file.  Either it still has put
nothing there, or the file matches the rows those keys were made from. -/

variable {legible sure : Name → Prop} {shelf shelf' : Shelf} {syncer after : Syncer} {dev : Name} {topo : Topology}
  {passAt : Nat} {stirred stirred' macs : Set Mac} {origin origin' : Option Text} {reported reported' : Prop}

/-- The memory of an uplink, empty where nothing is carried. -/
def Syncer.portsOf (syncer : Syncer) (dev : Name) : PortMap := (syncer.carriedPorts dev).getD ∅

/-- Nobody has looked at an uplink's memory file yet. -/
def Syncer.Unread (syncer : Syncer) (dev : Name) : Prop :=
  dev ∉ syncer.portsLoaded ∧ syncer.carriedPorts dev = none

instance : Decidable (syncer.Unread dev) := inferInstanceAs (Decidable (_ ∧ _))

/-- What an uplink's file offers to a process that has not looked at it yet. -/
def Syncer.offered (syncer : Syncer) (shelf : Shelf) (dev : Name) : Option Text :=
  if syncer.Unread dev then (shelf.drawer dev).ports else none

/-- A process that writes memory, and nothing in its way at an uplink's. -/
structure Ready (dev : Name) (syncer : Syncer) (shelf : Shelf) : Prop where
  acts : syncer.dryRun = false
  loose : (shelf.drawer dev).stuck = false
  away : shelf.Away dev
  read : syncer.Unread dev → syncer.portsWritten dev = none

/-- The file matches the rows that what is held against it was made from. -/
def Backed (stirred : Set Mac) (origin : Option Text) (dev : Name) (syncer : Syncer) (shelf : Shelf) : Prop :=
  ∀ keys, syncer.portsWritten dev = some keys → (shelf.drawer dev).ports.isSome →
    ∃ topo rows passAt ahead bound, topo.Plain ∧ keysOf topo rows passAt = keys ∧
      Matches topo rows passAt ahead bound stirred origin (shelf.drawer dev).ports (syncer.portsOf dev)

/-- What stands of an uplink's file; once a pass has gone over the uplink, that the file
matches the memory itself. -/
structure Standing (reported : Prop) (topo : Topology) (passAt : Nat) (stirred : Set Mac) (origin : Option Text)
    (dev : Name) (syncer : Syncer) (shelf : Shelf) : Prop where
  backed : Backed stirred origin dev syncer shelf
  written : reported → (syncer.portsWritten dev).isSome
  carries : reported → ∃ ahead bound, Matches topo (syncer.portsOf dev) passAt ahead bound stirred origin
    (shelf.drawer dev).ports (syncer.portsOf dev)

/-- Neither the file nor what is held against it changed. -/
def Unrewritten (dev : Name) (syncer : Syncer) (shelf : Shelf) (after : Syncer) (shelf' : Shelf) : Prop :=
  after.portsWritten dev = syncer.portsWritten dev ∧ (shelf'.drawer dev).ports = (shelf.drawer dev).ports

instance : Decidable (Unrewritten dev syncer shelf after shelf') := inferInstanceAs (Decidable (_ ∧ _))

theorem Unrewritten.trans {middle : Syncer} {between : Shelf} (first : Unrewritten dev syncer shelf middle between)
    (second : Unrewritten dev middle between after shelf') : Unrewritten dev syncer shelf after shelf' :=
  ⟨second.1.trans first.1, second.2.trans first.2⟩

theorem Backed.mono (backed : Backed stirred origin dev syncer shelf) (fewer : stirred ⊆ stirred')
    (found : origin = none ∨ origin = origin') : Backed stirred' origin' dev syncer shelf := by
  intro keys memo file
  obtain ⟨topo, rows, passAt, ahead, bound, plain, same, agrees⟩ := backed keys memo file
  exact ⟨topo, rows, passAt, ahead, bound, plain, same, agrees.mono fewer found⟩

theorem Backed.stir (backed : Backed stirred origin dev syncer shelf) (same : Unrewritten dev syncer shelf after shelf')
    (stirs : Stirs stirred (syncer.portsOf dev) (after.portsOf dev)) : Backed stirred origin dev after shelf' := by
  intro keys memo file
  rw [same.1] at memo
  rw [same.2] at file ⊢
  obtain ⟨topo, rows, passAt, ahead, bound, plain, keysSame, agrees⟩ := backed keys memo file
  exact ⟨topo, rows, passAt, ahead, bound, plain, keysSame, agrees.stir stirs⟩

theorem Backed.of_unwritten (unwritten : syncer.portsWritten dev = none) : Backed stirred origin dev syncer shelf := by
  intro keys memo
  rw [unwritten] at memo
  cases memo

namespace Standing

theorem imp (standing : Standing reported topo passAt stirred origin dev syncer shelf) (implies : reported' → reported) :
    Standing reported' topo passAt stirred origin dev syncer shelf :=
  ⟨standing.backed, fun told => standing.written (implies told), fun told => standing.carries (implies told)⟩

theorem mono (standing : Standing reported topo passAt stirred origin dev syncer shelf) (fewer : stirred ⊆ stirred')
    (found : origin = none ∨ origin = origin') : Standing reported topo passAt stirred' origin' dev syncer shelf := by
  refine ⟨standing.backed.mono fewer found, standing.written, fun told => ?_⟩
  obtain ⟨ahead, bound, agrees⟩ := standing.carries told
  exact ⟨ahead, bound, agrees.mono fewer found⟩

theorem of_backed (backed : Backed stirred origin dev syncer shelf) (silent : ¬ reported) :
    Standing reported topo passAt stirred origin dev syncer shelf :=
  ⟨backed, fun told => absurd told silent, fun told => absurd told silent⟩

/-- A file just written. -/
theorem of_written (plain : topo.Plain) {passed : Nat}
    (written : syncer.portsWritten dev = some (keysOf topo (syncer.portsOf dev) passed))
    (file : (shelf.drawer dev).ports = fileOf topo (syncer.portsOf dev)) :
    Standing reported topo passAt ∅ none dev syncer shelf := by
  have agrees (passAt : Nat) : Matches topo (syncer.portsOf dev) passAt 0 passAt ∅ none (shelf.drawer dev).ports
      (syncer.portsOf dev) := by
    rw [file]
    exact .written plain
  refine ⟨fun keys memo _ => ?_, fun _ => by rw [written]; rfl, fun _ => ⟨_, _, agrees passAt⟩⟩
  rw [written] at memo
  obtain rfl := Option.some.inj memo
  exact ⟨topo, _, _, _, _, plain, rfl, agrees passed⟩

end Standing

/-- A stretch of work that leaves an uplink's file and what is held against it, and stirs
these addresses of its memory at most. -/
structure Rests (macs : Set Mac) (dev : Name) (syncer : Syncer) (shelf : Shelf) (after : Syncer) (shelf' : Shelf) :
    Prop where
  settings : after.toSettings = syncer.toSettings
  unread : after.Unread dev → syncer.Unread dev
  same : Unrewritten dev syncer shelf after shelf'
  stirs : Stirs macs (syncer.portsOf dev) (after.portsOf dev)
  stuck : (shelf'.drawer dev).stuck = (shelf.drawer dev).stuck
  away : shelf.Away dev → shelf'.Away dev

namespace Rests

theorem refl : Rests macs dev syncer shelf syncer shelf := ⟨rfl, id, ⟨rfl, rfl⟩, .refl, rfl, id⟩

theorem trans {middle : Syncer} {between : Shelf} (first : Rests macs dev syncer shelf middle between)
    (second : Rests macs dev middle between after shelf') : Rests macs dev syncer shelf after shelf' where
  settings := second.settings.trans first.settings
  unread never := first.unread (second.unread never)
  same := first.same.trans second.same
  stirs := first.stirs.trans second.stirs
  stuck := second.stuck.trans first.stuck
  away free := second.away (first.away free)

theorem mono {more : Set Mac} (rests : Rests macs dev syncer shelf after shelf') (covers : macs ⊆ more) :
    Rests more dev syncer shelf after shelf' :=
  { rests with stirs := rests.stirs.mono covers }

theorem of_beside (beside : Syncer.Beside dev syncer after) (drawer : shelf'.drawer dev = shelf.drawer dev)
    (away : shelf.Away dev → shelf'.Away dev) : Rests macs dev syncer shelf after shelf' where
  settings := beside.settings
  unread := fun ⟨unloaded, blank⟩ => ⟨fun loaded => unloaded (beside.loaded.mpr loaded), beside.carriedPorts ▸ blank⟩
  same := ⟨beside.written, by rw [drawer]⟩
  stirs := by
    rw [Syncer.portsOf, Syncer.portsOf, beside.carriedPorts]
    exact .refl
  stuck := by rw [drawer]
  away := away

/-- Work on a note leaves the memory file beside it. -/
theorem of_noteMarks {devs : Set Name} (marks : NoteMarks devs syncer after)
    (ports : (shelf'.drawer dev).ports = (shelf.drawer dev).ports)
    (stuck : (shelf'.drawer dev).stuck = (shelf.drawer dev).stuck) (away : shelf.Away dev → shelf'.Away dev) :
    Rests macs dev syncer shelf after shelf' := by
  obtain ⟨_, _, _, rfl⟩ := marks
  exact ⟨rfl, id, ⟨rfl, ports⟩, .refl, stuck, away⟩

theorem setCarried {carried : Option Carried} :
    Rests macs dev syncer shelf (syncer.setCarried dev carried) shelf := ⟨rfl, id, ⟨rfl, rfl⟩, .refl, rfl, id⟩

/-- A memory is put where nothing but the stirred of it changed. -/
theorem setPorts {other : Name} {ports : PortMap} (stirs : dev = other → Stirs macs (syncer.portsOf dev) ports) :
    Rests macs dev syncer shelf (syncer.setPorts other (some ports)) shelf := by
  by_cases same : dev = other
  · subst same
    refine ⟨rfl, fun ⟨_, blank⟩ => ?_, ⟨rfl, rfl⟩, ?_, rfl, id⟩
    · simp [Syncer.setPorts] at blank
    · simpa [Syncer.portsOf, Syncer.setPorts] using stirs rfl
  · exact .of_beside (.setPorts same) rfl id

theorem dropPorts {dropped : List Mac} : Rests macs dev syncer shelf (syncer.dropPorts dev dropped) shelf := by
  unfold Syncer.dropPorts
  split
  · rename_i ports known
    apply Rests.setPorts
    intro _
    rw [Syncer.portsOf, known, Option.getD_some]
    exact .retain
  · exact .refl

theorem ready (rests : Rests macs dev syncer shelf after shelf') (ready : Ready dev syncer shelf) :
    Ready dev after shelf' where
  acts := (congrArg Settings.dryRun rests.settings).trans ready.acts
  loose := rests.stuck.trans ready.loose
  away := rests.away ready.away
  read never := rests.same.1.trans (ready.read (rests.unread never))

theorem standing (rests : Rests ∅ dev syncer shelf after shelf')
    (standing : Standing reported topo passAt stirred origin dev syncer shelf) :
    Standing reported topo passAt stirred origin dev after shelf' where
  backed := standing.backed.stir rests.same (rests.stirs.mono (Set.empty_subset _))
  written told := by
    rw [rests.same.1]
    exact standing.written told
  carries told := by
    obtain ⟨ahead, bound, agrees⟩ := standing.carries told
    rw [rests.same.2]
    refine ⟨ahead, bound, agrees.genuine, fun mac index seen name found named => ?_⟩
    have kept := rests.stirs mac (Set.notMem_empty mac)
    obtain ⟨filed, listed, sides, stamped⟩ := agrees.lines mac index seen name (kept _ found) named
    exact ⟨filed, listed, sides, fun quiet calm spot known => stamped quiet calm spot (kept spot known)⟩

end Rests

/-- A stretch of a pass: either the file is what it was, and stands as it stood, or it was
written or taken over and nothing has been stirred since. -/
structure Advances (reported reported' : Prop) (topo : Topology) (passAt : Nat) (dev : Name) (syncer : Syncer)
    (shelf : Shelf) (after : Syncer) (shelf' : Shelf) : Prop where
  ready : Ready dev after shelf'
  offered : after.offered shelf' dev = none ∨ after.offered shelf' dev = syncer.offered shelf dev
  standing : ∀ stirred origin, Standing reported topo passAt stirred origin dev syncer shelf →
    Unrewritten dev syncer shelf after shelf' ∧ Standing reported' topo passAt stirred origin dev after shelf' ∨
      Standing reported' topo passAt ∅ (syncer.offered shelf dev) dev after shelf'

namespace Advances

variable {told : Prop}

theorem trans {middle : Syncer} {between : Shelf}
    (first : Advances reported told topo passAt dev syncer shelf middle between)
    (second : Advances told reported' topo passAt dev middle between after shelf') :
    Advances reported reported' topo passAt dev syncer shelf after shelf' where
  ready := second.ready
  offered := by
    rcases second.offered with none | same
    · exact .inl none
    · rw [same]
      exact first.offered
  standing stirred origin stands := by
    have later : Standing reported' topo passAt ∅ (middle.offered between dev) dev after shelf' →
        Standing reported' topo passAt ∅ (syncer.offered shelf dev) dev after shelf' :=
      fun fresh => fresh.mono (Set.Subset.refl _) first.offered
    rcases first.standing stirred origin stands with ⟨same, stands'⟩ | fresh
    · rcases second.standing _ _ stands' with ⟨same', stands''⟩ | fresh
      · exact .inl ⟨same.trans same', stands''⟩
      · exact .inr (later fresh)
    · rcases second.standing _ _ fresh with ⟨_, stands''⟩ | fresh'
      · exact .inr stands''
      · exact .inr (later fresh')

theorem imp (advances : Advances reported told topo passAt dev syncer shelf after shelf') (implies : reported' → told) :
    Advances reported reported' topo passAt dev syncer shelf after shelf' where
  ready := advances.ready
  offered := advances.offered
  standing stirred origin stands := by
    rcases advances.standing stirred origin stands with ⟨same, stands'⟩ | fresh
    · exact .inl ⟨same, stands'.imp implies⟩
    · exact .inr (fresh.imp implies)

theorem of_rests (rests : Rests ∅ dev syncer shelf after shelf') (ready : Ready dev syncer shelf) :
    Advances reported reported topo passAt dev syncer shelf after shelf' where
  ready := rests.ready ready
  offered := by
    rw [Syncer.offered, Syncer.offered]
    split
    · rename_i never
      rw [if_pos (rests.unread never), rests.same.2]
      exact .inr rfl
    · exact .inl rfl
  standing _ _ stands := .inl ⟨rests.same, rests.standing stands⟩

theorem refl (ready : Ready dev syncer shelf) : Advances reported reported topo passAt dev syncer shelf syncer shelf :=
  .of_rests .refl ready

end Advances

/-- Work outside an uplink's own turns: the file stays, or whatever was done to it leaves it
matching a memory that only these addresses were stirred in since. -/
structure Reworks (macs : Set Mac) (origins : Set (Option Text)) (dev : Name) (syncer : Syncer) (shelf : Shelf)
    (after : Syncer) (shelf' : Shelf) : Prop where
  ready : Ready dev after shelf'
  backed : ∀ stirred origin, macs ⊆ stirred → Backed stirred origin dev syncer shelf →
    Unrewritten dev syncer shelf after shelf' ∧ Backed stirred origin dev after shelf' ∨
      ∃ found ∈ origins, Backed macs found dev after shelf'

namespace Reworks

variable {origins : Set (Option Text)}

theorem trans {middle : Syncer} {between : Shelf} (first : Reworks macs origins dev syncer shelf middle between)
    (second : Reworks macs origins dev middle between after shelf') :
    Reworks macs origins dev syncer shelf after shelf' where
  ready := second.ready
  backed stirred origin covers stands := by
    rcases first.backed stirred origin covers stands with ⟨same, stands⟩ | ⟨found, member, stands⟩
    · rcases second.backed stirred origin covers stands with ⟨same', stands⟩ | redone
      · exact .inl ⟨same.trans same', stands⟩
      · exact .inr redone
    · rcases second.backed macs found (Set.Subset.refl _) stands with ⟨_, stands⟩ | redone
      · exact .inr ⟨found, member, stands⟩
      · exact .inr redone

theorem of_rests (rests : Rests macs dev syncer shelf after shelf') (ready : Ready dev syncer shelf) :
    Reworks macs origins dev syncer shelf after shelf' where
  ready := rests.ready ready
  backed _ _ covers stands := .inl ⟨rests.same, stands.stir rests.same (rests.stirs.mono covers)⟩

theorem of_advances (advances : Advances False False topo passAt dev syncer shelf after shelf') :
    Reworks ∅ Set.univ dev syncer shelf after shelf' where
  ready := advances.ready
  backed stirred origin _ stands := by
    rcases advances.standing stirred origin (.of_backed stands id) with ⟨same, stands⟩ | fresh
    · exact .inl ⟨same, stands.backed⟩
    · exact .inr ⟨_, trivial, fresh.backed⟩

theorem step {middle : Syncer} {between : Shelf} (first : Reworks macs origins dev syncer shelf middle between)
    (rests : Rests macs dev middle between after shelf') : Reworks macs origins dev syncer shelf after shelf' :=
  first.trans (.of_rests rests first.ready)

/-- What is held against the file is forgotten. -/
theorem of_unwritten (ready : Ready dev after shelf') (unwritten : after.portsWritten dev = none) :
    Reworks macs Set.univ dev syncer shelf after shelf' :=
  ⟨ready, fun _ _ _ _ => .inr ⟨none, trivial, .of_unwritten unwritten⟩⟩

end Reworks

end SriovMacSync
