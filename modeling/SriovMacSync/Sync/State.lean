import Mathlib.Data.Finset.Basic
import Mathlib.Data.Finset.Card
import SriovMacSync.Data.Ascending
import SriovMacSync.Sync.Calls

namespace SriovMacSync

open Data Netlink Interaction

structure Pair where
  dev : Name
  bridge : Name
deriving DecidableEq, Repr

/-- The bridge port each owned address was last learnt behind, with when the
bridge was last seen holding it. -/
abbrev PortMap := AList fun _ : Mac => Index × Nat

/-- What one pass left behind about an uplink's filter. -/
structure Carried where
  /-- the interface holding the filter this uplink writes into -/
  card : Name := ""
  occupancy : Nat := 0
  /-- the addresses the pass decided to keep, and the pool a batch may
  surrender from -/
  quiet : Finset Mac := ∅
  /-- what the pass saw on the wire, plus what reflections since took out -/
  wire : Finset Mac := ∅
  /-- when that pass ran; an older stamp is an address it did not see -/
  passedAt : Nat := 0

/-- What a process was told to do. -/
structure Settings where
  pairs : List Pair
  exclude : Finset Mac := ∅
  /-- addresses to register whether or not a bridge has learnt them -/
  extra : Finset Mac := ∅
  dryRun : Bool := false
  /-- whether the pair list is the whole picture -/
  authoritative : Bool := false
  /-- how long a device must be absent before its note counts as an orphan -/
  orphanGrace : Nat := 0
  maxMacs : Nat := 128
  maxMacsPerCard : Name → Option Nat := fun _ => none

/-- The memory of one process.  The notes themselves are on disk: a copy is
believed only while the file is unchanged, so reading through it is reading
the file. -/
structure Syncer extends Settings where
  /-- the virtual functions' addresses with the functions they were read for -/
  carriedVf : Option (List Index × List (Index × Mac)) := none
  vfStale : Bool := true
  absentSince : Name → Option Nat := fun _ => none
  /-- the index last recorded beside each note -/
  indices : Name → Option Index := fun _ => none
  carriedPorts : Name → Option PortMap := fun _ => none
  /-- uplinks whose written-down memory has been read this run -/
  portsLoaded : Finset Name := ∅
  /-- what was last written to each uplink's memory file, stamps aside -/
  portsWritten : Name → Option (List Text) := fun _ => none
  /-- the notes whose last read failed -/
  unreadable : Finset Name := ∅
  carried : Name → Option Carried := fun _ => none
  lastPassAt : Nat := 0

/-- A computation of a process: it carries its memory and asks the kernel and
the state directory. -/
abbrev Sync (α : Type) := Action Syncer Call Reply α

abbrev ask (request : Call) : Sync (Reply request) := Action.ask request

/-- Hold a note against everybody else while `body` works on it. -/
def locked {α : Type} (dev : Name) (work : Section) (body : Sync α) : Sync α := do
  let _ ← ask (.lock dev work)
  let out ← body
  let _ ← ask (.unlock dev)
  return out

namespace Syncer

/-- The driver's answer, and that it is current. -/
def rememberVf (syncer : Syncer) (pfs : List Index) (macs : List (Index × Mac)) : Syncer :=
  { syncer with carriedVf := some (pfs, macs), vfStale := false }

/-- The carried answer, if it may be used for these very functions. -/
def carriedVfFor (syncer : Syncer) (pfs : List Index) : Option (List (Index × Mac)) :=
  match syncer.carriedVf, syncer.vfStale with
  | some (forPfs, kept), false => if forPfs = pfs then some kept else none
  | _, _ => none

def setIndex (syncer : Syncer) (dev : Name) (index : Option Index) : Syncer :=
  { syncer with indices := Function.update syncer.indices dev index }

def setPorts (syncer : Syncer) (dev : Name) (ports : Option PortMap) : Syncer :=
  { syncer with carriedPorts := Function.update syncer.carriedPorts dev ports }

def setPortsWritten (syncer : Syncer) (dev : Name) (keys : Option (List Text)) : Syncer :=
  { syncer with portsWritten := Function.update syncer.portsWritten dev keys }

def setCarried (syncer : Syncer) (dev : Name) (carried : Option Carried) : Syncer :=
  { syncer with carried := Function.update syncer.carried dev carried }

/-- What a look at a note's file says about its readability. -/
def sawNote (syncer : Syncer) (dev : Name) (readable : Bool) : Syncer :=
  { syncer with
    unreadable := if readable then syncer.unreadable.erase dev else insert dev syncer.unreadable }

/-- The port memory and the leavings of a pass over a device that stopped being
this uplink. -/
def forgetUplink (syncer : Syncer) (dev : Name) : Syncer :=
  { syncer with
    carried := Function.update syncer.carried dev none
    carriedPorts := Function.update syncer.carriedPorts dev none
    portsLoaded := syncer.portsLoaded.erase dev
    portsWritten := Function.update syncer.portsWritten dev none }

end Syncer

end SriovMacSync
