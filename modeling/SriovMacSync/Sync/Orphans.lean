import SriovMacSync.Sync.Register

namespace SriovMacSync

open Data Netlink Interaction

/-! Notes whose device is no longer an uplink: a rename is followed, a
departure is cleaned up after. -/

/-- Devices with a note that are no longer uplinks, and have not been for long
enough to believe it. -/
def orphaned : Sync (List Name) := do
  if !(← get).authoritative then
    modify fun syncer => { syncer with absentSince := fun _ => none }
    return []
  let now : Nat ← ask .now
  let noted ← notedDevicesOrNone
  let syncer ← get
  let live := syncer.pairs.map (·.dev)
  let missing := noted.filter (· ∉ live)
  let since := fun dev => (syncer.absentSince dev).getD now
  modify fun syncer =>
    { syncer with absentSince := fun dev => if dev ∈ missing then some (since dev) else none }
  return missing.filter fun dev => now - since dev ≥ syncer.orphanGrace

/-- Where a noted device's interface lives now, when the name is gone but the
recorded index is not. -/
def renamedTarget (dev : Name) (topo : Topology) : Sync (Option (Index × Name)) := do
  match ← notedIndex dev with
  | none => return none
  | some index =>
      match topo.linkAt index with
      | none => return none
      | some link => return if link.name = dev then none else some (index, link.name)

/-- The interface a note is about, found by name and held against the recorded
index. -/
def notedLink (dev : Name) (topo : Topology) : Sync (Option Link) := do
  match topo.get dev with
  | none => return none
  | some link =>
      match ← recordedIndex dev with
      | some index => return if index = link.index then some link else none
      | none => return some link

namespace Syncer

/-- The port memory follows the note, and the new name counts as read. -/
def movePorts (syncer : Syncer) (dev newName : Name) : Syncer :=
  match syncer.carriedPorts dev with
  | some ports =>
      { (syncer.setPorts dev none).setPorts newName (some ports) with
        portsLoaded := insert newName syncer.portsLoaded }
  | none => syncer

/-- The written-down copy went with the old note, and the new name has nothing on
file yet. -/
def moveMarks (syncer : Syncer) (dev newName : Name) : Syncer :=
  { (syncer.setPortsWritten dev none).setPortsWritten newName none with
    portsLoaded := syncer.portsLoaded.erase dev
    unreadable :=
      if dev ∈ syncer.unreadable then insert newName (syncer.unreadable.erase dev)
      else syncer.unreadable }

def moveCarried (syncer : Syncer) (dev newName : Name) : Syncer :=
  match syncer.carried dev with
  | some carried => (syncer.setCarried dev none).setCarried newName (some carried)
  | none => syncer

/-- A note's interface lives on under a new name: the port memory, the marks and
the leavings of the last pass follow it. -/
def followTo (syncer : Syncer) (dev newName : Name) : Syncer :=
  ((syncer.movePorts dev newName).moveMarks dev newName).moveCarried dev newName

end Syncer

/-- The note moves to the interface's new name, and everything kept about the
device with it.  Whether the note moved; if not, it waits. -/
def followRename (dev newName : Name) (index : Index) (topo : Topology) : Sync Bool := do
  loadPorts dev topo
  let moved ← migrateNote dev newName index
  if moved then
    modify (·.followTo dev newName)
    savePorts newName topo (← get).lastPassAt
  return moved

/-- What can be taken out is taken out; the rest stays on record. -/
def takeOut (dev : Name) (topo : Topology) (owned : Finset Mac) : Sync (Finset Mac) := do
  match ← notedLink dev topo with
  | some link => return (← unregisterAll link.index owned).2
  -- a unicast filter does not outlive its interface
  | none => return ∅

/-- The locked part of the sweep over one device: its addresses out of the card,
then the note.  Whether the note is gone. -/
def sweepNote (dev : Name) (topo : Topology) : Sync Bool :=
  locked dev .sweep do
    let owned ← loadOwned dev
    if owned = ∅ then
      if ← noteIsReadable dev then
        removeNote dev
        return true
      else
        return false
    else
      let kept ← takeOut dev topo owned
      let readable ← noteIsReadable dev
      if kept = ∅ ∧ readable then
        removeNote dev
        return true
      else
        let _ ← writeOwned dev kept
        return false

/-- Take back what was registered for a device that is no longer an uplink. -/
def sweepOrphan (dev : Name) (topo : Topology) (act : Bool) : Sync Unit := do
  if act then
    let noteGone ← sweepNote dev topo
    modify fun syncer =>
      if noteGone then (syncer.forgetUplink dev).sawNote dev true else syncer.forgetUplink dev
  else
    let _ ← loadOwned dev

/-- Whether a note names addresses of an interface nothing identifies. -/
def isUnidentified (dev : Name) : Sync Bool := do
  match ← notedIndex dev with
  | some _ => return false
  | none => return (← loadOwned dev) ≠ ∅

/-- One device of the sweep.  A name gone while its interface lives on is a
rename; without a record the two cannot be told apart and the note stays. -/
def dropOrphan (topo : Topology) (apply : Bool) (dev : Name) : Sync Unit := do
  let act := apply && !(← get).dryRun
  match ← notedLink dev topo with
  | some _ => sweepOrphan dev topo act
  | none =>
      if ← isUnidentified dev then
        return
      else
        match ← renamedTarget dev topo with
        | some (index, newName) =>
            if act then
              let _ ← followRename dev newName index topo
        | none => sweepOrphan dev topo act

def dropOrphans (topo : Topology) (apply : Bool) : Sync Unit := do
  (← orphaned).forM (dropOrphan topo apply)

end SriovMacSync
