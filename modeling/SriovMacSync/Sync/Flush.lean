import SriovMacSync.Sync.Batch

namespace SriovMacSync

open Data Netlink Interaction

/-- The interface the entries a note names are attached to: found by name, else
by the recorded index. -/
def flushTarget (dev : Name) (topo : Topology) : Sync (Option Index) := do
  match ← notedLink dev topo with
  | some link => return some link.index
  | none => return (← renamedTarget dev topo).map (·.1)

def flushEntries (dev : Name) (topo : Topology) (owned : Finset Mac) : Sync (Finset Mac) := do
  match ← flushTarget dev topo with
  | some index => return (← unregisterAll index owned).2
  | none => return ∅

/-- Read, unregister and unlink under the note's lock.  Whether nothing is
left. -/
def flushNote (dev : Name) (topo : Topology) : Sync Bool :=
  locked dev .flush do
    let owned ← loadOwned dev
    let kept ← flushEntries dev topo owned
    if ← noteIsReadable dev then
      if kept = ∅ then
        removeNote dev
        return true
      else
        let _ ← writeOwned dev kept
        return false
    else
      return false

/-- What a dry run says of a note; only a readable one passes. -/
def previewNote (dev : Name) : Sync Bool := do
  let _ ← loadOwned dev
  noteIsReadable dev

def flushNotes (topo : Topology) : List Name → Sync Bool
  | [] => return true
  | dev :: rest => do
      let clean ← if (← get).dryRun then previewNote dev else flushNote dev topo
      return (← flushNotes topo rest) && clean

/-- Remove every address this program registered, over the notes rather than over
the pairs. -/
def flush : Sync (Except Errno Bool) := do
  let reading : Except Errno Topology ← ask .dumpLinks
  match reading with
  | .error errno => return .error errno
  | .ok topo =>
      match ← notedDevices with
      | .error errno => return .error errno
      | .ok devs => return .ok (← flushNotes topo devs)

end SriovMacSync
