import SriovMacSync.Sync.State

namespace SriovMacSync

open Data Netlink Interaction

/-! The ownership notes: which addresses this program put into which card.  The
files are the truth; every writer holds the note's lock across its whole
window. -/

namespace NoteReading

def owned : NoteReading → Finset Mac
  | .lines macs _ => macs.toFinset
  | .absent | .unreadable => ∅

def isReadable : NoteReading → Bool
  | .unreadable => false
  | .absent | .lines .. => true

def isSteady : NoteReading → Bool
  | .lines _ steady => steady
  | .absent | .unreadable => false

end NoteReading

def readOwned (dev : Name) : Sync (Finset Mac) := do
  let reading : NoteReading ← ask (.readNote dev)
  modify (·.sawNote dev reading.isReadable)
  return reading.owned

/-- The note for whoever only looks.  The index remembered beside it goes with
a copy that could not be believed. -/
def loadOwned (dev : Name) : Sync (Finset Mac) := do
  let reading : NoteReading ← ask (.readNote dev)
  modify fun syncer =>
    let syncer := syncer.sawNote dev reading.isReadable
    if reading.isSteady then syncer else syncer.setIndex dev none
  return reading.owned

def noteIsReadable (dev : Name) : Sync Bool := do
  return dev ∉ (← get).unreadable

def noteIndex (dev : Name) (index : Index) : Sync Unit := do
  if (← get).indices dev ≠ some index then
    let written : Bool ← ask (.putIndex dev index)
    if written then
      modify (·.setIndex dev (some index))

def notedIndex (dev : Name) : Sync (Option Index) := ask (.readIndex dev)

/-- The recorded index as this process knows it: what it stamped, else the
file. -/
def recordedIndex (dev : Name) : Sync (Option Index) := do
  match (← get).indices dev with
  | some index => return some index
  | none => notedIndex dev

/-- A note that is settled goes with its index record and its port memory. -/
def removeNote (dev : Name) : Sync Unit := do
  let _ ← ask (.removeNote dev)
  let _ ← ask (.removeIndex dev)
  let _ ← ask (.removePorts dev)
  modify (·.setIndex dev none)

/-- The write itself, every caller holding the lock. -/
def writeOwned (dev : Name) (set : Finset Mac) : Sync Bool := do
  if ← noteIsReadable dev then
    if (← loadOwned dev) = set then
      return true
    else
      ask (.putNote dev (ascending set))
  else
    return false

/-- Add to a note under the caller's lock.  Returns the addresses appended, or
nothing when the note could not take them. -/
def appendOwnedLocked (dev : Name) (added : List Mac) : Sync (Option (List Mac)) := do
  let set ← loadOwned dev
  if ← noteIsReadable dev then
    let fresh := added.filter (· ∉ set)
    if fresh = [] then
      return some fresh
    else
      let written : Bool ← ask (.appendNote dev fresh)
      return if written then some fresh else none
  else
    return none

/-- Take addresses back out of the note, the lock already held. -/
def unnoteLocked (dev : Name) (macs : List Mac) : Sync Bool := do
  if ← noteIsReadable dev then
    let before ← loadOwned dev
    let after := before \ macs.toFinset
    if after.card = before.card then
      return true
    else
      writeOwned dev after
  else
    return false

/-- Take addresses off a note as a difference against a fresh read.  The caller
holds the lock. -/
def forgetLocked (dev : Name) (dropped : List Mac) : Sync Unit := do
  if dropped ≠ [] then
    let fin ← readOwned dev
    let _ ← writeOwned dev (fin \ dropped.toFinset)

/-- Write the note as the difference this caller made, not as the set it
started from. -/
def saveOwnedMerged (dev : Name) (before after : Finset Mac) : Sync Unit := do
  if !(← get).dryRun then
    locked dev (.merge before after) do
      let current ← readOwned dev
      let _ ← writeOwned dev ((current ∪ (after \ before)) \ (before \ after))

/-- The move itself, under both locks: the record before the note, and the append
before the unlink. -/
def migrateLocked (old new : Name) (index : Index) : Sync Bool := do
  let owned ← loadOwned old
  let macs : Arrangement owned ← ask (.walkMacs owned)
  if ← noteIsReadable old then
    if macs.list = [] then
      removeNote old
      return true
    else
      noteIndex new index
      match ← appendOwnedLocked new macs.list with
      | none => return false
      | some _ =>
          removeNote old
          return true
  else
    return false

/-- Move a note and its index record to the interface's new name, with both locks
taken in name order. -/
def migrateNote (old new : Name) (index : Index) : Sync Bool :=
  if old = new then
    return true
  else if old ≤ new then
    locked old (.migrate old new index) <| locked new (.migrate old new index) <|
      migrateLocked old new index
  else
    locked new (.migrate old new index) <| locked old (.migrate old new index) <|
      migrateLocked old new index

/-- Every device with a note, in name order. -/
def notedDevices : Sync (Except Errno (List Name)) := do
  let listing : Except Errno (List Name) ← ask .listNotes
  return listing.map (·.insertionSort (· ≤ ·))

/-- The same list for callers that can only shrug at a failure. -/
def notedDevicesOrNone : Sync (List Name) := do
  match ← notedDevices with
  | .ok devs => return devs
  | .error _ => return []

end SriovMacSync
