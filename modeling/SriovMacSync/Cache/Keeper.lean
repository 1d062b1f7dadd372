import SriovMacSync.Cache.NoteText
import SriovMacSync.Data.Ascending
import SriovMacSync.Interaction.Program

namespace SriovMacSync.Cache

open Data Interaction

/-! # One note as a process keeps it

The copy of a note that a process remembers with the file's identity, and every
function that reads the note, writes it or touches the copy, down to the calls on
the file. -/

/-- What `stat` says of a file: its timestamp in nanoseconds, which two writes in
one tick of the clock share. -/
structure Metadata where
  inode : Nat
  length : Nat
  modified : Int
deriving DecidableEq, Repr

/-- A note as it was last read, with what it takes to tell whether the file is
still the same one. -/
structure Note where
  macs : Finset Mac
  inode : Nat
  length : Nat
  modified : Int
  readAt : Int

def Note.isStill (note : Note) (found : Metadata) : Bool :=
  note.inode == found.inode && note.length == found.length && note.modified == found.modified &&
    note.modified < note.readAt

/-- How an attempt to read the whole file ended. -/
inductive TextReading where
  | absent
  | failed
  | read (text : Text)
deriving DecidableEq

inductive FileCall where
  | metadata
  | readToString
  | clock
  | lock
  | unlock
  /-- open for adding, making the file when there is none -/
  | openAppend
  /-- cut back what stands behind the last newline -/
  | finishLastLine
  | writeAll (text : Text)
  /-- a temporary file, renamed over the note -/
  | putFile (text : Text)
  | removeFile
deriving DecidableEq

@[reducible] def FileReply : FileCall → Type
  | .metadata => Option Metadata
  | .readToString => TextReading
  | .clock => Int
  | .lock | .unlock | .removeFile => Unit
  | .openAppend | .finishLastLine | .writeAll _ | .putFile _ => Bool

/-- What a process remembers about one note. -/
structure NoteMemory where
  note : Option Note := none
  /-- the index last recorded beside the note -/
  index : Option Nat := none
  /-- whether the last read failed -/
  unreadable : Bool := false
  /-- whether the process holds the note's lock -/
  holding : Bool := false

namespace NoteMemory

def forget (memory : NoteMemory) : NoteMemory := { memory with note := none }

def forgetIndexed (memory : NoteMemory) : NoteMemory := { memory with note := none, index := none }

end NoteMemory

abbrev Keeping (α : Type) := Action NoteMemory FileCall FileReply α

abbrev ask (request : FileCall) : Keeping (FileReply request) := Action.ask request

def readOwned : Keeping (Finset Mac) := do
  let reading : TextReading ← ask .readToString
  match reading with
  | .read text =>
      modify ({ · with unreadable := false })
      return noteSet text
  | .absent =>
      modify ({ · with unreadable := false })
      return ∅
  | .failed =>
      modify ({ · with unreadable := true })
      return ∅

/-- Note what was just read or written, with what the file looks like now.  A caller
that just wrote knows nothing of the file and has it looked at. -/
def remember (set : Finset Mac) (known : Option Metadata) : Keeping Unit := do
  let looked : Option Metadata ← if known.isSome then pure known else ask .metadata
  match looked with
  | none => modify (·.forget)
  | some found =>
      let now : Int ← ask .clock
      modify ({ · with note := some ⟨set, found.inode, found.length, found.modified, now⟩ })

/-- Whether the remembered copy may be believed, by one look at the file. -/
def usable : Keeping Bool := do
  let found : Option Metadata ← ask .metadata
  match found with
  | some found => return (← get).note.any (·.isStill found)
  | none => return false

/-- The addresses handed to the callback: the remembered ones, or what a read found
between two looks at the file. -/
def withOwned : Keeping (Finset Mac) := do
  if !(← usable) then
    let before : Option Metadata ← ask .metadata
    let set ← readOwned
    let after : Option Metadata ← ask .metadata
    let steady := before.isSome && before == after
    if !(← get).unreadable && steady then
      remember set after
    else if !(← get).unreadable then
      modify (·.forgetIndexed)
      return set
    else
      modify (·.forgetIndexed)
  match (← get).note with
  | some note => return note.macs
  | none => return ∅

/-- The write itself, the lock held. -/
def writeOwned (set : Finset Mac) : Keeping Bool := do
  if (← get).unreadable then
    return false
  else if (← withOwned) = set then
    return true
  else
    let written : Bool ← ask (.putFile (noteLines (ascending set)))
    if written then
      remember set none
      return true
    else
      modify (·.forget)
      return false

/-- Write lines at the end of the note, behind what a write that stopped left
finished. -/
def addLines (text : Text) : Keeping Bool := do
  let opened : Bool ← ask .openAppend
  if opened then
    let tidy : Bool ← ask .finishLastLine
    if tidy then
      ask (.writeAll text)
    else
      return false
  else
    return false

/-- Whether the file is as long as the copy and the added lines account for.  With
nothing remembered there is nothing to check against. -/
def agrees (was : Option Nat) (text : Text) (now : Option Note) : Bool :=
  match was, now with
  | some was, some now => now.length == was + utf8Length text
  | _, _ => true

/-- Add to the note, the lock held. -/
def appendOwnedLocked (added : List Mac) : Keeping (Option (List Mac)) := do
  let set ← withOwned
  if (← get).unreadable then
    return none
  else if added.filter (· ∉ set) = [] then
    return some []
  else
    let was := (← get).note.map (·.length)
    let wrote ← addLines (noteLines (added.filter (· ∉ set)))
    if wrote then
      remember (set ∪ (added.filter (· ∉ set)).toFinset) none
      if !agrees was (noteLines (added.filter (· ∉ set))) (← get).note then
        modify (·.forget)
      return some (added.filter (· ∉ set))
    else
      modify (·.forget)
      return none

/-- A note that is settled goes with what is remembered of it. -/
def removeNote : Keeping Unit := do
  let _ ← ask .removeFile
  modify (·.forgetIndexed)

/-- Take one address out of the note without touching the other lines, the lock
held. -/
def dropLineLocked (mac : Mac) : Keeping Unit := do
  let reading : TextReading ← ask .readToString
  match reading with
  | .read text =>
      let kept := (lines text).filter fun line => trim line ≠ formatMac mac ∧ trim line ≠ []
      if kept = [] then
        removeNote
      else
        modify (·.forget)
        let _ : Bool ← ask (.putFile (joinLines kept))
  | .absent | .failed => return ()

def takeLock : Keeping Unit := do
  let _ ← ask .lock
  modify ({ · with holding := true })

def releaseLock : Keeping Unit := do
  let _ ← ask .unlock
  modify ({ · with holding := false })

end SriovMacSync.Cache
