import Mathlib.Logic.Relation
import SriovMacSync.Cache.Keeper
import SriovMacSync.Interaction.Processes

namespace SriovMacSync.Cache

open Data Interaction Interaction.Action

/-! # One note among processes

The file of one note, the process whose copy of it is at issue, and the other
processes that write it while they hold its lock.  Only whoever holds the lock
writes, but everybody reads at any time. -/

structure NoteFile where
  inode : Nat
  text : Text
  /-- whether the file can be read and holds text at all -/
  legible : Bool
  modified : Int
deriving DecidableEq

def NoteFile.metadata (file : NoteFile) : Metadata :=
  ⟨file.inode, utf8Length file.text, file.modified⟩

/-- What parsing the note would give. -/
def readsAs : Option NoteFile → Finset Mac
  | some file => if file.legible then noteSet file.text else ∅
  | none => ∅

/-- Who holds the note's lock. -/
inductive Holder where
  | nobody
  | keeper
  | other
deriving DecidableEq

structure Disk where
  file : Option NoteFile
  holder : Holder
  /-- the inode numbers this name ever had -/
  used : Finset Nat
  /-- what parsing the note would have given, instant by instant, the latest
  first -/
  instants : List (Finset Mac)

namespace Disk

variable (disk : Disk)

def setHolder (holder : Holder) : Disk := { disk with holder }

/-- The file changed in place. -/
def rewrite (file : NoteFile) (text : Text) (modified : Int) : Disk :=
  { disk with
    file := some { file with text, modified }
    instants := readsAs (some { file with text, modified }) :: disk.instants }

/-- Another file took the name. -/
def install (file : NoteFile) : Disk :=
  { disk with
    file := some file
    used := insert file.inode disk.used
    instants := readsAs (some file) :: disk.instants }

def unlink : Disk := { disk with file := none, instants := ∅ :: disk.instants }

/-- An instant at which the file could not be read. -/
def illegibly : Disk := { disk with instants := ∅ :: disk.instants }

/-- The instants from this one on. -/
def watched : Disk := { disk with instants := [readsAs disk.file] }

/-- What another process may do to the note.  `cuts` says which unfinished last lines
are there to be cut back. -/
inductive Moves (cuts : Text → Prop) : Disk → Prop where
  | takes (free : disk.holder = .nobody) : Moves cuts (disk.setHolder .other)
  | drops (held : disk.holder = .other) : Moves cuts (disk.setHolder .nobody)
  | creates (held : disk.holder = .other) {file : NoteFile} (absent : disk.file = none)
      (fresh : file.inode ∉ disk.used) (empty : file.text = []) (legible : file.legible = true) :
      Moves cuts (disk.install file)
  | cutsBack (held : disk.holder = .other) {file : NoteFile} {modified : Int}
      (found : disk.file = some file) (legible : file.legible = true)
      (allowed : cuts (lastLine file.text)) :
      Moves cuts (disk.rewrite file (finished file.text) modified)
  | adds (held : disk.holder = .other) {file : NoteFile} {text : Text} {modified : Int}
      (found : disk.file = some file) (legible : file.legible = true)
      (lines : Adds file.text text) : Moves cuts (disk.rewrite file text modified)
  | replaces (held : disk.holder = .other) {file : NoteFile} (fresh : file.inode ∉ disk.used) :
      Moves cuts (disk.install file)
  | unlinks (held : disk.holder = .other) : Moves cuts disk.unlink

/-- How a call of the process itself may go. -/
def Answers (cuts : Text → Prop) : (request : FileCall) → FileReply request → Disk → Prop
  | .metadata, found, after => after = disk ∧ (found = none ∨ found = disk.file.map (·.metadata))
  | .readToString, .read text, after =>
      after = disk ∧ ∃ file, disk.file = some file ∧ file.legible = true ∧ file.text = text
  | .readToString, .absent, after => after = disk ∧ disk.file = none
  | .readToString, .failed, after => after = disk.illegibly
  | .clock, _, after => after = disk
  | .lock, _, after => disk.holder = .nobody ∧ after = disk.setHolder .keeper
  | .unlock, _, after => after = disk.setHolder .nobody
  | .openAppend, opened, after =>
      after = disk ∧ (opened = true → disk.file ≠ none) ∨
        opened = true ∧ disk.file = none ∧ ∃ inode modified, inode ∉ disk.used ∧
          after = disk.install ⟨inode, [], true, modified⟩
  | .finishLastLine, tidy, after =>
      after = disk ∧ (tidy = true → ∀ file, disk.file = some file → lastLine file.text = []) ∨
        ∃ file modified, disk.file = some file ∧ cuts (lastLine file.text) ∧
          after = disk.rewrite file (finished file.text) modified
  | .writeAll text, done, after =>
      ∃ file part modified, disk.file = some file ∧ part <+: text ∧
        (done = true → part = text) ∧ after = disk.rewrite file (file.text ++ part) modified
  | .putFile text, done, after =>
      done = false ∧ after = disk ∨
        done = true ∧ ∃ inode modified, inode ∉ disk.used ∧
          after = disk.install ⟨inode, text, true, modified⟩
  | .removeFile, _, after => after = disk ∨ after = disk.unlink

/-- What holds of a note before the process starts. -/
structure Begins : Prop where
  free : disk.holder ≠ .keeper
  used : ∀ file, disk.file = some file → file.inode ∈ disk.used

end Disk

/-- What the process may do next, by whether it holds the lock. -/
inductive Work (memory : NoteMemory) : Program FileCall FileReply NoteMemory → Prop where
  | look : Work memory (withOwned.leaving memory)
  | read : Work memory (readOwned.leaving memory)
  | takeLock (free : memory.holding = false) : Work memory (takeLock.leaving memory)
  | releaseLock (held : memory.holding = true) : Work memory (releaseLock.leaving memory)
  | write (held : memory.holding = true) (set : Finset Mac) :
      Work memory ((writeOwned set).leaving memory)
  | append (held : memory.holding = true) (added : List Mac) :
      Work memory ((appendOwnedLocked added).leaving memory)
  | remove (held : memory.holding = true) : Work memory (removeNote.leaving memory)
  | dropLine (held : memory.holding = true) (mac : Mac) :
      Work memory ((dropLineLocked mac).leaving memory)

/-- The other processes move between any two calls of this one. -/
def among (cuts : Text → Prop) : Environment FileCall FileReply Disk where
  permits _ _ := True
  answers disk request reply after :=
    ∃ middle, Relation.ReflTransGen (Disk.Moves · cuts) disk middle ∧
      middle.Answers cuts request reply after

/-- One process and its copy of the note, among others. -/
def noteSystem (cuts : Text → Prop) : System Unit FileCall FileReply NoteMemory Disk where
  fresh memory := memory.note = none ∧ memory.holding = false
  operations := Work
  answers _ := (among cuts).answers
  drifts := (Disk.Moves · cuts)
  dies _ disk after := after = if disk.holder = .keeper then disk.setHolder .nobody else disk

end SriovMacSync.Cache
