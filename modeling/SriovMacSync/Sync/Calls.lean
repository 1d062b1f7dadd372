import SriovMacSync.Interaction.Program
import SriovMacSync.Topology.Anatomy

namespace SriovMacSync

open Data Netlink Interaction

/-! What a pass, a batch or a flush asks of the kernel and of the state
directory.  Everything the program can observe or change goes through one of
these requests; what it decides between two of them is a function. -/

/-- What an attempt to read an ownership note gave. -/
inductive NoteReading where
  | absent
  /-- the lines, and whether the file stayed the same one while it was read -/
  | lines (macs : List Mac) (steady : Bool)
  | unreadable
deriving DecidableEq, Repr

/-- The elements of a hash set, in the order this walk over it happens to
take. -/
structure Arrangement {α : Type} (set : Finset α) where
  list : List α
  nodup : list.Nodup
  mem_iff : ∀ value, value ∈ list ↔ value ∈ set

/-- The stretches of work done under a note's lock. -/
inductive Section where
  | register
  /-- a pass or a reflection takes these out -/
  | retire (macs : List Mac)
  /-- a batch surrenders from the addresses kept quiet -/
  | shed (pool : Finset Mac)
  /-- the difference a pass made to the set it started from -/
  | merge (before after : Finset Mac)
  | ports
  | migrate (old new : Name) (index : Index)
  | sweep
  | reused
  | flush
  /-- a check notes the address it is about to write, or takes it off again -/
  | probe
deriving DecidableEq

inductive Call where
  | dumpFdb
  | dumpFdbOf (index : Index)
  | dumpLinks
  | vfMacsOf (pfs : List Index)
  | setSelfFdb (index : Index) (mac : Mac) (add : Bool)
  | bootMillis
  | now
  | walkMacs (set : Finset Mac)
  | walkNames (set : Finset Name)
  | lock (dev : Name) (work : Section)
  | unlock (dev : Name)
  | listNotes
  | readNote (dev : Name)
  /-- replace a note as a whole, through a temporary file -/
  | putNote (dev : Name) (macs : List Mac)
  | appendNote (dev : Name) (macs : List Mac)
  | removeNote (dev : Name)
  | readIndex (dev : Name)
  | putIndex (dev : Name) (index : Index)
  | removeIndex (dev : Name)
  | readPorts (dev : Name)
  | portsExist (dev : Name)
  | putPorts (dev : Name) (text : Text)
  | removePorts (dev : Name)
  /-- a journal line about quiet addresses given up under pressure; the line
  printed says how many they are -/
  | released (dev : Name) (macs : Finset Mac)
deriving DecidableEq

/-- The reply to each request.  Requests that only write answer whether the
write succeeded. -/
@[reducible] def Reply : Call → Type
  | .dumpFdb | .dumpFdbOf _ => Except Errno (List FdbEntry)
  | .dumpLinks => Except Errno Topology
  | .vfMacsOf _ => Except Errno (List (Index × Mac))
  | .setSelfFdb .. => Except Errno Unit
  | .bootMillis | .now => Nat
  | .walkMacs set => Arrangement set
  | .walkNames set => Arrangement set
  | .lock .. | .unlock _ => Unit
  | .listNotes => Except Errno (List Name)
  | .readNote _ => NoteReading
  | .putNote .. | .appendNote .. => Bool
  | .removeNote _ | .removeIndex _ => Unit
  | .readIndex _ => Option Index
  | .putIndex .. => Bool
  | .readPorts _ => Option Text
  | .portsExist _ => Bool
  | .putPorts .. | .removePorts _ => Bool
  | .released .. => Unit

end SriovMacSync
