import SriovMacSync.Cache.Appending
import SriovMacSync.Interaction.Embedding
import SriovMacSync.Topology.Graph

namespace SriovMacSync.Cache

open Data Netlink Interaction

/-! # A check

Whether a driver takes entries at all: a probe is noted, written, looked for and
taken out again.  A check is never a dry run. -/

/-- The address a check writes, made from the interface's own. -/
def probeOf (mac : Mac) : Mac := { mac with octet0 := 0x02, octet5 := mac.octet5 ^^^ 0x5a }

inductive CheckCall where
  /-- what is asked of the note's file -/
  | file (request : FileCall)
  /-- record beside the note which interface it is about -/
  | putIndex (index : Index)
  | setSelfFdb (index : Index) (mac : Mac) (add : Bool)
  | dumpFdb
deriving DecidableEq

@[reducible] def CheckReply : CheckCall → Type
  | .file request => FileReply request
  | .putIndex _ => Bool
  | .setSelfFdb .. => Except Errno Unit
  | .dumpFdb => Except Errno (List FdbEntry)

/-- A stretch of a check of one uplink: it carries what the process remembers of the
uplink's note. -/
abbrev Checking (α : Type) := Action NoteMemory CheckCall CheckReply α

abbrev probe (request : CheckCall) : Checking (CheckReply request) := Action.ask request

def noteFile : Wiring FileCall FileReply CheckCall CheckReply where
  wrap := .file
  reply _ := Equiv.refl _

def onNote {α : Type} (action : Keeping α) : Checking α := action.through noteFile

/-- Hold the note while `body` works on it. -/
def locked {α : Type} (body : Keeping α) : Checking α := onNote do
  takeLock
  let out ← body
  releaseLock
  return out

def noteIndex (index : Index) : Checking Unit := do
  if (← get).index ≠ some index.toNat then
    let written : Bool ← probe (.putIndex index)
    if written then
      modify fun memory => { memory with index := some index.toNat }

def appendOwned (added : List Mac) : Checking Bool := do
  if added = [] then
    return true
  else
    let appended ← locked (appendOwnedLocked added)
    return appended.isSome

/-- The probe is on the note before it is on the card. -/
def noteCheckProbe (index : Index) (mac : Mac) : Checking Bool := do
  noteIndex index
  appendOwned [mac]

def forgetCheckProbe (mac : Mac) : Checking Unit := do
  if mac ∈ (← onNote withOwned) then
    locked (dropLineLocked mac)

/-- The probe comes out of the card, and off the note if it did. -/
def takeProbeOut (index : Index) (mac : Mac) : Checking Unit := do
  let answer : Except Errno Unit ← probe (.setSelfFdb index mac false)
  match answer with
  | .ok _ => forgetCheckProbe mac
  | .error _ => return

/-- The entry was accepted; whether it is listed.  A dump that failed is not an absent
entry. -/
def readProbeBack (index : Index) (mac : Mac) : Checking Bool := do
  let dump : Except Errno (List FdbEntry) ← probe .dumpFdb
  takeProbeOut index mac
  match dump with
  | .ok fdb =>
      return fdb.any fun entry => entry.isSelf && entry.ifindex == index && entry.mac == mac
  | .error _ => return false

/-- The noted probe goes to the card.  One already there is taken for what an earlier
check could not clean up. -/
def writeProbe (index : Index) (mac : Mac) : Checking Bool := do
  let answer : Except Errno Unit ← probe (.setSelfFdb index mac true)
  match answer with
  | .ok _ | .error .exists => readProbeBack index mac
  | .error _ =>
      forgetCheckProbe mac
      return false

/-- A device that is gone or has no address is skipped; a probe the note could not take
is not written. -/
def checkPair (topo : Topology) (dev : Name) : Checking Bool :=
  match topo.get dev with
  | none => return true
  | some link =>
      match link.mac with
      | none => return true
      | some mac => do
          if ← noteCheckProbe link.index (probeOf mac) then
            writeProbe link.index (probeOf mac)
          else
            return false

/-- The file of an uplink's note, and the filter lists. -/
structure Site where
  disk : Disk
  card : Index → Finset Mac

namespace Site

variable (site : Site)

/-- What the note names. -/
def names : Finset Mac := readsAs site.disk.file

def setCard (index : Index) (list : Finset Mac) : Site :=
  { site with card := Function.update site.card index list }

/-- A filter write: an addition of what is there and a removal of what is not are
refused. -/
def write (index : Index) (mac : Mac) (add : Bool) : Except Errno Unit × Site :=
  match add, decide (mac ∈ site.card index) with
  | true, true => (.error .exists, site)
  | true, false => (.ok (), site.setCard index (insert mac (site.card index)))
  | false, true => (.ok (), site.setCard index (site.card index \ {mac}))
  | false, false => (.error .noEntry, site)

end Site

/-- A call on a file goes well: every write succeeds, and only a note that holds no text
cannot be read. -/
def Disk.Goes (disk : Disk) : (request : FileCall) → FileReply request → Disk → Prop
  | .readToString, .failed, _ => ∃ file, disk.file = some file ∧ file.legible = false
  | .openAppend, done, _ | .finishLastLine, done, _ | .writeAll _, done, _ | .putFile _, done, _ => done = true
  | .removeFile, _, after => after = disk.unlink
  | _, _, _ => True

/-- A state directory that does what it is told, and no other process. -/
def faultless : Environment FileCall FileReply Disk where
  permits _ _ := True
  answers disk request reply after :=
    disk.Answers (fun _ => True) request reply after ∧ disk.Goes request reply after

/-- The kernel follows the filter lists; it may fail to dump the table. -/
def Site.Answers (site : Site) : (request : CheckCall) → CheckReply request → Site → Prop
  | .file request, reply, after =>
      ∃ disk, faultless.answers site.disk request reply disk ∧ after = { site with disk }
  | .putIndex _, written, after => written = true ∧ after = site
  | .setSelfFdb index mac add, reply, after => (reply, after) = site.write index mac add
  | .dumpFdb, _, after => after = site

def checking : Environment CheckCall CheckReply Site where
  permits _ _ := True
  answers site := site.Answers

end SriovMacSync.Cache
