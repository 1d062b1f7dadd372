import Mathlib.Data.Char
import Mathlib.Data.List.Lex
import SriovMacSync.Sync.Notes

namespace SriovMacSync

open Data Netlink Interaction

/-! The quiet memory: behind which port each owned address was last learnt, in
the process and in the file beside the note. -/

/-- One line of the memory file. -/
structure PortsLine where
  mac : Mac
  name : Name
  index : Index
  seen : Nat
deriving DecidableEq, Repr

def portsFormat : Text := "sriov-mac-sync ports 3".toList

def fieldsOf (mac : Mac) (name : Name) (index : Index) (last : Nat) : List Text :=
  [formatMac mac, name.toList, decimal index.toNat, decimal last]

def portsLine (mac : Mac) (name : Name) (index : Index) (seen : Nat) : Text :=
  [' '].intercalate (fieldsOf mac name index seen)

/-- What a rewrite is for, without the stamp: which address, behind which port,
quiet or not. -/
def portsKey (mac : Mac) (name : Name) (index : Index) (quiet : Bool) : Text :=
  [' '].intercalate (fieldsOf mac name index quiet.toNat)

def parseIndex (text : Text) : Option Index :=
  (parseDecimal text).bind fun value =>
    if value < UInt32.size then some (UInt32.ofNat value) else none

def parsePortsLine (line : Text) : Option PortsLine :=
  match splitWhitespace line with
  | mac :: name :: index :: seen :: _ =>
      match parseMac mac, parseIndex index, parseDecimal seen with
      | some mac, some index, some seen => some ⟨mac, String.ofList name, index, seen⟩
      | _, _, _ => none
  | _ => none

/-- An unrecognised file is no memory. -/
def parsePorts (text : Text) : List PortsLine :=
  match lines text with
  | first :: rest => if first = portsFormat then rest.filterMap parsePortsLine else []
  | [] => []

def readPorts (dev : Name) : Sync (List PortsLine) := do
  let text : Option Text ← ask (.readPorts dev)
  return (text.map parsePorts).getD []

def writePorts (dev : Name) (lines : List Text) : Sync Bool :=
  ask (.putPorts dev (joinLines (portsFormat :: lines)))

/-- The rows of a memory whose port still has a name, written by `write`. -/
def rowsOf (topo : Topology) (ports : PortMap) (write : Mac → Name → Index → Nat → Text) :
    List Text :=
  (ports.entries.filterMap fun row =>
    (topo.nameOf row.2.1).map fun name => write row.1 name row.2.1 row.2.2).insertionSort (· ≤ ·)

def linesOf (topo : Topology) (ports : PortMap) : List Text := rowsOf topo ports portsLine

def keysOf (topo : Topology) (ports : PortMap) (passAt : Nat) : List Text :=
  rowsOf topo ports fun mac name index seen => portsKey mac name index (seen < passAt)

/-- Stamps from the future are shifted back, as one: clamping would lose the
order between them. -/
def takeOver (read : List PortsLine) (now : Nat) : PortMap :=
  let ahead := (read.map (·.seen)).foldl max 0 - now
  read.foldl (fun ports line => ports.insert line.mac (line.index, line.seen - ahead)) ∅

def newestSeen (ports : PortMap) : Nat := (ports.entries.map (·.2.2)).foldl max 0

/-- Take the previous process's quiet memory, once per uplink per run.  A line
is believed only while its port's name still carries the recorded index. -/
def loadPorts (dev : Name) (topo : Topology) : Sync Unit := do
  let syncer ← get
  if dev ∈ syncer.portsLoaded then
    return
  else
    modify fun syncer => { syncer with portsLoaded := insert dev syncer.portsLoaded }
    -- a map already carried is ahead of any file
    if (syncer.carriedPorts dev).isSome then
      return
    else
      let now : Nat ← ask .bootMillis
      let read ← readPorts dev
      let ports := takeOver (read.filter fun line => topo.indexOf line.name = some line.index) now
      if ports.entries ≠ [] then
        modify fun syncer =>
          (syncer.setPorts dev (some ports)).setPortsWritten dev
            (some (keysOf topo ports (newestSeen ports)))

/-- Whether the file is still the shape the memo claims: one look at the file,
and only where the memo would spare the write. -/
def memoHolds (dev : Name) (keys : List Text) (empty : Bool) : Sync Bool := do
  if (← get).portsWritten dev = some keys then
    let present : Bool ← ask (.portsExist dev)
    return present != empty
  else
    return false

/-- Nothing to remember is no file. -/
def replacePorts (dev : Name) (lines : List Text) : Sync Bool := do
  if lines.isEmpty then
    let removed : Bool ← ask (.removePorts dev)
    if removed then
      return true
    else
      let present : Bool ← ask (.portsExist dev)
      return !present
  else
    writePorts dev lines

/-- Write the quiet memory down for whoever runs next, when it changed.  Look and
write are one locked stretch; nothing in the map may only mean that nobody has
looked at the file yet, and then the file is left alone. -/
def savePorts (dev : Name) (topo : Topology) (passAt : Nat) : Sync Unit := do
  let syncer ← get
  if syncer.dryRun ∨ (dev ∉ syncer.portsLoaded ∧ syncer.carriedPorts dev = none) then
    return
  else
    let ports := (syncer.carriedPorts dev).getD ∅
    let lines := linesOf topo ports
    let keys := keysOf topo ports passAt
    let wrote : Option Bool ← locked dev .ports do
      if ← memoHolds dev keys lines.isEmpty then
        return none
      else
        return some (← replacePorts dev lines)
    match wrote with
    | none => return
    | some wrote => modify (·.setPortsWritten dev (if wrote then some keys else none))

/-- Record an observation about an owned address.  A stamp only moves forward,
and an address nothing knows a port for is not recorded. -/
def noteSeen (ports : PortMap) (mac : Mac) (port : Option Index) (seen : Nat) : PortMap :=
  match ports.lookup mac with
  | some (known, stamp) => ports.insert mac (port.getD known, max stamp seen)
  | none =>
      match port with
      | some port => ports.insert mac (port, seen)
      | none => ports

namespace Syncer

/-- The uplinks whose bridge a deletion's bridge sits on top of. -/
def servedBy (syncer : Syncer) (topo : Topology) (master : Index) : List Name :=
  (syncer.pairs.filter fun pair =>
    match topo.indexOf pair.bridge with
    | some bridge => topo.leadsTo master bridge
    | none => false).map (·.dev)

def dateOne (topo : Topology) (now : Nat) (syncer : Syncer) (event : Event) : Syncer :=
  match event.1, event.2.master with
  | .delNeigh, some master =>
      match (topo.linkAt master).bind (·.ageingMs) with
      | some ageing =>
          (syncer.servedBy topo master).foldl (fun syncer dev =>
            match syncer.carriedPorts dev with
            | some ports => syncer.setPorts dev (some (noteSeen ports event.2.mac none (now - ageing)))
            | none => syncer) syncer
      | none => syncer
  | _, _ => syncer

end Syncer

/-- Put a date on a silence the bridge has just announced: the guest last spoke
one ageing time ago. -/
def dateTheSilence (topo : Topology) (events : List Event) : Sync Unit := do
  let now : Nat ← ask .bootMillis
  modify fun syncer => events.foldl (Syncer.dateOne topo now) syncer

end SriovMacSync
