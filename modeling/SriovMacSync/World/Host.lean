import Mathlib.Data.String.Basic
import SriovMacSync.Interaction.Execution
import SriovMacSync.Sync.Flush

namespace SriovMacSync

open Data Netlink Interaction

/-- The kernel and the state directory as one process finds them. -/
structure Host where
  topo : Topology
  /-- the filter list of each interface -/
  card : Index → Finset Mac := fun _ => ∅
  /-- what the bridges hold -/
  learnt : List FdbEntry := []
  /-- what the driver says about the virtual functions -/
  vfs : List (Index × Mac) := []
  clock : Nat := 1
  notes : AList fun _ : Name => List Mac := ∅
  records : Name → Option Index := fun _ => none
  ports : Name → Option Text := fun _ => none

def Call.adds : Call → Bool
  | .setSelfFdb _ _ true => true
  | _ => false

def arrangeAscending {α : Type} [LinearOrder α] (set : Finset α) : Arrangement set where
  list := ascending set
  nodup := nodup_ascending set
  mem_iff _ := mem_ascending

namespace Host

variable (host : Host)

def selfEntry (index : Index) (mac : Mac) : FdbEntry :=
  { ifindex := index, master := none, mac, state := nudPermanent, flags := ntfSelf }

def listOf (index : Index) : List FdbEntry := (ascending (host.card index)).map (selfEntry index)

def dump : List FdbEntry :=
  host.learnt ++ host.topo.links.flatMap fun link => host.listOf link.index

def setNote (dev : Name) (note : Option (List Mac)) : Host :=
  { host with
    notes :=
      match note with
      | some macs => host.notes.insert dev macs
      | none => host.notes.erase dev }

def setRecord (dev : Name) (record : Option Index) : Host :=
  { host with records := Function.update host.records dev record }

def setPorts (dev : Name) (ports : Option Text) : Host :=
  { host with ports := Function.update host.ports dev ports }

def setCard (index : Index) (list : Finset Mac) : Host :=
  { host with card := Function.update host.card index list }

/-- A filter write: an addition of what is there and a removal of what is not are
refused. -/
def write (index : Index) (mac : Mac) (add : Bool) : Except Errno Unit × Host :=
  match add, decide (mac ∈ host.card index) with
  | true, true => (.error .exists, host)
  | true, false => (.ok (), host.setCard index (insert mac (host.card index)))
  | false, true => (.ok (), host.setCard index (host.card index \ {mac}))
  | false, false => (.error .noEntry, host)

/-- A host on which everything works. -/
def answer : Handler Call Reply Host
  | host, .dumpFdb => (.ok host.dump, host)
  | host, .dumpFdbOf index => (.ok (host.dump.filter (·.ifindex == index)), host)
  | host, .dumpLinks => (.ok host.topo, host)
  | host, .vfMacsOf pfs => (.ok (host.vfs.filter (·.1 ∈ pfs)), host)
  | host, .setSelfFdb index mac add => host.write index mac add
  | host, .bootMillis => (host.clock, { host with clock := host.clock + 1 })
  | host, .now => (host.clock, host)
  | host, .walkMacs set => (arrangeAscending set, host)
  | host, .walkNames set => (arrangeAscending set, host)
  | host, .lock .. => ((), host)
  | host, .unlock _ => ((), host)
  | host, .listNotes => (.ok host.notes.keys, host)
  | host, .readNote dev =>
      ((host.notes.lookup dev).elim .absent fun macs => .lines macs true, host)
  | host, .putNote dev macs => (true, host.setNote dev (some macs))
  | host, .appendNote dev macs =>
      (true, host.setNote dev (some ((host.notes.lookup dev).getD [] ++ macs)))
  | host, .removeNote dev => ((), host.setNote dev none)
  | host, .readIndex dev => (host.records dev, host)
  | host, .putIndex dev index => (true, host.setRecord dev (some index))
  | host, .removeIndex dev => ((), host.setRecord dev none)
  | host, .readPorts dev => (host.ports dev, host)
  | host, .portsExist dev => ((host.ports dev).isSome, host)
  | host, .putPorts dev text => (true, host.setPorts dev (some text))
  | host, .removePorts dev => ((host.ports dev).isSome, host.setPorts dev none)
  | host, .released .. => ((), host)

end Host

/-- An uplink and a guest port under one bridge. -/
def bridgedTopology : Topology where
  links := [
    { name := "nic1", index := 2, mac := some ⟨2, 0, 0, 0, 0, 0x10⟩, master := some 10, numvfs := 1 },
    { name := "vetha", index := 4, master := some 10 },
    { name := "br0", index := 10, isBridge := true, lowers := [2, 4] }]
  distinct := by decide

def guest : Mac := ⟨2, 0, 0, 0, 0, 1⟩

/-- The bridge learnt `guest` behind the guest port. -/
def guestLearnt : FdbEntry :=
  { ifindex := 4, master := some 10, mac := guest, state := 0, flags := 0 }

def bridgedHost : Host := { topo := bridgedTopology, learnt := [guestLearnt] }

/-- The same host with every guest silent. -/
def quietHost : Host := { topo := bridgedTopology }

def bridgedSyncer : Syncer := { pairs := [⟨"nic1", "br0"⟩] }

end SriovMacSync
