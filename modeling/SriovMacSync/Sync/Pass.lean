import SriovMacSync.Sync.Orphans

namespace SriovMacSync

open Data Netlink Interaction

/-! One full reconciliation against a fresh dump. -/

/-- The driver's answer a pass or a batch works from, and whether it was carried
over rather than asked for. -/
structure Answer where
  vfMacs : List (Index × Mac)
  carried : Bool

/-- The carried answer where it fits, else a fresh one.  A failed question is an
error and never an empty answer. -/
def askDriver (pfs : List Index) : Sync (Except Errno Answer) := do
  match (← get).carriedVfFor pfs with
  | some kept => return .ok ⟨kept, true⟩
  | none =>
      let fresh : Except Errno (List (Index × Mac)) ← ask (.vfMacsOf pfs)
      match fresh with
      | .error errno => return .error errno
      | .ok fresh =>
          modify (·.rememberVf pfs fresh)
          return .ok ⟨fresh, false⟩

/-- What is fixed for the whole of one pass. -/
structure Reading where
  topo : Topology
  apply : Bool
  fdb : List FdbEntry
  pfs : List Index
  passAt : Nat

structure Report where
  dev : Name
  bridge : Name
  port : Name
  driver : String
  /-- how many addresses this uplink's filter should hold -/
  wanted : Nat
  owned : Nat
  present : Nat
  stacked : List Name
  added : Nat
  removed : Nat
  foreign : Nat
  /-- aged out of the bridge, kept because their guest ports live on -/
  quiet : Nat

/-- A note found by name has to be about this interface.  A name re-used within
one boot would otherwise wear the departed interface's note.  Whether the pass
may go on with the pair. -/
def settleName (reading : Reading) (dev : Name) (index : Index) : Sync Bool := do
  let recorded ← recordedIndex dev
  if recorded = none ∨ recorded = some index then
    return true
  else if !reading.apply ∨ (← get).dryRun then
    return false
  else
    match ← renamedTarget dev reading.topo with
    | some (target, newName) => followRename dev newName target reading.topo
    | none =>
        locked dev .reused (removeNote dev)
        modify fun syncer => (syncer.forgetUplink dev).sawNote dev true
        return true

/-- Whether something is kept now that the last pass over this uplink did not
keep. -/
def Syncer.newlyQuiet (syncer : Syncer) (dev : Name) (kept : Finset Mac) : Prop :=
  match syncer.carried dev with
  | some carried => ¬ kept ⊆ carried.quiet
  | none => kept ≠ ∅

instance (syncer : Syncer) (dev : Name) (kept : Finset Mac) :
    Decidable (syncer.newlyQuiet dev kept) := by
  unfold Syncer.newlyQuiet
  split <;> infer_instance

/-- What the filter should hold.  A carried answer decides nothing that grows a
filter: an addition, or an address entering the kept state, buys a fresh
question and the same asking again. -/
def decideWanted (reading : Reading) (dev : Name) (anat : Anatomy) (answer : Answer)
    (ownedBefore : Finset Mac) : Sync (Except Errno (Wanted × Answer)) := do
  let syncer ← get
  let wanted := syncer.wantedWithKeeps reading.topo anat reading.fdb answer.vfMacs ownedBefore
  if answer.carried ∧
      (syncer.newlyQuiet dev wanted.kept ∨ ¬ wanted.want ⊆ selfList reading.fdb anat.dev) then
    -- if the question fails, the next pass must not trust the answer either
    modify fun syncer => { syncer with vfStale := true }
    let fresh : Except Errno (List (Index × Mac)) ← ask (.vfMacsOf reading.pfs)
    match fresh with
    | .error errno => return .error errno
    | .ok fresh =>
        modify (·.rememberVf reading.pfs fresh)
        return .ok
          (syncer.wantedWithKeeps reading.topo anat reading.fdb fresh ownedBefore, ⟨fresh, false⟩)
  else
    return .ok (wanted, answer)

/-- What the valve leaves of the wanted set. -/
structure Relieved where
  want : Finset Mac
  kept : Finset Mac
  /-- the kept addresses surrendered -/
  shed : List Mac
  /-- the slots taken on the card once they are gone -/
  occupied : Nat
  card : Name

def Syncer.relieve (syncer : Syncer) (reading : Reading) (dev : Name) (anat : Anatomy)
    (wanted : Wanted) (ownedBefore : Finset Mac) : Relieved :=
  let foreignExtra :=
    (selfList reading.fdb anat.card).filter fun mac => mac ∉ wanted.want ∧ mac ∉ ownedBefore
  let occupied := wanted.want.card + foreignExtra.card
  let card := (reading.topo.nameOf anat.card).getD dev
  let shed := syncer.pressAtPass dev card occupied wanted.kept
  { want := wanted.want \ shed.toFinset
    kept := wanted.kept \ shed.toFinset
    shed
    occupied := occupied - shed.length
    card }

def reportReleased (apply : Bool) (dev : Name) (shed : List Mac) : Sync Unit := do
  if apply ∧ shed ≠ [] then
    let _ ← ask (.released dev shed.toFinset)

/-- Record which interface a note is about, only where a note exists or is about
to. -/
def recordOwner (needed : Bool) (dev : Name) (index : Index) : Sync Unit := do
  if needed then
    noteIndex dev index

/-- The additions of a pass; what really went into the card. -/
def registerMissing (act : Bool) (dev : Name) (index : Index) (toAdd : List Mac) :
    Sync (List Mac) := do
  if act ∧ toAdd ≠ [] then
    match ← registerBatchLocked dev index toAdd with
    | some registered => return registered.put
    | none => return []
  else
    return []

def Syncer.dropPorts (syncer : Syncer) (dev : Name) (macs : List Mac) : Syncer :=
  match syncer.carriedPorts dev with
  | some ports => syncer.setPorts dev (some (retain (· ∉ macs) ports))
  | none => syncer

/-- The removals of a pass.  A refused removal keeps its line for the retry and
loses its port memory, or it would be re-adopted as a quiet keep. -/
def retireStale (act : Bool) (dev : Name) (index : Index) (stale : List Mac) : Sync Retired := do
  if act ∧ stale ≠ [] then
    let retired ← retire (.retire stale) dev index stale
    modify (·.dropPorts dev (retired.failed.map (·.1)))
    return retired
  else
    return ⟨[], [], []⟩

def mergeOwned (apply : Bool) (dev : Name) (before after : Finset Mac) : Sync Unit := do
  if apply ∧ after ≠ before then
    saveOwnedMerged dev before after

/-- What a pass did to a filter and its note. -/
structure Settled where
  owned : Finset Mac
  added : Nat
  removed : Nat
  foreign : Nat

/-- Additions, removals, and the note as the difference made. -/
def settleCard (reading : Reading) (dev : Name) (index : Index) (want ownedBefore : Finset Mac) :
    Sync Settled := do
  let act := reading.apply && !(← get).dryRun
  let present := selfList reading.fdb index
  let wantOrder : Arrangement want ← ask (.walkMacs want)
  let toAdd := wantOrder.list.filter (· ∉ present)
  recordOwner (act && !(decide (ownedBefore = ∅) && toAdd.isEmpty)) dev index
  let put ← registerMissing act dev index toAdd
  let owned := ownedBefore ∪ put.toFinset
  let ownedOrder : Arrangement owned ← ask (.walkMacs owned)
  let stale := ownedOrder.list.filter (· ∉ want)
  let retired ← retireStale act dev index stale
  let after := owned \ retired.dropped.toFinset
  mergeOwned reading.apply dev ownedBefore after
  return {
    owned := after
    added := if act then put.length else toAdd.length
    removed := if act then retired.dropped.length else stale.length
    foreign := ((want ∩ present) \ ownedBefore).card }

/-- The port memory after a pass: what the dump found learnt was seen just now,
and only owned addresses are remembered. -/
def PortMap.follow (ports : PortMap) (learntAt : LearntAt) (passAt : Nat) (owned : Finset Mac) :
    PortMap :=
  retain (· ∈ owned)
    (learntAt.entries.foldl (fun ports row => noteSeen ports row.1 (some row.2) passAt) ports)

/-- The memory follows the pass, unless the note could not be read: pruning
against the set that could not be told would erase it. -/
def refreshMemory (reading : Reading) (dev : Name) (readable : Bool) (learntAt : LearntAt)
    (owned : Finset Mac) : Sync Unit := do
  if readable then
    modify fun syncer =>
      syncer.setPorts dev
        (some (PortMap.follow ((syncer.carriedPorts dev).getD ∅) learntAt reading.passAt owned))
    if reading.apply then
      savePorts dev reading.topo reading.passAt

/-- A pass that could not read its note refreshed no stamp, so it must not
advance the ground they are judged against either. -/
def Syncer.leaveCarried (syncer : Syncer) (reading : Reading) (dev : Name) (relieved : Relieved)
    (wire : Finset Mac) (readable : Bool) : Syncer :=
  syncer.setCarried dev <| some {
    card := relieved.card
    occupancy := relieved.occupied
    quiet := relieved.kept
    wire
    passedAt :=
      if readable then reading.passAt else ((syncer.carried dev).map (·.passedAt)).getD 0 }

/-- One uplink of a pass, its name settled. -/
def passUplink (reading : Reading) (pair : Pair) (link : Link) (anat : Anatomy)
    (answer : Answer) : Sync (Except Errno (Option Report × Answer)) := do
  let dev := pair.dev
  loadPorts dev reading.topo
  let ownedBefore ← loadOwned dev
  let readable ← noteIsReadable dev
  match ← decideWanted reading dev anat answer ownedBefore with
  | .error errno => return .error errno
  | .ok (wanted, answer) =>
      let relieved := (← get).relieve reading dev anat wanted ownedBefore
      reportReleased reading.apply dev relieved.shed
      let settled ← settleCard reading dev anat.dev relieved.want ownedBefore
      refreshMemory reading dev readable wanted.learntAt settled.owned
      modify (·.leaveCarried reading dev relieved wanted.wire readable)
      let report : Report := {
        dev
        bridge := pair.bridge
        port := (reading.topo.nameOf anat.port).getD dev
        driver := link.driver.getD ""
        wanted := relieved.want.card
        owned := settled.owned.card
        present := (selfList reading.fdb anat.dev).card
        stacked := wanted.stacked
        added := settled.added
        removed := settled.removed
        foreign := settled.foreign
        quiet := relieved.kept.card }
      return .ok (some report, answer)

/-- One pair of a pass.  A device that is gone, a bridge that is missing and a
detached device are moments to wait out. -/
def passPair (reading : Reading) (pair : Pair) (answer : Answer) :
    Sync (Except Errno (Option Report × Answer)) := do
  match reading.topo.get pair.dev, reading.topo.indexOf pair.bridge with
  | some link, some bridge =>
      match reading.topo.anatomy link.index bridge with
      | some anat =>
          if ← settleName reading pair.dev link.index then
            passUplink reading pair link anat answer
          else
            return .ok (none, answer)
      | none => return .ok (none, answer)
  | _, _ => return .ok (none, answer)

def passPairs (reading : Reading) : List Pair → Answer → Sync (Except Errno (List Report))
  | [], _ => return .ok []
  | pair :: rest, answer => do
      match ← passPair reading pair answer with
      | .error errno => return .error errno
      | .ok (report, answer) =>
          match ← passPairs reading rest answer with
          | .error errno => return .error errno
          | .ok reports => return .ok (report.toList ++ reports)

/-- The stamp of a pass, strictly after the last one's. -/
def stampPass : Sync Nat := do
  let clock : Nat ← ask .bootMillis
  let passAt := max clock ((← get).lastPassAt + 1)
  modify fun syncer => { syncer with lastPassAt := passAt }
  return passAt

/-- One full reconciliation.  No pairs is not nothing to do: notes outlive the
last pair. -/
def reconcile (apply : Bool) (topo : Topology) : Sync (Except Errno (List Report)) := do
  let pairs := (← get).pairs
  if pairs = [] then
    dropOrphans topo apply
    return .ok []
  else
    let dump : Except Errno (List FdbEntry) ← ask .dumpFdb
    match dump with
    | .error errno => return .error errno
    | .ok fdb =>
        let pfs := topo.livePfs (pairs.map (·.dev))
        match ← askDriver pfs with
        | .error errno => return .error errno
        | .ok answer =>
            let passAt ← stampPass
            dropOrphans topo apply
            passPairs { topo, apply, fdb, pfs, passAt } pairs answer

end SriovMacSync
