import SriovMacSync.Sync.Pass

namespace SriovMacSync

open Data Netlink Interaction

/-! Answering a batch of forwarding notifications before the pass that follows:
an address learnt behind the bridge is registered, one of ours learnt on the
uplink's own port comes out. -/

/-- How soon a batch needs a full pass. -/
inductive Urgency where
  | nothing
  | whenConvenient
  | now
deriving DecidableEq, Repr

/-- Deciding collects what would be registered, stale exclusions included;
committing collects the real candidates against the fresh ones. -/
inductive FastPhase where
  | decide
  | commit
deriving DecidableEq

/-- One pair as the fast path needs it. -/
structure FastPair where
  anat : Anatomy
  reach : Reach
  dev : Name
  /-- addresses that may not be registered for this uplink -/
  skip : Finset Mac
  /-- what this very batch saw on the uplink's own port -/
  reflected : Finset Mac
  /-- the share of `skip` that came from a carried driver answer -/
  vfOwn : Finset Mac

/-- What would be registered, per uplink, with the ports it was learnt on. -/
abbrev Candidates := AList fun _ : Name => List (Mac × Index)

def Candidates.push (candidates : Candidates) (dev : Name) (mac : Mac) (port : Index) :
    Candidates :=
  candidates.insert dev ((candidates.lookup dev).getD [] ++ [(mac, port)])

def Syncer.fastPairs (syncer : Syncer) (topo : Topology) (answer : Answer) : List FastPair :=
  syncer.pairs.filterMap fun pair => do
    let dev ← topo.indexOf pair.dev
    let bridge ← topo.indexOf pair.bridge
    let anat ← topo.anatomy dev bridge
    return {
      anat
      reach := topo.reach bridge
      dev := pair.dev
      skip := syncer.exclusions topo anat answer.vfMacs
      reflected := ∅
      vfOwn := if answer.carried then vfReported anat.functions answer.vfMacs else ∅ }

/-- What this batch saw arrive on the own port of an uplink of this name. -/
def seenOnWire (pairs : List FastPair) (events : List Event) (dev : Name) : Finset Mac :=
  ((events.filter fun event =>
    event.1 = .newNeigh ∧ event.2.isLearned ∧ event.2.isUnicast ∧
      ∃ fp ∈ pairs, fp.dev = dev ∧
        (event.2.ifindex = fp.anat.port ∨ event.2.ifindex ∈ fp.anat.siblings)).map
    (·.2.mac)).toFinset

namespace Syncer

/-- What the last pass, or a reflection since, had on the wire. -/
def carriedWire (syncer : Syncer) (dev : Name) : Finset Mac :=
  ((syncer.carried dev).map (·.wire)).getD ∅

/-- One learn judged for one pair: whether it was any of its business, and the
candidates so far. -/
def fastAddPair (syncer : Syncer) (phase : FastPhase) (entry : FdbEntry) (master : Index)
    (found : Bool × Candidates) (fp : FastPair) : Bool × Candidates :=
  let (ours, candidates) := found
  if entry.ifindex ∈ fp.anat.siblings then found
  else if entry.mac ∈ fp.skip then
    -- a hit owed only to a carried driver answer may be stale: a candidate, so
    -- that the fresh question settles it
    if phase = .decide ∧ entry.mac ∈ fp.vfOwn then
      (ours, candidates.push fp.dev entry.mac entry.ifindex)
    else found
  else if entry.mac ∈ syncer.carriedWire fp.dev then (true, candidates)
  else
    match fp.reach.classify entry.ifindex master fp.anat.port with
    | .wire | .notOurs => found
    | .behind =>
        -- within one batch the wire has the last word, and the refusal counts
        if entry.mac ∈ fp.reflected then (true, candidates)
        else (true, candidates.push fp.dev entry.mac entry.ifindex)

def fastAdd (syncer : Syncer) (topo : Topology) (pairs : List FastPair) (phase : FastPhase)
    (found : Bool × Candidates) (event : Event) : Bool × Candidates :=
  match event.1, event.2.master, topo.linkAt event.2.ifindex with
  | .newNeigh, some master, some _ =>
      if event.2.isLearned ∧ event.2.mac.isRegisterable then
        pairs.foldl (syncer.fastAddPair phase event.2 master) found
      else found
  | _, _, _ => found

def fastAddAll (syncer : Syncer) (topo : Topology) (pairs : List FastPair) (phase : FastPhase)
    (events : List Event) : Bool × Candidates :=
  events.foldl (syncer.fastAdd topo pairs phase) (false, ∅)

def noLongerKept (syncer : Syncer) (dev : Name) (macs : List Mac) : Syncer :=
  match syncer.carried dev with
  | some carried =>
      syncer.setCarried dev (some { carried with quiet := carried.quiet \ macs.toFinset })
  | none => syncer

def freeSlots (syncer : Syncer) (dev : Name) (count : Nat) : Syncer :=
  match syncer.carried dev with
  | some carried =>
      syncer.setCarried dev (some { carried with occupancy := carried.occupancy - count })
  | none => syncer

def addToWire (syncer : Syncer) (dev : Name) (macs : List Mac) : Syncer :=
  let carried := (syncer.carried dev).getD {}
  syncer.setCarried dev (some { carried with wire := carried.wire ∪ macs.toFinset })

end Syncer

/-- The port memory goes with the entry, also when the removal failed: with the
memory alive a one-off failure would harden into a permanent keep. -/
def forgetReflected (topo : Topology) (dev : Name) (ours : List Mac) (freed : Nat) :
    Sync Unit := do
  if ours ≠ [] then
    modify fun syncer => ((syncer.dropPorts dev ours).noLongerKept dev ours).freeSlots dev freed
    let passed := (((← get).carried dev).map (·.passedAt)).getD 0
    savePorts dev topo passed

/-- Beyond the batch only what was actually taken out is remembered. -/
def rememberWire (dev : Name) (removed : List Mac) : Sync Unit := do
  if removed ≠ [] then
    modify (·.addToWire dev removed)

/-- Our own registrations among the addresses a batch saw on an uplink's port come
out of the filter.  Whether that wants a pass at once. -/
def reflectPair (topo : Topology) (seen : Finset Mac) (fp : FastPair) : Sync Bool := do
  if seen = ∅ then
    return false
  else
    let known ← loadOwned fp.dev
    if Disjoint seen known then
      return false
    else
      let ownedHere ← loadOwned fp.dev
      let order : Arrangement seen ← ask (.walkMacs seen)
      let ours := order.list.filter (· ∈ ownedHere)
      let retired ← retire (.retire ours) fp.dev fp.anat.dev ours
      forgetReflected topo fp.dev ours retired.removed.length
      rememberWire fp.dev retired.removed
      return !retired.removed.isEmpty || !retired.failed.isEmpty

def reflectPairs (topo : Topology) (seen : Name → Finset Mac) : List FastPair → Sync Bool
  | [] => return false
  | fp :: rest => do
      let now ← reflectPair topo (seen fp.dev) fp
      return (← reflectPairs topo seen rest) || now

/-- The candidates that are not both ours and in the card: putting one of the
others back grows nothing. -/
def growing (pairs : List FastPair) :
    List Name → Candidates → ReadBack → Sync (Except Errno (Candidates × ReadBack))
  | [], would, cache => return .ok (would, cache)
  | dev :: rest, would, cache =>
      match pairs.find? (·.dev = dev) with
      | none => growing pairs rest would cache
      | some fp => do
          match ← readBack fp.anat.dev cache with
          | .error errno => return .error errno
          | .ok (present, cache) =>
              let owned ← loadOwned dev
              let left := ((would.lookup dev).getD []).filter fun learn =>
                !(decide (learn.1 ∈ owned) && decide (learn.1 ∈ present))
              growing pairs rest (would.insert dev left) cache

def Candidates.devs (candidates : Candidates) : Finset Name :=
  (candidates.keys.filter fun dev => (candidates.lookup dev).getD [] ≠ []).toFinset

/-- A carried answer decides nothing that grows a filter: only the functions of
the pairs that would grow are asked, and the rest keep their carried entries. -/
def refreshForGrowth (topo : Topology) (pfs : List Index) (answer : Answer)
    (events : List Event) (pairs : List FastPair) :
    Sync (Except Errno (List FastPair × ReadBack)) := do
  if answer.carried then
    let would := ((← get).fastAddAll topo pairs .decide events).2
    let devs : Arrangement would.keys.toFinset ← ask (.walkNames would.keys.toFinset)
    match ← growing pairs devs.list would (fun _ => none) with
    | .error errno => return .error errno
    | .ok (would, cache) =>
        if would.devs = ∅ then
          return .ok (pairs, cache)
        else
          -- whoever comes next must not believe the carried answer if this fails
          modify fun syncer => { syncer with vfStale := true }
          let grown : Arrangement would.devs ← ask (.walkNames would.devs)
          let asked := topo.livePfs grown.list
          let reply : Except Errno (List (Index × Mac)) ← ask (.vfMacsOf asked)
          match reply with
          | .error errno => return .error errno
          | .ok reply =>
              let fresh := answer.vfMacs.filter (·.1 ∉ asked) ++ reply
              modify (·.rememberVf pfs fresh)
              let syncer ← get
              return .ok
                (pairs.map fun fp => { fp with skip := syncer.exclusions topo fp.anat fresh },
                  cache)
  else
    return .ok (pairs, fun _ => none)

/-- Surrender up to `need` kept addresses, longest silent first: card, note and
memory together.  How many slots were really freed. -/
def shedKeeps (dev : Name) (index : Index) (need : Nat) (topo : Topology)
    (onCard : Finset Mac) : Sync Nat := do
  let _ ← loadOwned dev
  if ← noteIsReadable dev then
    let syncer ← get
    match syncer.carried dev, syncer.carriedPorts dev with
    | some carried, some ports =>
        let quiet := (ascending carried.quiet).filterMap fun mac =>
          (ports.lookup mac).map fun spot => (spot.2, mac)
        let pool := quiet.filter (·.1 < carried.passedAt)
        let candidates := (bySilence pool).take need
        if candidates = [] then
          return 0
        else
          let retired ← retire (.shed (pool.map (·.2)).toFinset) dev index (candidates.map (·.2))
          if retired.dropped = [] then
            return 0
          else
            modify (·.dropPorts dev retired.dropped)
            savePorts dev topo carried.passedAt
            modify (·.noLongerKept dev retired.dropped)
            let _ ← ask (.released dev retired.dropped.toFinset)
            return (retired.dropped.filter (· ∈ onCard)).length
    | _, _ => return 0
  else
    return 0

/-- A guest that speaks is stamped now, but only once the file has been consulted
for this uplink: a map made earlier would look like memory already carried. -/
def stampLearns (dev : Name) (macs : List Mac) (learntOn : LearntAt) (now : Nat) : Sync Unit :=
  modify fun syncer =>
    if dev ∈ syncer.portsLoaded then
      syncer.setPorts dev <| some <|
        macs.foldl (fun ports mac => noteSeen ports mac (learntOn.lookup mac) now)
          ((syncer.carriedPorts dev).getD ∅)
    else syncer

/-- Make room for a burst that would not fit. -/
def makeRoom (dev : Name) (index : Index) (excess : Nat) (topo : Topology) (onCard : Finset Mac) :
    Sync Nat := do
  if 0 < excess then
    shedKeeps dev index excess topo onCard
  else
    return 0

def registerCounted (dev : Name) (index : Index) (macs : List Mac) : Sync Nat := do
  match ← registerBatchLocked dev index macs with
  | some registered => return registered.put.length
  | none => return 0

/-- The last port each address was learnt on; the last learn of a burst wins. -/
def lastPorts (learns : List (Mac × Index)) : LearntAt :=
  learns.foldl (fun table learn => table.insert learn.1 learn.2) ∅

def Syncer.leaveOccupancy (syncer : Syncer) (dev card : Name) (occupancy : Nat) : Syncer :=
  syncer.setCarried dev (some { (syncer.carried dev).getD {} with card, occupancy })

/-- What a batch registers on one uplink, the card's room measured against its own
list. -/
def registerLearns (topo : Topology) (fp : FastPair) (learns : List (Mac × Index))
    (cache : ReadBack) : Sync (Except Errno ReadBack) := do
  let dev := fp.dev
  let learntOn := lastPorts learns
  let macs := ascending learntOn.keys.toFinset
  let now : Nat ← ask .bootMillis
  stampLearns dev macs learntOn now
  match ← readBack fp.anat.card cache with
  | .error errno => return .error errno
  | .ok (onCard, cache) =>
      let card := (topo.nameOf fp.anat.card).getD dev
      let limit := (← get).limitOf card
      let freshSlots := macs.filter (· ∉ onCard)
      let excess := onCard.card + freshSlots.length - (limit - headroom limit)
      let freed ← makeRoom dev fp.anat.dev excess topo onCard
      noteIndex dev fp.anat.dev
      let put ← registerCounted dev fp.anat.dev macs
      modify (·.leaveOccupancy dev card (onCard.card - freed + put))
      return .ok cache

def registerEach (topo : Topology) (pairs : List FastPair) (candidates : Candidates) :
    List Name → ReadBack → Sync (Except Errno Unit)
  | [], _ => return .ok ()
  | dev :: rest, cache =>
      match pairs.find? (·.dev = dev) with
      | none => registerEach topo pairs candidates rest cache
      | some fp => do
          match ← registerLearns topo fp ((candidates.lookup dev).getD []) cache with
          | .error errno => return .error errno
          | .ok cache => registerEach topo pairs candidates rest cache

/-- The learns of a batch: reflections first, for within one batch the wire has
the last word, then what is to be registered. -/
def applyLearns (topo : Topology) (events : List Event) (urgency : Urgency) :
    Sync (Except Errno Urgency) := do
  let pfs := topo.livePfs ((← get).pairs.map (·.dev))
  match ← askDriver pfs with
  | .error errno => return .error errno
  | .ok answer =>
      let pairs := (← get).fastPairs topo answer
      let seen := seenOnWire pairs events
      let reflected ← reflectPairs topo seen pairs
      let pairs := pairs.map fun fp => { fp with reflected := seen fp.dev }
      match ← refreshForGrowth topo pfs answer events pairs with
      | .error errno => return .error errno
      | .ok (pairs, cache) =>
          let (ours, candidates) := (← get).fastAddAll topo pairs .commit events
          let devs : Arrangement candidates.keys.toFinset ←
            ask (.walkNames candidates.keys.toFinset)
          match ← registerEach topo pairs candidates devs.list cache with
          | .error errno => return .error errno
          | .ok _ => return .ok (if reflected || ours then .now else urgency)

/-- Date the deletions of a batch; whether it has any. -/
def dateDeletions (topo : Topology) (events : List Event) : Sync Urgency := do
  if ∃ event ∈ events, event.1 = .delNeigh then
    dateTheSilence topo events
    return .whenConvenient
  else
    return .nothing

/-- Answer a batch of forwarding notifications.  A deletion is a reason to look,
never to hurry. -/
def fastApply (topo : Topology) (events : List Event) : Sync (Except Errno Urgency) := do
  if events = [] then
    return .ok .nothing
  else if (← get).dryRun then
    return .ok .now
  else
    let urgency ← dateDeletions topo events
    if ∃ event ∈ events, event.1 = .newNeigh then
      applyLearns topo events urgency
    else
      return .ok urgency

section Facts

variable {syncer : Syncer} {topo : Topology} {phase : FastPhase}

/-- When a learn becomes a candidate for a pair. -/
def Syncer.Considers (syncer : Syncer) (phase : FastPhase) (entry : FdbEntry) (master : Index)
    (fp : FastPair) : Prop :=
  entry.ifindex ∉ fp.anat.siblings ∧
    (entry.mac ∈ fp.skip ∧ phase = .decide ∧ entry.mac ∈ fp.vfOwn ∨
      entry.mac ∉ fp.skip ∧ entry.mac ∉ syncer.carriedWire fp.dev ∧
        fp.reach.classify entry.ifindex master fp.anat.port = .behind ∧ entry.mac ∉ fp.reflected)

/-- A learn the fast path judges at all, and the bridge that recorded it. -/
def Learns (topo : Topology) (event : Event) (master : Index) : Prop :=
  event.1 = .newNeigh ∧ event.2.master = some master ∧
    (topo.linkAt event.2.ifindex).isSome ∧ event.2.isLearned ∧ event.2.mac.isRegisterable

def Candidates.holds (candidates : Candidates) (dev : Name) (learn : Mac × Index) : Prop :=
  learn ∈ (candidates.lookup dev).getD []

theorem holds_push {candidates : Candidates} {dev other : Name} {mac : Mac} {port : Index}
    {learn : Mac × Index} :
    (candidates.push dev mac port).holds other learn ↔
      candidates.holds other learn ∨ other = dev ∧ learn = (mac, port) := by
  unfold Candidates.holds Candidates.push
  by_cases same : other = dev
  · subst same
    simp [AList.lookup_insert]
  · simp [AList.lookup_insert_ne same, same]

theorem holds_fastAddPair {entry : FdbEntry} {master : Index} {found : Bool × Candidates}
    {fp : FastPair} {dev : Name} {learn : Mac × Index} :
    (syncer.fastAddPair phase entry master found fp).2.holds dev learn ↔
      found.2.holds dev learn ∨
        (dev = fp.dev ∧ learn = (entry.mac, entry.ifindex) ∧
          syncer.Considers phase entry master fp) := by
  obtain ⟨ours, candidates⟩ := found
  simp only [Syncer.fastAddPair, Syncer.Considers]
  split
  · simp_all
  · split
    · split
      · simp_all [holds_push]
      · simp_all
    · split
      · simp_all
      · split
        · simp_all
        · simp_all
        · split <;> simp_all [holds_push]

theorem holds_foldl_fastAddPair {entry : FdbEntry} {master : Index} {pairs : List FastPair}
    {found : Bool × Candidates} {dev : Name} {learn : Mac × Index} :
    (pairs.foldl (syncer.fastAddPair phase entry master) found).2.holds dev learn ↔
      found.2.holds dev learn ∨
        ∃ fp ∈ pairs, dev = fp.dev ∧ learn = (entry.mac, entry.ifindex) ∧
          syncer.Considers phase entry master fp := by
  induction pairs generalizing found with
  | nil => simp
  | cons fp rest ih => simp [ih, holds_fastAddPair, or_assoc]

theorem holds_fastAdd {pairs : List FastPair} {found : Bool × Candidates} {event : Event}
    {dev : Name} {learn : Mac × Index} :
    (syncer.fastAdd topo pairs phase found event).2.holds dev learn ↔
      found.2.holds dev learn ∨
        ∃ master fp, Learns topo event master ∧ fp ∈ pairs ∧ dev = fp.dev ∧
          learn = (event.2.mac, event.2.ifindex) ∧ syncer.Considers phase event.2 master fp := by
  unfold Syncer.fastAdd Learns
  split
  · rename_i master link kind above known
    split
    · rename_i judged
      simp [holds_foldl_fastAddPair, kind, above, known, judged]
    · rename_i ignored
      simp only [kind, above, known]
      constructor
      · exact .inl
      · rintro (held | ⟨master, fp, ⟨-, -, -, judged⟩, -⟩)
        · exact held
        · exact absurd judged ignored
  · rename_i ignored
    constructor
    · exact .inl
    · rintro (held | ⟨master, fp, ⟨kind, above, known, -⟩, -⟩)
      · exact held
      · obtain ⟨link, found⟩ := Option.isSome_iff_exists.mp known
        exact (ignored master link kind above found).elim

/-- The candidates of a batch are exactly the learns some pair considers. -/
theorem holds_fastAddAll {pairs : List FastPair} {events : List Event} {dev : Name}
    {learn : Mac × Index} :
    (syncer.fastAddAll topo pairs phase events).2.holds dev learn ↔
      ∃ event ∈ events, ∃ master fp, Learns topo event master ∧ fp ∈ pairs ∧ dev = fp.dev ∧
        learn = (event.2.mac, event.2.ifindex) ∧ syncer.Considers phase event.2 master fp := by
  have step : ∀ (events : List Event) (found : Bool × Candidates),
      (events.foldl (syncer.fastAdd topo pairs phase) found).2.holds dev learn ↔
        found.2.holds dev learn ∨
          ∃ event ∈ events, ∃ master fp, Learns topo event master ∧ fp ∈ pairs ∧ dev = fp.dev ∧
            learn = (event.2.mac, event.2.ifindex) ∧
              syncer.Considers phase event.2 master fp := by
    intro events
    induction events with
    | nil => simp
    | cons event rest ih =>
        intro found
        rw [List.foldl_cons, ih, holds_fastAdd, or_assoc]
        simp only [List.exists_mem_cons_iff]
  exact (step events (false, ∅)).trans (by simp [Candidates.holds])

/-- What a pair of the fast path was made from. -/
theorem mem_fastPairs {answer : Answer} {fp : FastPair} (member : fp ∈ syncer.fastPairs topo answer) :
    ∃ pair ∈ syncer.pairs, ∃ index bridge, pair.dev = fp.dev ∧ topo.indexOf fp.dev = some index ∧
      topo.indexOf pair.bridge = some bridge ∧ topo.anatomy index bridge = some fp.anat ∧
      fp.reach = topo.reach bridge ∧ fp.skip = syncer.exclusions topo fp.anat answer.vfMacs ∧
      fp.vfOwn = if answer.carried then vfReported fp.anat.functions answer.vfMacs else ∅ := by
  obtain ⟨pair, inPairs, made⟩ := List.mem_filterMap.mp member
  simp only [Option.bind_eq_bind, Option.bind_eq_some_iff, Option.pure_def, Option.some.injEq] at made
  obtain ⟨index, found, bridge, below, anat, located, rfl⟩ := made
  exact ⟨pair, inPairs, index, bridge, rfl, found, below, located, rfl, rfl, rfl⟩

end Facts

end SriovMacSync
