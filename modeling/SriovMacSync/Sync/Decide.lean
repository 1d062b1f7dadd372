import SriovMacSync.Sync.Ports

namespace SriovMacSync

open Data Netlink Interaction

/-! What an uplink's filter should hold: decided from a reading, a dump, the
driver's answer and the memory, without asking anybody. -/

/-- The addresses the driver reports for the virtual functions behind an
uplink. -/
def vfReported (functions : List Index) (vfMacs : List (Index × Mac)) : Finset Mac :=
  ((vfMacs.filter (·.1 ∈ functions)).map (·.2)).toFinset

/-- The table of the last port each address was learnt on. -/
abbrev LearntAt := AList fun _ : Mac => Index

structure Desired where
  want : Finset Mac
  /-- the bridges stacked on this one, for the report -/
  stacked : List Name
  wire : Finset Mac
  learntAt : LearntAt

/-- What a pass decided an uplink's filter should hold. -/
structure Wanted extends Desired where
  /-- the owned addresses kept through their silence -/
  kept : Finset Mac

def capacityHeadroom : Nat := 4

def headroom (limit : Nat) : Nat := min capacityHeadroom (limit - 1)

namespace Syncer

variable (syncer : Syncer) (topo : Topology) (anat : Anatomy)

/-- The addresses that must never be registered for an uplink, wherever
learnt. -/
def exclusions (vfMacs : List (Index × Mac)) : Finset Mac :=
  syncer.exclude ∪ topo.subtreeMacs anat.port ∪
    (((topo.linkAt anat.dev).bind (·.mac)).toList).toFinset ∪
    vfReported anat.functions vfMacs ∪
    (anat.functions.flatMap fun pf =>
      match topo.linkAt pf with
      | some link =>
          link.mac.toList ++ link.vfNetdevs.filterMap fun vf => (topo.linkAt vf).bind (·.mac)
      | none => []).toFinset

/-- What one dump entry is to a pair, with the wire and the wanted addresses
and the ports gathered so far. -/
def classifyEntry (reach : Reach) (found : Finset Mac × Finset Mac × LearntAt)
    (entry : FdbEntry) : Finset Mac × Finset Mac × LearntAt :=
  let (wire, want, learntAt) := found
  if !entry.isLearned || !entry.isUnicast then found
  else
    match entry.master with
    | none => found
    | some master =>
        -- a sibling vport of the same card faces the same cable
        if entry.ifindex ∈ anat.siblings then (insert entry.mac wire, want, learntAt)
        else
          match reach.classify entry.ifindex master anat.port with
          | .wire => (insert entry.mac wire, want, learntAt)
          | .behind =>
              (wire, insert entry.mac want, learntAt.insert entry.mac entry.ifindex)
          | .notOurs => found

/-- The host's own addresses on this bridge and on what is stacked above it. -/
def ward : Finset Mac :=
  ((((topo.linkAt anat.bridge).bind (·.mac)).toList ++
    ((topo.links.filter fun link =>
      link.index ∈ topo.stackedAbove anat.bridge ∧ link.index ≠ anat.bridge).filterMap
        (·.mac)))).toFinset

/-- The addresses that belong in the filter, and the ones that must stay out of
it. -/
def desired (reach : Reach) (skip : Finset Mac) (fdb : List FdbEntry) : Desired :=
  match topo.linkAt anat.bridge with
  | none => ⟨∅, [], ∅, ∅⟩
  | some _ =>
      let (wire, learnt, learntAt) := fdb.foldl (classifyEntry anat reach) (∅, ∅, ∅)
      let want := (learnt ∪ ward topo anat ∪ syncer.extra).filter fun mac =>
        mac ∉ skip ∧ mac ∉ wire ∧ mac.isRegisterable
      { want
        stacked := (reach.stackedBridges.filterMap topo.nameOf).insertionSort (· ≤ ·)
        wire
        learntAt }

/-- The side of the cable: everything under the uplink port, and the siblings. -/
def wireward : Finset Index := topo.subtreeOf [anat.port] ∪ anat.siblings.toFinset

/-- Whether the port an address was last learnt on still leads behind this
bridge. -/
def portLives (reach : Reach) (port : Index) : Bool :=
  port ∉ wireward topo anat &&
    match topo.bridgeAbove port with
    | some (bridge, _) => reach.reaches bridge
    | none => false

/-- The owned addresses that aged out of the bridge but should stay: those whose
learn-port still hangs under this bridge. -/
def quietSurvivors (reach : Reach) (skip want wire ownedBefore : Finset Mac) : Finset Mac :=
  match topo.nameOf anat.dev with
  | none => ∅
  | some name =>
      match syncer.carriedPorts name with
      | none => ∅
      | some ports =>
          ownedBefore.filter fun mac =>
            mac ∉ want ∧ mac ∉ wire ∧ mac ∉ skip ∧ mac.isRegisterable ∧
              ∃ spot ∈ ports.lookup mac, portLives topo anat reach spot.1

def wantedWithKeeps (fdb : List FdbEntry) (vfMacs : List (Index × Mac))
    (ownedBefore : Finset Mac) : Wanted :=
  let skip := syncer.exclusions topo anat vfMacs
  let reach := topo.reach anat.bridge
  let desired := syncer.desired topo anat reach skip fdb
  let kept := syncer.quietSurvivors topo anat reach skip desired.want desired.wire ownedBefore
  { desired with want := desired.want ∪ kept, kept }

/-- The limit of the card that holds a filter. -/
def limitOf (card : Name) : Nat := (syncer.maxMacsPerCard card).getD syncer.maxMacs

/-- The stamp a kept address is surrendered by. -/
def stampOf (dev : Name) (mac : Mac) : Nat :=
  (((syncer.carriedPorts dev).bind (·.lookup mac)).map (·.2)).getD 0

end Syncer

/-- Longest silent first, the address breaking a tie. -/
def bySilence (candidates : List (Nat × Mac)) : List (Nat × Mac) :=
  candidates.insertionSort fun first second =>
    first.1 < second.1 ∨ (first.1 = second.1 ∧ first.2 ≤ second.2)

theorem bySilence_perm (candidates : List (Nat × Mac)) : (bySilence candidates).Perm candidates :=
  List.perm_insertionSort _ _

def surrender (reserve limit : Nat) : List (Nat × Mac) → Nat → List Mac
  | [], _ => []
  | (_, mac) :: rest, occupied =>
      if occupied + reserve ≤ limit then []
      else mac :: surrender reserve limit rest (occupied - 1)

/-- The pass's arm of the pressure valve: the kept addresses surrendered, longest
silent first, until the card's limit less its headroom holds. -/
def Syncer.pressAtPass (syncer : Syncer) (dev card : Name) (occupied : Nat)
    (kept : Finset Mac) : List Mac :=
  let limit := syncer.limitOf card
  surrender (headroom limit) limit
    (bySilence ((ascending kept).map fun mac => (syncer.stampOf dev mac, mac))) occupied

section Facts

variable {syncer : Syncer} {topo : Topology} {anat : Anatomy} {mac : Mac}

/-- A dump entry that places an address on the cable's side of a pair. -/
def FacesWire (anat : Anatomy) (reach : Reach) (entry : FdbEntry) : Prop :=
  entry.isLearned ∧ entry.isUnicast ∧ ∃ master, entry.master = some master ∧
    (entry.ifindex ∈ anat.siblings ∨
      reach.classify entry.ifindex master anat.port = .wire)

theorem wire_classifyEntry {reach : Reach} {found : Finset Mac × Finset Mac × LearntAt}
    {entry : FdbEntry} :
    mac ∈ (Syncer.classifyEntry anat reach found entry).1 ↔
      mac ∈ found.1 ∨ FacesWire anat reach entry ∧ entry.mac = mac := by
  obtain ⟨wire, want, learntAt⟩ := found
  simp only [Syncer.classifyEntry, FacesWire]
  split
  · rename_i ignored
    simp only [Bool.or_eq_true, Bool.not_eq_eq_eq_not, Bool.not_true] at ignored
    rcases ignored with ignored | ignored <;> simp [ignored]
  · rename_i judged
    simp only [Bool.or_eq_true, Bool.not_eq_eq_eq_not, Bool.not_true, not_or,
      Bool.not_eq_false] at judged
    split
    · rename_i unrecorded
      simp [unrecorded]
    · rename_i master recorded
      split
      · rename_i sibling
        simp [judged, recorded, sibling, or_comm, eq_comm]
      · rename_i apart
        split <;> rename_i learn <;> simp [judged, recorded, apart, learn, or_comm, eq_comm]

theorem wire_foldl_classifyEntry {reach : Reach} {fdb : List FdbEntry}
    {found : Finset Mac × Finset Mac × LearntAt} :
    mac ∈ (fdb.foldl (Syncer.classifyEntry anat reach) found).1 ↔
      mac ∈ found.1 ∨ ∃ entry ∈ fdb, FacesWire anat reach entry ∧ entry.mac = mac := by
  induction fdb generalizing found with
  | nil => simp
  | cons entry rest ih => simp [ih, wire_classifyEntry, or_assoc]

/-- The wire of a pass is what its dump places on the cable's side. -/
theorem mem_desired_wire {reach : Reach} {skip : Finset Mac} {fdb : List FdbEntry} {link : Link}
    (known : topo.linkAt anat.bridge = some link) :
    mac ∈ (syncer.desired topo anat reach skip fdb).wire ↔
      ∃ entry ∈ fdb, FacesWire anat reach entry ∧ entry.mac = mac := by
  rw [Syncer.desired, known]
  simpa using @wire_foldl_classifyEntry anat mac reach fdb (∅, ∅, ∅)

/-- A dump entry that places an address behind a pair's bridge. -/
def FacesGuest (anat : Anatomy) (reach : Reach) (entry : FdbEntry) : Prop :=
  entry.isLearned ∧ entry.isUnicast ∧ ∃ master, entry.master = some master ∧
    entry.ifindex ∉ anat.siblings ∧ reach.classify entry.ifindex master anat.port = .behind

/-- What is learnt behind the bridge is wanted and has a port. -/
theorem learnt_classifyEntry {reach : Reach} {found : Finset Mac × Finset Mac × LearntAt}
    {entry : FdbEntry} :
    (mac ∈ (Syncer.classifyEntry anat reach found entry).2.1 ↔
      mac ∈ found.2.1 ∨ FacesGuest anat reach entry ∧ entry.mac = mac) ∧
    (mac ∈ (Syncer.classifyEntry anat reach found entry).2.2 ↔
      mac ∈ found.2.2 ∨ FacesGuest anat reach entry ∧ entry.mac = mac) := by
  obtain ⟨wire, want, learntAt⟩ := found
  simp only [Syncer.classifyEntry, FacesGuest]
  split
  · rename_i ignored
    simp only [Bool.or_eq_true, Bool.not_eq_eq_eq_not, Bool.not_true] at ignored
    rcases ignored with ignored | ignored <;> simp [ignored]
  · rename_i judged
    simp only [Bool.or_eq_true, Bool.not_eq_eq_eq_not, Bool.not_true, not_or,
      Bool.not_eq_false] at judged
    split
    · rename_i unrecorded
      simp [unrecorded]
    · rename_i master recorded
      split
      · rename_i sibling
        simp [recorded, sibling]
      · rename_i apart
        split <;> rename_i learn <;>
          simp [judged, recorded, apart, learn, or_comm, eq_comm, AList.mem_insert]

theorem learnt_foldl_classifyEntry {reach : Reach} {fdb : List FdbEntry}
    {found : Finset Mac × Finset Mac × LearntAt} :
    (mac ∈ (fdb.foldl (Syncer.classifyEntry anat reach) found).2.1 ↔
      mac ∈ found.2.1 ∨ ∃ entry ∈ fdb, FacesGuest anat reach entry ∧ entry.mac = mac) ∧
    (mac ∈ (fdb.foldl (Syncer.classifyEntry anat reach) found).2.2 ↔
      mac ∈ found.2.2 ∨ ∃ entry ∈ fdb, FacesGuest anat reach entry ∧ entry.mac = mac) := by
  induction fdb generalizing found with
  | nil => simp
  | cons entry rest ih =>
      obtain ⟨learnt, located⟩ := @learnt_classifyEntry anat mac reach found entry
      obtain ⟨want, at'⟩ := @ih (Syncer.classifyEntry anat reach found entry)
      rw [List.foldl_cons, want, learnt, at', located]
      simp only [List.exists_mem_cons_iff, or_assoc, and_self]

/-- The ports of a pass are those of what its dump places behind the bridge. -/
theorem mem_desired_learntAt {reach : Reach} {skip : Finset Mac} {fdb : List FdbEntry} {link : Link}
    (known : topo.linkAt anat.bridge = some link) :
    mac ∈ (syncer.desired topo anat reach skip fdb).learntAt ↔
      ∃ entry ∈ fdb, FacesGuest anat reach entry ∧ entry.mac = mac := by
  have gathered := (@learnt_foldl_classifyEntry anat mac reach fdb (∅, ∅, ∅)).2
  rw [Syncer.desired, known]
  refine gathered.trans ⟨fun found => found.resolve_left (AList.notMem_empty mac), .inr⟩

/-- What is learnt behind the bridge is wanted unless it is excluded, on the wire, or
no address for a filter. -/
theorem mem_desired_want {reach : Reach} {skip : Finset Mac} {fdb : List FdbEntry} {link : Link}
    (known : topo.linkAt anat.bridge = some link)
    (learnt : mac ∈ (syncer.desired topo anat reach skip fdb).learntAt) :
    mac ∈ (syncer.desired topo anat reach skip fdb).want ↔
      mac ∉ skip ∧ mac ∉ (syncer.desired topo anat reach skip fdb).wire ∧ mac.isRegisterable := by
  obtain ⟨want, located⟩ := @learnt_foldl_classifyEntry anat mac reach fdb (∅, ∅, ∅)
  have known' := (mem_desired_learntAt known).mp learnt
  rw [Syncer.desired, known]
  dsimp only
  rw [Finset.mem_filter, Finset.mem_union, Finset.mem_union]
  exact ⟨fun wanted => wanted.2, fun fits => ⟨.inl (.inl (want.mpr (.inr known'))), fits⟩⟩

theorem exclusions_congr {other : Syncer} (same : other.exclude = syncer.exclude)
    {vfMacs : List (Index × Mac)} :
    other.exclusions topo anat vfMacs = syncer.exclusions topo anat vfMacs := by
  simp only [Syncer.exclusions, same]

/-- Two answers exclude the same apart from what they report for the uplink's own
functions. -/
theorem mem_vfReported_of_excluded {old fresh : List (Index × Mac)}
    (excluded : mac ∈ syncer.exclusions topo anat old)
    (freed : mac ∉ syncer.exclusions topo anat fresh) :
    mac ∈ vfReported anat.functions old := by
  simp only [Syncer.exclusions, Finset.mem_union, not_or] at excluded freed
  obtain ⟨⟨⟨⟨notExcluded, notBelow⟩, notOwn⟩, -⟩, notFunction⟩ := freed
  simpa only [notExcluded, notBelow, notOwn, notFunction, false_or, or_false] using excluded

theorem mem_desired {reach : Reach} {skip : Finset Mac} {fdb : List FdbEntry}
    (wanted : mac ∈ (syncer.desired topo anat reach skip fdb).want) :
    mac ∉ skip ∧ mac ∉ (syncer.desired topo anat reach skip fdb).wire := by
  unfold Syncer.desired at wanted ⊢
  split at wanted
  · simp at wanted
  · exact ⟨(Finset.mem_filter.mp wanted).2.1, (Finset.mem_filter.mp wanted).2.2.1⟩

theorem mem_quietSurvivors {reach : Reach} {skip want wire owned : Finset Mac}
    (kept : mac ∈ syncer.quietSurvivors topo anat reach skip want wire owned) :
    mac ∈ owned ∧ mac ∉ want ∧ mac ∉ wire ∧ mac ∉ skip := by
  unfold Syncer.quietSurvivors at kept
  split at kept
  · simp at kept
  · split at kept
    · simp at kept
    · obtain ⟨owned, notWanted, notWire, notSkipped, -⟩ := Finset.mem_filter.mp kept
      exact ⟨owned, notWanted, notWire, notSkipped⟩

/-- Nothing a pass wants is excluded or on the wire, the keeps included. -/
theorem mem_wanted {fdb : List FdbEntry} {vfMacs : List (Index × Mac)} {owned : Finset Mac}
    (wanted : mac ∈ (syncer.wantedWithKeeps topo anat fdb vfMacs owned).want) :
    mac ∉ syncer.exclusions topo anat vfMacs ∧
      mac ∉ (syncer.wantedWithKeeps topo anat fdb vfMacs owned).wire := by
  rcases Finset.mem_union.mp wanted with desired | kept
  · exact mem_desired desired
  · obtain ⟨-, -, notWire, notSkipped⟩ := mem_quietSurvivors kept
    exact ⟨notSkipped, notWire⟩

end Facts

end SriovMacSync
