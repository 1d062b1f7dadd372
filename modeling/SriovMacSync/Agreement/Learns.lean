import SriovMacSync.Sync.Batch
import SriovMacSync.World.Host

namespace SriovMacSync

open Data Netlink

/-! # What a batch collects is what a pass would want -/

variable {syncer : Syncer} {topo : Topology} {fp : FastPair} {pairs : List FastPair}
  {events : List Event} {mac : Mac}

/-- A batch of learns on ports of the reading; what is on the cable's side of the
pair is recorded by the bridge its port is enslaved to. -/
structure LearnsInPlace (topo : Topology) (anat : Anatomy) (events : List Event) : Prop where
  learns : ∀ event ∈ events, event.1 = .newNeigh
  placed : ∀ event ∈ events, (topo.linkAt event.2.ifindex).isSome
  recorded : ∀ event ∈ events, event.2.ifindex = anat.port ∨ event.2.ifindex ∈ anat.siblings →
    event.2.master = (topo.linkAt event.2.ifindex).bind (·.master)

/-- The pair of the fast path for this uplink, the only one of its name. -/
structure FastPair.Stands (fp : FastPair) (topo : Topology) (pairs : List FastPair)
    (events : List Event) : Prop where
  anatomy : ∃ index bridge, topo.anatomy index bridge = some fp.anat ∧ fp.reach = topo.reach bridge
  member : fp ∈ pairs
  alone : ∀ other ∈ pairs, other.dev = fp.dev → other = fp
  reflected : fp.reflected = seenOnWire pairs events fp.dev

theorem FastPair.Stands.bridge (stands : fp.Stands topo pairs events) :
    fp.reach = topo.reach fp.anat.bridge ∧ ∃ link, topo.linkAt fp.anat.bridge = some link := by
  obtain ⟨index, bridge, found, reaches⟩ := stands.anatomy
  obtain rfl := Topology.anatomy_bridge found
  exact ⟨reaches, Topology.linkAt_bridge found⟩

/-- What a batch reports on the cable's side is what a pass would find there. -/
theorem mem_reflected_iff (stands : fp.Stands topo pairs events)
    (places : LearnsInPlace topo fp.anat events) :
    mac ∈ fp.reflected ↔
      ∃ entry ∈ events.map (·.2), FacesWire fp.anat fp.reach entry ∧ entry.mac = mac := by
  obtain ⟨index, bridge, found, -⟩ := stands.anatomy
  obtain ⟨reaches, -⟩ := stands.bridge
  have own : fp.reach.bridge = fp.anat.bridge := by rw [reaches]; rfl
  rw [stands.reflected, seenOnWire, List.mem_toFinset, List.mem_map]
  constructor
  · rintro ⟨event, filtered, rfl⟩
    obtain ⟨inEvents, seen⟩ := List.mem_filter.mp filtered
    obtain ⟨-, learned, unicast, other, inPairs, named, side⟩ := of_decide_eq_true seen
    obtain rfl := stands.alone other inPairs named
    refine ⟨event.2, List.mem_map_of_mem inEvents, ⟨learned, unicast, ?_⟩, rfl⟩
    have recorded := places.recorded event inEvents side
    rcases side with onPort | sibling
    · refine ⟨other.anat.bridge, ?_, .inr ?_⟩
      · rw [recorded, onPort, Topology.master_port found]
      · simp [Reach.classify, own, onPort]
    · obtain ⟨master, enslaved⟩ := Topology.master_sibling found sibling
      exact ⟨master, recorded.trans enslaved, .inl sibling⟩
  · rintro ⟨entry, inDump, ⟨learned, unicast, master, recorded, side⟩, rfl⟩
    obtain ⟨event, inEvents, rfl⟩ := List.mem_map.mp inDump
    refine ⟨event, List.mem_filter.mpr ⟨inEvents, decide_eq_true ?_⟩, rfl⟩
    refine ⟨places.learns event inEvents, learned, unicast, fp, stands.member, rfl, ?_⟩
    rcases side with sibling | onWire
    · exact .inr sibling
    · unfold Reach.classify at onWire
      split at onWire
      · split at onWire
        · exact .inl ‹_›
        · cases onWire
      · split at onWire <;> cases onWire

/-- The learns a batch collects for a pair are the addresses a pass would find behind
the bridge and want, were the batch its dump, less the wire the last pass left. -/
theorem batch_collects_what_a_pass_wants (stands : fp.Stands topo pairs events)
    (places : LearnsInPlace topo fp.anat events) (mac : Mac) :
    (∃ port, (syncer.fastAddAll topo pairs .commit events).2.holds fp.dev (mac, port)) ↔
      mac ∈ (syncer.desired topo fp.anat fp.reach fp.skip (events.map (·.2))).learntAt ∧
      mac ∈ (syncer.desired topo fp.anat fp.reach fp.skip (events.map (·.2))).want ∧
      mac ∉ syncer.carriedWire fp.dev := by
  obtain ⟨-, link, known⟩ := stands.bridge
  simp only [holds_fastAddAll]
  constructor
  · rintro ⟨port, event, inEvents, master, other, learns, inPairs, named, same, considered⟩
    obtain ⟨rfl, rfl⟩ := Prod.mk.inj same
    obtain rfl := stands.alone other inPairs named.symm
    obtain ⟨kind, recorded, placed, learned, registerable⟩ := learns
    obtain ⟨apart, ⟨-, impossible, -⟩ | ⟨allowed, offWire, behind, unseen⟩⟩ := considered
    · cases impossible
    have unicast : event.2.isUnicast := by
      simp only [Mac.isRegisterable, Bool.and_eq_true] at registerable
      exact registerable.1
    have learnt : event.2.mac ∈ (syncer.desired topo other.anat other.reach other.skip
        (events.map (·.2))).learntAt :=
      (mem_desired_learntAt known).mpr ⟨event.2, List.mem_map_of_mem inEvents,
        ⟨learned, unicast, master, recorded, apart, behind⟩, rfl⟩
    refine ⟨learnt, (mem_desired_want known learnt).mpr ⟨allowed, fun onWire => unseen ?_,
      registerable⟩, offWire⟩
    exact (mem_reflected_iff stands places).mpr ((mem_desired_wire known).mp onWire)
  · rintro ⟨learnt, wanted, offWire⟩
    obtain ⟨allowed, notWire, registerable⟩ := (mem_desired_want known learnt).mp wanted
    obtain ⟨entry, inDump, ⟨learned, unicast, master, recorded, apart, behind⟩, rfl⟩ :=
      (mem_desired_learntAt known).mp learnt
    obtain ⟨event, inEvents, rfl⟩ := List.mem_map.mp inDump
    refine ⟨event.2.ifindex, event, inEvents, master, fp, ⟨places.learns event inEvents, recorded,
      places.placed event inEvents, learned, registerable⟩, stands.member, rfl, rfl, apart,
      .inr ⟨allowed, offWire, behind, fun seen => notWire ?_⟩⟩
    exact (mem_desired_wire known).mpr ((mem_reflected_iff stands places).mp seen)

/-- Two pairs of one device are one pair to the fast path. -/
theorem fastPairs_alone {answer : Answer} {first second : FastPair}
    (one : first ∈ syncer.fastPairs topo answer) (two : second ∈ syncer.fastPairs topo answer)
    (same : first.dev = second.dev) : first = second := by
  have made {fp : FastPair} (member : fp ∈ syncer.fastPairs topo answer) :
      ∃ index, topo.indexOf fp.dev = some index ∧ topo.anatomy index fp.anat.bridge = some fp.anat ∧
        fp = {
          anat := fp.anat
          reach := topo.reach fp.anat.bridge
          dev := fp.dev
          skip := syncer.exclusions topo fp.anat answer.vfMacs
          reflected := ∅
          vfOwn := if answer.carried then vfReported fp.anat.functions answer.vfMacs else ∅ } := by
    obtain ⟨pair, -, made⟩ := List.mem_filterMap.mp member
    simp only [Option.bind_eq_bind, Option.bind_eq_some_iff, Option.pure_def,
      Option.some.injEq] at made
    obtain ⟨index, located, bridge, -, anat, found, rfl⟩ := made
    obtain rfl := Topology.anatomy_bridge found
    exact ⟨index, located, found, rfl⟩
  obtain ⟨index, located, found, shape⟩ := made one
  obtain ⟨index', located', found', shape'⟩ := made two
  obtain rfl : index = index' := Option.some.inj (located.symm.trans (same ▸ located'))
  have anat := Topology.anatomy_unique found found'
  rw [shape, shape', anat, same]

/-- The batch in which the bridged uplink's guest speaks. -/
def guestSpeaks : List Event := [(.newNeigh, guestLearnt)]

/-- The bridged uplink as the fast path sees it. -/
def bridgedFastPair : FastPair where
  anat := { dev := 2, bridge := 10, port := 2, card := 2, functions := [2], siblings := [] }
  reach := bridgedTopology.reach 10
  dev := "nic1"
  skip := bridgedTopology.subtreeMacs 2
  reflected := ∅
  vfOwn := ∅

theorem batch_collects_what_a_pass_wants_bridged :
    (∃ port, (bridgedSyncer.fastAddAll bridgedTopology [bridgedFastPair] .commit guestSpeaks).2.holds
      "nic1" (guest, port)) ∧
    guest ∈ (bridgedSyncer.desired bridgedTopology bridgedFastPair.anat bridgedFastPair.reach
      bridgedFastPair.skip [guestLearnt]).want := by
  have stands : bridgedFastPair.Stands bridgedTopology [bridgedFastPair] guestSpeaks := by
    refine ⟨⟨2, 10, rfl, rfl⟩, List.mem_singleton_self _, ?_, by decide⟩
    intro other member _
    exact List.mem_singleton.mp member
  have places : LearnsInPlace bridgedTopology bridgedFastPair.anat guestSpeaks :=
    ⟨by decide, by decide, by decide⟩
  have agree := @batch_collects_what_a_pass_wants bridgedSyncer _ _ _ _ stands places guest
  have collected : ∃ port, (bridgedSyncer.fastAddAll bridgedTopology [bridgedFastPair] .commit
      guestSpeaks).2.holds "nic1" (guest, port) := ⟨4, by unfold Candidates.holds; decide⟩
  exact ⟨collected, (agree.mp collected).2.1⟩

end SriovMacSync
