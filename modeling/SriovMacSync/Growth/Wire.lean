import SriovMacSync.Growth.BatchAdditions
import SriovMacSync.World.Host

namespace SriovMacSync

open Data Netlink Interaction Interaction.Action

/-! # An address learnt on the wire is never registered -/

/-- The dump holds the address learnt on the uplink's port by the uplink's bridge,
or on a sibling port by any bridge. -/
def DumpHoldsOnWire (fdb : List FdbEntry) (anat : Anatomy) (mac : Mac) : Prop :=
  ∃ entry ∈ fdb, entry.isLearned ∧ entry.isUnicast ∧ entry.mac = mac ∧
    (entry.ifindex = anat.port ∧ entry.master = some anat.bridge ∨
      entry.ifindex ∈ anat.siblings ∧ entry.master.isSome)

/-- The dumps that were answered. -/
def History.dumps (past : History) : List (List FdbEntry) :=
  past.filterMap fun
    | ⟨.dumpFdb, .ok fdb⟩ => some fdb
    | _ => none

theorem History.mem_dumps {past : History} {fdb : List FdbEntry} :
    fdb ∈ past.dumps ↔ (⟨.dumpFdb, Except.ok fdb⟩ : Exchange Call Reply) ∈ past := by
  refine List.mem_filterMap.trans ⟨?_, fun happened => ⟨_, happened, rfl⟩⟩
  rintro ⟨exchange, happened, answered⟩
  split at answered
  · exact Option.some.inj answered ▸ happened
  · cases answered

/-- The additions of a pass that answer a dump. -/
def offWireRule (topo : Topology) (fdb : List FdbEntry) : AddRule where
  allows _ index mac := ∀ bridge anat, topo.anatomy index bridge = some anat →
    ¬ DumpHoldsOnWire fdb anat mac
  grows _ allowed := allowed

/-- The additions of a batch, by what it reports and by what the process carries. -/
def offReportRule (syncer : Syncer) (topo : Topology) (events : List Event) : AddRule where
  allows _ index mac := ∀ pair ∈ syncer.pairs, ∀ bridge anat,
    topo.indexOf pair.dev = some index → topo.anatomy index bridge = some anat →
    ¬ Reports events anat mac ∧ mac ∉ syncer.carriedWire pair.dev
  grows _ allowed := allowed

theorem mem_wire_of_dump {syncer : Syncer} {topo : Topology} {index bridge : Index} {anat : Anatomy}
    {fdb : List FdbEntry} {skip : Finset Mac} {mac : Mac}
    (found : topo.anatomy index bridge = some anat) (held : DumpHoldsOnWire fdb anat mac) :
    mac ∈ (syncer.desired topo anat (topo.reach anat.bridge) skip fdb).wire := by
  obtain ⟨link, known⟩ := Topology.linkAt_bridge found
  rw [← Topology.anatomy_bridge found] at known
  rw [mem_desired_wire known]
  obtain ⟨entry, inDump, learned, unicast, rfl, ⟨onPort, recorded⟩ | ⟨sibling, recorded⟩⟩ := held
  · refine ⟨entry, inDump, ⟨learned, unicast, anat.bridge, recorded, .inr ?_⟩, rfl⟩
    have own : (topo.reach anat.bridge).bridge = anat.bridge := rfl
    simp [Reach.classify, own, onPort]
  · obtain ⟨master, recorded⟩ := Option.isSome_iff_exists.mp recorded
    exact ⟨entry, inDump, ⟨learned, unicast, master, recorded, .inl sibling⟩, rfl⟩

theorem offWireRule_coversPass {syncer : Syncer} {reading : Reading} :
    (offWireRule reading.topo reading.fdb).CoversPass syncer.toSettings reading := by
  intro pair known index bridge anat located above found now owned vfMacs past mac settings
    happened wanted bridge' anat' found' held
  obtain rfl := Topology.anatomy_unique found found'
  exact (mem_wanted wanted).2 (mem_wire_of_dump found held)

/-- Two pairs of one device are found under one name. -/
theorem offReportRule_coversBatch {syncer : Syncer} {topo : Topology} {events : List Event} :
    (offReportRule syncer topo events).CoversBatch syncer topo events := by
  intro fp fits mac past vfMacs offWire unreported _ pair known bridge anat located found
  have fitsIndex := fits.indexOf
  obtain ⟨pair', known', index, bridge', named, located', above', found'⟩ := fits
  rw [Topology.anatomy_dev found'] at found
  obtain rfl := Topology.anatomy_unique found' found
  have sameName : pair.dev = fp.dev := Topology.indexOf_injective located fitsIndex
  exact ⟨unreported, sameName ▸ offWire⟩

/-- A pass adds nothing its dump holds on the wire, kept quiet or not.  A batch adds
nothing it reports on the wire and nothing on the wire the process carries, and
what the process carries outlives the batch. -/
theorem wire_is_never_added (syncer : Syncer) (topo : Topology) (pair : Pair) (index bridge : Index)
    (anat : Anatomy) (known : pair ∈ syncer.pairs) (located : topo.indexOf pair.dev = some index)
    (found : topo.anatomy index bridge = some anat) (past : History) (mac : Mac) :
    (∀ apply fdb, past.dumps ⊆ [fdb] →
      (reconcile apply topo syncer).Issues past (.setSelfFdb index mac true) →
      ¬ DumpHoldsOnWire fdb anat mac) ∧
    (∀ events, (fastApply topo events syncer).Issues past (.setSelfFdb index mac true) →
      ¬ Reports events anat mac ∧ mac ∉ syncer.carriedWire pair.dev) ∧
    ∀ events result after, (fastApply topo events syncer).Follows past (.done (result, after)) →
      syncer.carriedWire pair.dev ⊆ after.carriedWire pair.dev := by
  have safeBatch (events : List Event) : Safe ((offReportRule syncer topo events).env fun _ => True)
      (fastApply topo events) (fun _ after later => GoesOn syncer [] after later) syncer [] :=
    fastApply_safe offReportRule_coversBatch
  refine ⟨?_, ?_, ?_⟩
  · intro apply fdb dumped issued
    have safe : Safe ((offWireRule topo fdb).env fun exchange =>
        ∀ dump, exchange = ⟨.dumpFdb, Except.ok dump⟩ → dump = fdb) (reconcile apply topo)
        (fun _ after later => Continues syncer.toSettings [] after later) syncer [] :=
      reconcile_safe fun dump passAt admitted => by
        obtain rfl := admitted dump rfl
        exact offWireRule_coversPass
    refine Program.Safe.issues safe issued ?_ index mac rfl bridge anat found
    rintro _ happened dump rfl
    exact List.mem_singleton.mp (dumped (History.mem_dumps.mpr happened))
  · intro events issued
    exact Program.Safe.issues (safeBatch events) issued (fun _ _ => trivial) index mac rfl pair known bridge
      anat located found
  · intro events result after path
    exact ((safeBatch events).result (path.reaches (fun _ _ => trivial) [])).1.2 pair.dev

set_option maxRecDepth 10000 in
theorem wire_is_never_added_bridged : ∃ (past : History) (anat : Anatomy),
    (reconcile true bridgedTopology bridgedSyncer).Issues past (.setSelfFdb 2 guest true) ∧
    bridgedTopology.anatomy 2 10 = some anat ∧ past.dumps = [bridgedHost.dump] ∧
    ¬ DumpHoldsOnWire bridgedHost.dump anat guest := by
  have issued : (reconcile true bridgedTopology bridgedSyncer).Issues _ (.setSelfFdb 2 guest true) :=
    Program.replayUntil_issues Host.answer Call.adds _ bridgedHost (by decide)
  exact ⟨_, _, issued, rfl, by decide, (wire_is_never_added bridgedSyncer bridgedTopology
    ⟨"nic1", "br0"⟩ 2 10 _ (by decide) rfl rfl _ guest).1 true _ (by decide) issued⟩

/-- The same uplink beside the physical function of its card, under one bridge. -/
def siblingTopology : Topology where
  links := [
    { name := "pf0", index := 1, mac := some ⟨2, 0, 0, 0, 0, 0x20⟩, master := some 10, numvfs := 1 },
    { name := "nic1", index := 2, mac := some ⟨2, 0, 0, 0, 0, 0x10⟩, master := some 10,
      pfNetdevs := [1] },
    { name := "vetha", index := 4, master := some 10 },
    { name := "br0", index := 10, isBridge := true, lowers := [1, 2, 4] }]
  distinct := by decide

/-- An entry on the sibling port that names no bridge. -/
def unrecorded : FdbEntry := { guestLearnt with ifindex := 1, master := none }

def siblingHost : Host := { topo := siblingTopology, learnt := [guestLearnt, unrecorded] }

set_option maxRecDepth 10000 in
/-- What is on a sibling port without being recorded by a bridge does not count as
wire. -/
theorem unrecorded_sibling_is_added : ∃ (past : History) (anat : Anatomy),
    siblingTopology.anatomy 2 10 = some anat ∧
    past.dumps = [siblingHost.dump] ∧
    unrecorded ∈ siblingHost.dump ∧ unrecorded.isLearned ∧ unrecorded.isUnicast ∧
    unrecorded.mac = guest ∧ unrecorded.ifindex ∈ anat.siblings ∧
    (reconcile true siblingTopology bridgedSyncer).Issues past (.setSelfFdb 2 guest true) :=
  ⟨((reconcile true siblingTopology bridgedSyncer).replayUntil Host.answer Call.adds siblingHost).1,
    _, rfl, by decide, by decide, by decide, by decide, by decide, by decide,
    Program.replayUntil_issues _ _ _ _ (by decide)⟩

end SriovMacSync
