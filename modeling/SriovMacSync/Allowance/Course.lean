import SriovMacSync.Absence.Overlooks
import SriovMacSync.Allowance.Settling

namespace SriovMacSync

open Data Netlink Interaction Interaction.Action

/-! # The course of a pass

Which uplinks an execution of a pass works on, what each decision went by, and how
the filters stood when it was taken. -/

/-- An uplink a pass works on, at the moment it has decided. -/
structure Worked where
  dev : Name
  anat : Anatomy
  /-- the memory it decides from -/
  syncer : Syncer
  /-- the driver's answer it decides by -/
  vfMacs : List (Index × Mac)
  /-- what its note names -/
  owned : Finset Mac
  filters : Filters

namespace Worked

variable (reading : Reading) (worked : Worked)

def wanted : Wanted :=
  worked.syncer.wantedWithKeeps reading.topo worked.anat reading.fdb worked.vfMacs worked.owned

def relieved : Relieved :=
  worked.syncer.relieve reading worked.dev worked.anat (worked.wanted reading) worked.owned

/-- What it brings to its filter. -/
def brings : Finset Mac :=
  worked.filters.brings reading.fdb worked.dev worked.anat.dev (worked.relieved reading).want

/-- What it takes out of its filter. -/
def takes : Finset Mac := worked.owned \ (worked.relieved reading).want

/-- The rest of its turn. -/
def settling (readable : Bool) : Sync Settled := do
  reportReleased reading.apply worked.dev (worked.relieved reading).shed
  let settled ← settleCard reading worked.dev worked.anat.dev (worked.relieved reading).want
    worked.owned
  refreshMemory reading worked.dev readable (worked.wanted reading).learntAt settled.owned
  modify (·.leaveCarried reading worked.dev (worked.relieved reading) (worked.wanted reading).wire
    readable)
  return settled

end Worked

/-- The first half of an uplink's turn: its name settled, its note read, its wanted
set decided. -/
def weighing (reading : Reading) (dev : Name) (anat : Anatomy) (answer : Answer) :
    Sync (Bool × Finset Mac × Bool × Except Errno (Wanted × Answer)) := do
  let settled ← settleName reading dev anat.dev
  loadPorts dev reading.topo
  let owned ← loadOwned dev
  let readable ← noteIsReadable dev
  let decision ← decideWanted reading dev anat answer owned
  return (settled, owned, readable, decision)

/-- The uplinks the turns of a pass work on, one after another. -/
inductive Course (reading : Reading) :
    List Pair → Answer → Syncer → Filters → List Worked → Syncer → Filters → Prop where
  | finished {answer : Answer} {syncer : Syncer} {filters : Filters} :
      Course reading [] answer syncer filters [] syncer filters
  | passedOver {pair : Pair} {pairs : List Pair} {answer answer' : Answer}
      {syncer middle after : Syncer} {filters between final : Filters} {course : List Worked}
      (ran : Runs (sharing reading.topo) (passPair reading pair answer) syncer filters
        (.ok (none, answer')) middle between)
      (rest : Course reading pairs answer' middle between course after final) :
      Course reading (pair :: pairs) answer syncer filters course after final
  | brokenOff {pair : Pair} {pairs : List Pair} {answer : Answer} {syncer after : Syncer}
      {filters final : Filters} {errno : Errno}
      (ran : Runs (sharing reading.topo) (passPair reading pair answer) syncer filters
        (.error errno) after final) :
      Course reading (pair :: pairs) answer syncer filters [] after final
  | worked {pair : Pair} {pairs : List Pair} {answer answer' : Answer} {syncer middle after : Syncer}
      {filters between final : Filters} {course : List Worked} {worked : Worked} {link : Link}
      {bridge : Index} {readable : Bool} {settled : Settled}
      (named : worked.dev = pair.dev) (found : reading.topo.get pair.dev = some link)
      (below : reading.topo.indexOf pair.bridge = some bridge)
      (located : reading.topo.anatomy link.index bridge = some worked.anat)
      (weighed : Runs (sharing reading.topo) (weighing reading worked.dev worked.anat answer)
        syncer filters (true, worked.owned, readable, .ok (worked.wanted reading, answer'))
        worked.syncer worked.filters)
      (answered : answer'.vfMacs = worked.vfMacs)
      (ended : Runs (sharing reading.topo) (worked.settling reading readable) worked.syncer
        worked.filters settled middle between)
      (rest : Course reading pairs answer' middle between course after final) :
      Course reading (pair :: pairs) answer syncer filters (worked :: course) after final

section Decision

variable {reading : Reading} {dev : Name} {anat : Anatomy} {answer answer' : Answer}
  {owned : Finset Mac} {syncer after : Syncer} {filters final : Filters} {wanted : Wanted}

/-- The memory an uplink's part goes on with decides the same. -/
theorem decideWanted_decides
    (ran : Runs (sharing reading.topo) (decideWanted reading dev anat answer owned) syncer filters
      (.ok (wanted, answer')) after final) :
    wanted = after.wantedWithKeeps reading.topo anat reading.fdb answer'.vfMacs owned := by
  unfold decideWanted at ran
  simp only [runs_bind, runs_get] at ran
  obtain ⟨_, _, _, ⟨rfl, rfl, rfl⟩, ran⟩ := ran
  split at ran
  · simp only [runs_bind, runs_modify] at ran
    obtain ⟨_, _, _, ⟨rfl, rfl⟩, reply, _, middle, asked, ran⟩ := ran
    obtain ⟨-, rfl⟩ := runs_ask.mp asked
    cases reply with
    | error errno => cases (runs_pure.mp ran).1
    | ok fresh =>
        simp only [runs_bind, runs_modify, runs_pure] at ran
        obtain ⟨_, _, _, ⟨rfl, rfl⟩, same, rfl, rfl⟩ := ran
        cases same
        rfl
  · obtain ⟨same, rfl, rfl⟩ := runs_pure.mp ran
    cases same
    rfl

end Decision

section Turns

variable {reading : Reading} {pair : Pair} {pairs : List Pair} {answer answer' : Answer}
  {syncer after : Syncer} {filters final : Filters}

/-- A turn that reports is one that worked on its uplink. -/
theorem passPair_worked {report : Report}
    (ran : Runs (sharing reading.topo) (passPair reading pair answer) syncer filters
      (.ok (some report, answer')) after final) :
    ∃ (worked : Worked) (link : Link) (bridge : Index) (readable : Bool) (settled : Settled),
      worked.dev = pair.dev ∧ reading.topo.get pair.dev = some link ∧
      reading.topo.indexOf pair.bridge = some bridge ∧
      reading.topo.anatomy link.index bridge = some worked.anat ∧
      Runs (sharing reading.topo) (weighing reading worked.dev worked.anat answer) syncer filters
        (true, worked.owned, readable, .ok (worked.wanted reading, answer')) worked.syncer
        worked.filters ∧
      answer'.vfMacs = worked.vfMacs ∧
      Runs (sharing reading.topo) (worked.settling reading readable) worked.syncer worked.filters
        settled after final := by
  unfold passPair at ran
  split at ran
  · rename_i link bridge found below
    split at ran
    · rename_i anat located
      have atDev : anat.dev = link.index := Topology.anatomy_dev located
      simp only [runs_bind] at ran
      obtain ⟨goes, syncer1, filters1, named, ran⟩ := ran
      cases goes with
      | false => cases (runs_pure.mp ran).1
      | true =>
          simp only [passUplink, runs_bind, if_true] at ran
          obtain ⟨_, syncer2, filters2, loaded, owned, syncer3, filters3, noted, readable, syncer4,
            filters4, marked, decision, syncer5, filters5, decided, ran⟩ := ran
          cases decision with
          | error errno => cases (runs_pure.mp ran).1
          | ok decision =>
              obtain ⟨wanted, answer''⟩ := decision
              simp only [runs_bind, runs_get, runs_modify, runs_pure] at ran
              obtain ⟨_, now, here, ⟨rfl, rfl, rfl⟩, _, syncer6, filters6, reported, settled, syncer7,
                filters7, settles, _, syncer8, filters8, refreshed, _, _, _, ⟨rfl, rfl⟩, same, rfl,
                rfl⟩ := ran
              obtain ⟨-, rfl⟩ := Prod.mk.inj (Except.ok.inj same)
              have agreed := decideWanted_decides decided
              let worked : Worked := ⟨pair.dev, anat, now, answer'.vfMacs, owned, here⟩
              refine ⟨worked, link, bridge, readable, settled, rfl, found, below, located, ?_, rfl, ?_⟩
              · simp only [weighing, runs_bind, runs_pure]
                rw [← atDev] at named
                exact ⟨_, _, _, named, _, _, _, loaded, _, _, _, noted, _, _, _, marked, _, _, _,
                  decided, by subst agreed; rfl, rfl, rfl⟩
              · subst agreed
                simp only [Worked.settling, runs_bind, runs_modify, runs_pure]
                exact ⟨_, _, _, reported, _, _, _, settles, _, _, _, refreshed, ⟨⟩, _, _, ⟨rfl, rfl⟩,
                  rfl, rfl, rfl⟩
    · cases (runs_pure.mp ran).1
  · cases (runs_pure.mp ran).1

theorem passPairs_course {result : Except Errno (List Report)}
    (ran : Runs (sharing reading.topo) (passPairs reading pairs answer) syncer filters result after
      final) :
    ∃ course, Course reading pairs answer syncer filters course after final := by
  induction pairs generalizing answer syncer filters result with
  | nil =>
      obtain ⟨-, rfl, rfl⟩ := runs_pure.mp ran
      exact ⟨[], .finished⟩
  | cons pair rest ih =>
      simp only [passPairs, runs_bind] at ran
      obtain ⟨turn, middle, between, first, ran⟩ := ran
      cases turn with
      | error errno =>
          obtain ⟨-, rfl, rfl⟩ := runs_pure.mp ran
          exact ⟨[], .brokenOff first⟩
      | ok turn =>
          obtain ⟨report, answer'⟩ := turn
          simp only [runs_bind] at ran
          obtain ⟨reports, middle', between', second, ran⟩ := ran
          have ends : after = middle' ∧ final = between' := by
            cases reports with
            | error errno => exact (runs_pure.mp ran).2
            | ok reports => exact (runs_pure.mp ran).2
          obtain ⟨rfl, rfl⟩ := ends
          obtain ⟨course, later⟩ := ih second
          cases report with
          | none => exact ⟨course, .passedOver first later⟩
          | some report =>
              obtain ⟨worked, link, bridge, readable, settled, named, found, below, located, weighed,
                answered, ended⟩ := passPair_worked first
              exact ⟨worked :: course, .worked named found below located weighed answered ended later⟩

end Turns

end SriovMacSync
