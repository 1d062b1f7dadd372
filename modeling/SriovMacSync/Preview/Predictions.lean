import SriovMacSync.Memory.Serving
import SriovMacSync.Preview.Foretelling
import SriovMacSync.Preview.Looking

namespace SriovMacSync

open Data Netlink Interaction Interaction.Action

/-! # What a preview predicts

A preview and a pass that starts in the same moment say the same of an uplink, as long as
what only the pass does does not reach it. -/

variable {moment : Moment} {shelf shelf' : Shelf} {syncer after : Syncer} {dev : Name} {topo : Topology}
  {reading : Reading} {earlier later : List Pair} {pair : Pair} {answer : Answer} {apply : Bool}

section Orphans

/-- The devices a sweep is about. -/
def Moment.orphans (moment : Moment) (syncer : Syncer) : List Name :=
  if syncer.authoritative then
    match moment.noted with
    | .error _ => []
    | .ok devs =>
        ((devs.insertionSort (· ≤ ·)).filter (· ∉ syncer.pairs.map (·.dev))).filter fun dev =>
          moment.now - (syncer.absentSince dev).getD moment.now ≥ syncer.orphanGrace
  else []

theorem notedDevicesOrNone_still : Safe moment.still notedDevicesOrNone (fun noted after shelf' =>
    noted = (match moment.noted with | .error _ => [] | .ok devs => devs.insertionSort (· ≤ ·)) ∧
      after = syncer ∧ shelf' = shelf) syncer shelf := by
  apply safe_bind.mpr (safe_bind.mpr ?_)
  apply still_ask
  intro listing between stays told
  obtain rfl : listing = moment.noted := told
  obtain rfl : between = shelf := stays
  cases moment.noted <;> exact ⟨rfl, rfl, rfl⟩

theorem orphaned_still : Safe moment.still orphaned (fun orphans after _ =>
    orphans = moment.orphans syncer ∧ Syncer.IndexKept dev syncer after) syncer shelf := by
  apply safe_bind.mpr (safe_get.mpr ?_)
  rw [Moment.orphans]
  cases told : syncer.authoritative with
  | false => exact safe_bind.mpr (safe_modify.mpr ⟨rfl, rfl⟩)
  | true =>
      apply safe_bind.mpr
      apply still_ask
      intro now between _ told
      obtain rfl : now = moment.now := told
      apply safe_bind.mpr
      apply notedDevicesOrNone_still.mono
      intro noted after shelf' ⟨listed, same, _⟩
      subst same
      refine safe_bind.mpr (safe_get.mpr (safe_bind.mpr (safe_modify.mpr (safe_pure.mpr ⟨?_, rfl⟩))))
      rw [listed]
      cases moment.noted <;> rfl

/-- The sweep concerns no uplink that no orphan's record leads to. -/
theorem dropOrphans_still (live : dev ∈ syncer.pairs.map (·.dev))
    (unled : ∀ named ∈ moment.orphans syncer, ¬ shelf.Leads topo dev named) (away : shelf.Away dev) :
    Safe moment.still (dropOrphans topo apply) (fun _ after shelf' => Untouched topo dev syncer shelf after shelf')
      syncer shelf := by
  apply safe_bind.mpr
  apply ((still_of_shelf (@orphaned_apart _ _ _ _ _ topo away)).and (@orphaned_still _ _ _ dev)).mono
  intro orphans after shelf' ⟨⟨left, others⟩, listed, index⟩
  apply safe_forM (⟨left, index⟩ : Untouched topo dev syncer shelf after shelf')
  intro named member before between known
  have apart : dev ≠ named := by
    intro same
    exact others live (same ▸ member)
  have stays : ¬ between.Leads topo dev named := by
    intro led
    exact unled named (listed ▸ member) (known.leads named apart.symm led)
  apply (still_of_shelf (dropOrphan_untouched apart stays known.away)).mono
  exact fun _ _ _ next => known.trans next

end Orphans

section Passes

/-- The answer a pass starts from. -/
def Moment.firstAnswer (moment : Moment) (syncer : Syncer) (pfs : List Index) : Except Errno Answer :=
  match syncer.carriedVfFor pfs with
  | some kept => .ok ⟨kept, true⟩
  | none => (moment.driver pfs).map fun fresh => ⟨fresh, false⟩

/-- What is only looked at or stamped before the sweep. -/
def Syncer.Stamped (before after : Syncer) : Prop :=
  ∃ carriedVf vfStale lastPassAt, after = { before with carriedVf, vfStale, lastPassAt }

theorem askDriver_still {pfs : List Index} : Safe moment.still (askDriver pfs) (fun result after shelf' =>
    result = moment.firstAnswer syncer pfs ∧ Syncer.Stamped syncer after ∧ shelf' = shelf) syncer shelf := by
  apply safe_bind.mpr (safe_get.mpr ?_)
  rw [Moment.firstAnswer]
  cases syncer.carriedVfFor pfs with
  | some kept => exact ⟨rfl, ⟨_, _, _, rfl⟩, rfl⟩
  | none =>
      apply safe_bind.mpr
      apply still_ask
      intro fresh between stays told
      obtain rfl : fresh = moment.driver pfs := told
      obtain rfl : between = shelf := stays
      cases moment.driver pfs with
      | error errno => exact ⟨rfl, ⟨_, _, _, rfl⟩, rfl⟩
      | ok fresh => exact safe_bind.mpr (safe_modify.mpr ⟨rfl, ⟨_, _, _, rfl⟩, rfl⟩)

theorem stampPass_still : Safe moment.still stampPass (fun _ after shelf' =>
    Syncer.Stamped syncer after ∧ shelf' = shelf) syncer shelf := by
  apply safe_bind.mpr
  apply still_ask
  intro clock between _ stands
  obtain rfl : between = shelf := stands
  exact safe_bind.mpr (safe_get.mpr (safe_bind.mpr (safe_modify.mpr ⟨⟨_, _, _, rfl⟩, rfl⟩)))

theorem Syncer.Stamped.untouched (stamped : Syncer.Stamped syncer after) (away : shelf.Away dev) :
    Untouched topo dev syncer shelf after shelf := by
  obtain ⟨_, _, _, made⟩ := stamped
  subst made
  exact .of_memory ⟨rfl, rfl, Iff.rfl, rfl⟩ rfl away

/-- The moments in which a preview can tell of an uplink what a pass would do: its note is
readable and its own, nobody's note is about to follow a rename onto it, and where the
driver's answer is a carried one the notes of the uplinks before it are left alone too. -/
structure Tellable (moment : Moment) (topo : Topology) (syncer : Syncer) (shelf : Shelf) (earlier : List Pair)
    (pair : Pair) : Prop where
  readable : moment.legible pair.dev = true
  own : OwnNote topo syncer shelf pair
  orphans : ∀ named ∈ moment.orphans syncer, ¬ shelf.Leads topo pair.dev named
  reused : ∀ other ∈ earlier, ¬ shelf.Leads topo pair.dev other.dev
  carried : syncer.carriedVfFor (topo.livePfs (syncer.pairs.map (·.dev))) ≠ none → ∀ other ∈ earlier,
    OwnNote topo syncer shelf other ∧ ∀ named ∈ moment.orphans syncer, ¬ shelf.Leads topo other.dev named

/-- What a pass sees, whatever it does about it. -/
def Reading.sight (reading : Reading) : Reading := { reading with apply := false, passAt := 0 }

theorem foretell_congr {other : Reading} (same : ∀ (pair : Pair) (answer : Answer),
    moment.foreseePair other shelf' after pair answer = moment.foreseePair reading shelf syncer pair answer) :
    moment.foretell other shelf' after earlier pair answer = moment.foretell reading shelf syncer earlier pair answer := by
  simp only [Moment.foretell, answerAfter_congr same, same]

theorem foretell_sight :
    moment.foretell reading shelf syncer earlier pair answer =
      moment.foretell reading.sight shelf syncer earlier pair answer := foretell_congr fun _ _ => rfl

/-- What a pass reports of an uplink, previewed or not. -/
theorem reconcile_still (split : syncer.pairs = earlier ++ pair :: later) (distinct : (syncer.pairs.map (·.dev)).Nodup)
    (idle : shelf.held = none) (tellable : Tellable moment topo syncer shelf earlier pair) :
    Safe moment.still (reconcile apply topo) (fun result _ _ => ∀ reports, result = .ok reports →
      ∃ answer, moment.firstAnswer syncer (topo.livePfs (syncer.pairs.map (·.dev))) = .ok answer ∧
        moment.foretell ⟨topo, false, shelf.fdb, topo.livePfs (syncer.pairs.map (·.dev)), 0⟩ shelf syncer earlier pair answer =
          .ok (numbersOf pair.dev reports)) syncer shelf := by
  have away {dev : Name} : shelf.Away dev := by
    intro work
    rw [idle]
    exact nofun
  set pfs := topo.livePfs (syncer.pairs.map (·.dev))
  apply safe_bind.mpr (safe_get.mpr ?_)
  dsimp only
  rw [if_neg (by simp [split])]
  apply safe_bind.mpr
  apply still_ask
  intro dump between answered _
  obtain ⟨stays, sees⟩ := answered
  subst stays
  cases dump with
  | error errno => exact nofun
  | ok fdb =>
      obtain rfl := sees fdb rfl
      apply safe_bind.mpr
      apply askDriver_still.mono
      intro result syncer₁ shelf₁ ⟨first, stamped₁, stays⟩
      subst stays
      cases result with
      | error errno => exact nofun
      | ok answer =>
          apply safe_bind.mpr
          apply stampPass_still.mono
          intro passAt syncer₂ shelf₂ ⟨stamped₂, stays⟩
          subst stays
          obtain ⟨_, _, _, made₁⟩ := stamped₁
          obtain ⟨_, _, _, made₂⟩ := stamped₂
          have stamped : Syncer.Stamped syncer syncer₂ := ⟨_, _, _, by rw [made₂, made₁]⟩
          have orphans : moment.orphans syncer₂ = moment.orphans syncer := by rw [made₂, made₁]; rfl
          have pairs : syncer₂.pairs = syncer.pairs := by rw [made₂, made₁]
          have swept : Safe moment.still (dropOrphans topo apply) (fun _ after shelf' => ∀ other : Pair,
              other ∈ syncer.pairs → (∀ named ∈ moment.orphans syncer, ¬ shelf₂.Leads topo other.dev named) →
                Untouched topo other.dev syncer shelf₂ after shelf') syncer₂ shelf₂ := by
            apply still_all
            intro other
            by_cases both : other ∈ syncer.pairs ∧ ∀ named ∈ moment.orphans syncer, ¬ shelf₂.Leads topo other.dev named
            · obtain ⟨listed, unled⟩ := both
              have live : other.dev ∈ syncer₂.pairs.map (·.dev) := pairs ▸ List.mem_map_of_mem listed
              apply (dropOrphans_still live (orphans ▸ unled) away).mono
              exact fun _ _ _ left _ _ => (stamped.untouched away).trans left
            · exact always_still.mono fun _ _ _ _ listed unled => absurd ⟨listed, unled⟩ both
          apply safe_bind.mpr
          apply (swept.and clock_still).mono
          intro _ syncer₃ shelf₃ ⟨untouched, clock⟩
          have calm : Calm ⟨topo, apply, shelf₂.fdb, pfs, passAt⟩ earlier pair answer
              syncer shelf₂ syncer₃ shelf₃ := by
            refine ⟨clock, tellable.own, tellable.reused, untouched pair (by simp [split]) tellable.orphans, ?_⟩
            intro carried other listed
            have kept : syncer.carriedVfFor (pfs) ≠ none := by
              intro none
              rw [Moment.firstAnswer, none] at first
              cases asked : moment.driver (pfs) with
              | error errno =>
                  rw [asked] at first
                  cases first
              | ok fresh =>
                  rw [asked] at first
                  cases first
                  cases carried
            obtain ⟨own, unled⟩ := tellable.carried kept other listed
            exact ⟨own, untouched other (by simp [split, listed]) unled⟩
          change Safe _ (passPairs ⟨topo, apply, shelf₂.fdb, pfs, passAt⟩ syncer.pairs answer) _ _ _
          rw [split] at distinct ⊢
          apply (passPairs_still calm distinct tellable.readable).mono
          intro result _ _ told reports same
          have foretold := told reports same
          rw [foretell_sight] at foretold
          exact ⟨answer, first.symm, foretold⟩

end Passes

section Serving

namespace Moment

variable (moment : Moment)

def serve : Handler Call Reply Shelf
  | shelf, .vfMacsOf pfs => (moment.driver pfs, shelf)
  | shelf, .bootMillis => (shelf.clock, shelf)
  | shelf, .now => (moment.now, shelf)
  | shelf, .listNotes => (moment.noted, shelf)
  | shelf, .readNote dev =>
      (if moment.legible dev then .lines (ascending (shelf.drawer dev).note) true else .unreadable, shelf)
  | shelf, .setSelfFdb index mac false =>
      (.ok (), shelf.does index mac false (.ok ()) ((shelf.lists index).erase mac))
  | shelf, request => shelf.serve ∅ request

variable {moment}

theorem serve_answers (shelf : Shelf) (request : Call) :
    moment.still.answers shelf request (moment.serve shelf request).1 (moment.serve shelf request).2 := by
  have usual := @Shelf.serve_answers moment.Reads moment.Reads ∅ shelf
  cases request with
  | vfMacsOf pfs => exact ⟨rfl, rfl⟩
  | bootMillis => exact ⟨⟨rfl, shelf.clock, Nat.le_refl _, rfl⟩, rfl⟩
  | now => exact ⟨rfl, rfl⟩
  | listNotes => exact ⟨rfl, rfl⟩
  | readNote dev =>
      rw [serve]
      cases legible : moment.legible dev with
      | true => exact ⟨⟨rfl, (ascending_toFinset _).symm⟩, legible.symm⟩
      | false => exact ⟨⟨rfl, by simp [Reads, legible], by simp [Reads, legible]⟩, legible.symm⟩
  | setSelfFdb index mac add =>
      cases add with
      | true => exact ⟨usual (.setSelfFdb index mac true), rfl⟩
      | false => exact ⟨⟨_, rfl, rfl⟩, rfl⟩
  | readIndex dev => exact ⟨usual (.readIndex dev), rfl⟩
  | putNote dev macs => exact ⟨usual (.putNote dev macs), rfl⟩
  | appendNote dev macs => exact ⟨usual (.appendNote dev macs), rfl⟩
  | putIndex dev index => exact ⟨usual (.putIndex dev index), rfl⟩
  | dumpFdb => exact ⟨usual .dumpFdb, trivial⟩
  | dumpFdbOf index => exact ⟨usual (.dumpFdbOf index), trivial⟩
  | dumpLinks => exact ⟨usual .dumpLinks, trivial⟩
  | walkMacs set => exact ⟨usual (.walkMacs set), trivial⟩
  | walkNames set => exact ⟨usual (.walkNames set), trivial⟩
  | lock dev work => exact ⟨usual (.lock dev work), trivial⟩
  | unlock dev => exact ⟨usual (.unlock dev), trivial⟩
  | removeNote dev => exact ⟨usual (.removeNote dev), trivial⟩
  | removeIndex dev => exact ⟨usual (.removeIndex dev), trivial⟩
  | readPorts dev => exact ⟨usual (.readPorts dev), trivial⟩
  | portsExist dev => exact ⟨usual (.portsExist dev), trivial⟩
  | putPorts dev text => exact ⟨usual (.putPorts dev text), trivial⟩
  | removePorts dev => exact ⟨usual (.removePorts dev), trivial⟩
  | released dev macs => exact ⟨usual (.released dev macs), trivial⟩

/-- What a whole execution in a moment returns. -/
def serves {α : Type} (moment : Moment) (shelf : Shelf) (action : Sync α) (syncer : Syncer) : (α × Syncer) × Shelf :=
  (action syncer).replay moment.serve shelf

theorem serves_runs {α : Type} (moment : Moment) (shelf : Shelf) (action : Sync α) (syncer : Syncer) :
    Runs moment.still action syncer shelf (moment.serves shelf action syncer).1.1
      (moment.serves shelf action syncer).1.2 (moment.serves shelf action syncer).2 :=
  Program.replay_reaches serve_answers (action syncer) shelf

end Moment

/-- Two uplinks, each with a guest port under a bridge of its own. -/
def twinTopology : Topology where
  links := [
    { name := "nic0", index := 2, master := some 10, numvfs := 1 },
    { name := "nic1", index := 3, master := some 11, numvfs := 1 },
    { name := "vetha", index := 4, master := some 10 },
    { name := "vethb", index := 5, master := some 11 },
    { name := "br0", index := 10, isBridge := true, lowers := [2, 4] },
    { name := "br1", index := 11, isBridge := true, lowers := [3, 5] }]
  distinct := by decide

def neighbour : Mac := ⟨2, 0, 0, 0, 0, 2⟩

/-- A guest behind each bridge, the second one registered. -/
def twinShelf : Shelf where
  drawer dev := if dev = "nic1" then ⟨{neighbour}, some 3, none, false, []⟩ else ⟨∅, some 9, none, false, []⟩
  lists index := if index = 3 then {neighbour} else ∅
  fdb := [guestLearnt, { guestLearnt with ifindex := 5, master := some 11, mac := neighbour }, Host.selfEntry 3 neighbour]
  clock := 1
  held := none

/-- The second guest has become the address of a virtual function since the driver was
last asked. -/
def twinMoment : Moment where
  legible _ := true
  driver _ := .ok [(3, neighbour)]
  noted := .ok []
  now := 0

def twinSyncer : Syncer where
  pairs := [⟨"nic0", "br0"⟩, ⟨"nic1", "br1"⟩]
  carriedVf := some (twinTopology.livePfs ["nic0", "nic1"], [])
  vfStale := false

/-- What a whole pass in a moment says of an uplink. -/
def Moment.reported (moment : Moment) (shelf : Shelf) (apply : Bool) (topo : Topology) (syncer : Syncer) (dev : Name) :
    Option (List Numbers) :=
  (moment.serves shelf (reconcile apply topo) syncer).1.1.toOption.map (numbersOf dev)

theorem Moment.reported_runs {numbers : List Numbers} (said : moment.reported shelf apply topo syncer dev = some numbers) :
    ∃ reports after shelf', Runs moment.still (reconcile apply topo) syncer shelf (.ok reports) after shelf' ∧
      numbersOf dev reports = numbers := by
  have ran := moment.serves_runs shelf (reconcile apply topo) syncer
  rw [Moment.reported] at said
  cases ended : (moment.serves shelf (reconcile apply topo) syncer).1.1 with
  | error errno =>
      rw [ended] at said
      cases said
  | ok reports =>
      rw [ended] at said ran
      exact ⟨reports, _, _, ran, Option.some.inj said⟩

theorem twin_own {shelf : Shelf} (recorded : (shelf.drawer "nic1").record = some 3) :
    OwnNote twinTopology twinSyncer shelf ⟨"nic1", "br1"⟩ := by
  intro link bridge anat found _ _
  have same : twinTopology.get "nic1" = some { name := "nic1", index := 3, master := some 11, numvfs := 1 } := by
    decide +kernel
  obtain rfl := Option.some.inj (found.symm.trans same)
  exact ⟨.inl rfl, fun index kept => Option.some.inj (kept.symm.trans recorded)⟩

/-- The same moment with the first note recorded for its own interface. -/
def settledShelf : Shelf := twinShelf.setRecord "nic0" (some 2)

theorem settled_own : OwnNote twinTopology twinSyncer settledShelf ⟨"nic0", "br0"⟩ := by
  intro link bridge anat found _ _
  have same : twinTopology.get "nic0" = some { name := "nic0", index := 2, master := some 10, numvfs := 1 } := by
    decide +kernel
  obtain rfl := Option.some.inj (found.symm.trans same)
  exact ⟨.inl rfl, fun index kept => (Option.some.inj kept).symm⟩

theorem settled_tellable :
    Tellable twinMoment twinTopology twinSyncer settledShelf [⟨"nic0", "br0"⟩] ⟨"nic1", "br1"⟩ where
  readable := rfl
  own := twin_own (by decide +kernel)
  orphans := nofun
  reused other listed := by
    obtain rfl := List.mem_singleton.mp listed
    intro ⟨index, recorded, bears⟩
    have same : index = 2 := (Option.some.inj recorded).symm
    subst same
    exact absurd bears (by decide +kernel)
  carried _ other listed := by
    obtain rfl := List.mem_singleton.mp listed
    exact ⟨settled_own, nofun⟩

end Serving

section Predictions

/-- The same process, told to act. -/
def Syncer.acting (syncer : Syncer) : Syncer := { syncer with dryRun := false }

theorem tellable_acting (tellable : Tellable moment topo syncer shelf earlier pair) :
    Tellable moment topo syncer.acting shelf earlier pair :=
  ⟨tellable.readable, tellable.own, tellable.orphans, tellable.reused, tellable.carried⟩

theorem foretell_acting :
    moment.foretell reading shelf syncer.acting earlier pair answer =
      moment.foretell reading shelf syncer earlier pair answer := foretell_congr fun _ _ => rfl

/-- A dry run and a pass that applies nothing write nothing, and tell of an uplink what a
pass in the same moment does. -/
theorem preview_foretells (topo : Topology) (syncer : Syncer) (apply : Bool) (shelf : Shelf) (moment : Moment)
    (earlier later : List Pair) (pair : Pair) :
    (syncer.Previews apply → Peeks (reconcile apply topo) syncer) ∧
    (syncer.dryRun = true → Peeks flush syncer ∧ ∀ events, Peeks (fastApply topo events) syncer) ∧
    (syncer.pairs = earlier ++ pair :: later → (syncer.pairs.map (·.dev)).Nodup → shelf.held = none →
      Tellable moment topo syncer shelf earlier pair → ∀ told after shelf₁ done after' shelf₂,
        Runs moment.still (reconcile apply topo) syncer shelf (.ok told) after shelf₁ →
          Runs moment.still (reconcile true topo) syncer.acting shelf (.ok done) after' shelf₂ →
            numbersOf pair.dev told = numbersOf pair.dev done) := by
  refine ⟨reconcile_peeks, fun dry => ⟨flush_peeks dry, fun _ => fastApply_peeks dry⟩, ?_⟩
  intro split distinct idle tellable told after shelf₁ done after' shelf₂ previewed passed
  obtain ⟨answer, first, foretold⟩ := (reconcile_still split distinct idle tellable).runs previewed told rfl
  obtain ⟨answer', first', came⟩ :=
    (@reconcile_still moment shelf syncer.acting topo earlier later pair true split distinct idle
      (tellable_acting tellable)).runs passed done rfl
  obtain rfl : answer = answer' := Except.ok.inj (first.symm.trans first')
  rw [foretell_acting] at came
  exact Except.ok.inj (foretold.symm.trans came)

theorem preview_foretells_twin : ∃ told done, numbersOf "nic1" told = numbersOf "nic1" done ∧
    numbersOf "nic1" done = [⟨0, 0, 0, 1⟩] ∧
    (∃ after shelf', Runs twinMoment.still (reconcile false twinTopology) twinSyncer settledShelf (.ok told) after shelf') ∧
    ∃ after shelf', Runs twinMoment.still (reconcile true twinTopology) twinSyncer.acting settledShelf (.ok done)
      after shelf' := by
  have previewed : twinMoment.reported settledShelf false twinTopology twinSyncer "nic1" = some [⟨0, 0, 0, 1⟩] := by
    decide +kernel
  have passed : twinMoment.reported settledShelf true twinTopology twinSyncer.acting "nic1" = some [⟨0, 0, 0, 1⟩] := by
    decide +kernel
  obtain ⟨told, after, shelf₁, previews, _⟩ := Moment.reported_runs previewed
  obtain ⟨done, after', shelf₂, passes, said⟩ := Moment.reported_runs passed
  obtain ⟨_, _, predicts⟩ := preview_foretells twinTopology twinSyncer false settledShelf twinMoment
    [⟨"nic0", "br0"⟩] [] ⟨"nic1", "br1"⟩
  exact ⟨told, done, predicts rfl (by decide) rfl settled_tellable told after shelf₁ done after' shelf₂ previews passes,
    said, ⟨after, shelf₁, previews⟩, after', shelf₂, passes⟩

/-- A name used again before an uplink: the pass asks the driver afresh for it, and the
preview does not. -/
theorem preview_misses_fresh_answer :
    ¬ ∀ (moment : Moment) (topo : Topology) (syncer : Syncer) (shelf : Shelf) (pair : Pair), pair ∈ syncer.pairs →
      (syncer.pairs.map (·.dev)).Nodup → shelf.held = none → moment.legible pair.dev = true →
        OwnNote topo syncer shelf pair → (∀ named ∈ moment.orphans syncer, ¬ shelf.Leads topo pair.dev named) →
          ∀ told after shelf₁ done after' shelf₂,
            Runs moment.still (reconcile false topo) syncer shelf (.ok told) after shelf₁ →
              Runs moment.still (reconcile true topo) syncer.acting shelf (.ok done) after' shelf₂ →
                numbersOf pair.dev told = numbersOf pair.dev done := by
  intro predicts
  have previewed : twinMoment.reported twinShelf false twinTopology twinSyncer "nic1" = some [⟨1, 0, 0, 0⟩] := by
    decide +kernel
  have passed : twinMoment.reported twinShelf true twinTopology twinSyncer.acting "nic1" = some [⟨0, 0, 0, 1⟩] := by
    decide +kernel
  obtain ⟨told, after, shelf₁, previews, saying⟩ := Moment.reported_runs previewed
  obtain ⟨done, after', shelf₂, passes, said⟩ := Moment.reported_runs passed
  have same := predicts twinMoment twinTopology twinSyncer twinShelf ⟨"nic1", "br1"⟩ (by simp [twinSyncer]) (by decide) rfl
    rfl (twin_own rfl) nofun told after shelf₁ done after' shelf₂ previews passes
  rw [saying, said] at same
  exact absurd same (by decide)

end Predictions

end SriovMacSync
