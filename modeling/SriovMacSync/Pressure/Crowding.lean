import SriovMacSync.Growth.BatchAdditions
import SriovMacSync.Pressure.Batch

namespace SriovMacSync

open Data Netlink Interaction Interaction.Action

/-! # When a batch overfills a card

A batch picks as many of the longest silent as it is short of slots, and only the ones
that hold a slot free any. -/

section Gathering

variable {topo : Topology} {events : List Event} {pairs : List FastPair} {cache : ReadBack}
  {syncer after : Syncer} {filters final : Filters}

theorem batching_spares {α : Type} {action : Sync α} (spares : Asks Call.SparesFilters action) :
    Safe (batching topo) action (fun _ _ final => final.own = filters.own) syncer filters :=
  safe_batching (sparing_safe spares)

theorem ask_batching {request : Call} (spares : request.SparesFilters) :
    Safe (batching topo) (ask request) (fun _ _ final => final.own = filters.own) syncer filters :=
  batching_spares (.ask spares)

theorem growing_shows {devs : List Name} {would : Candidates} {own : Index → Finset Mac}
    (stands : filters.own = own) (shows : ∀ place, cache.ShowsAt topo own place) :
    Safe (batching topo) (growing pairs devs would cache) (fun result _ final => final.own = own ∧
      ∀ would' cache', result = .ok (would', cache') → ∀ place, cache'.ShowsAt topo own place)
      syncer filters := by
  induction devs generalizing would cache syncer filters with
  | nil =>
      refine ⟨stands, fun would' cache' same => ?_⟩
      obtain ⟨-, rfl⟩ := Prod.mk.inj (Except.ok.inj same)
      exact shows
  | cons dev rest ih =>
      rw [growing]
      split
      · exact ih stands shows
      · refine safe_bind.mpr ((readBack_shows stands).mono ?_)
        rintro answer _ read ⟨rfl, same, shown⟩
        cases answer with
        | error errno => exact ⟨same, fun _ _ found => by cases found⟩
        | ok answer =>
            obtain ⟨present, cache'⟩ := answer
            refine safe_bind.mpr ((batching_spares loadOwned_spares).mono fun owned _ noted kept => ?_)
            exact ih (kept.trans same) fun place => (shown present cache' rfl).1 place (shows place)

theorem refreshForGrowth_shows {pfs : List Index} {answer : Answer} :
    Safe (batching topo) (refreshForGrowth topo pfs answer events pairs) (fun result _ final =>
      ∀ pairs' cache, result = .ok (pairs', cache) → (∀ place, cache.ShowsAt topo final.own place) ∧
        ∀ fp ∈ pairs', ∃ old ∈ pairs, fp.dev = old.dev ∧ fp.anat = old.anat) syncer filters := by
  have untouched {own : Index → Finset Mac} (place : Index) :
      ReadBack.ShowsAt (fun _ => none) topo own place := nofun
  unfold refreshForGrowth
  split
  · refine safe_bind.mpr (safe_get.mpr (safe_bind.mpr ((ask_batching rfl).mono fun devs _ read same => ?_)))
    refine safe_bind.mpr ((growing_shows same untouched).mono ?_)
    rintro grown syncer' read' ⟨stands, shown⟩
    cases grown with
    | error errno => exact nofun
    | ok grown =>
        obtain ⟨would, cache⟩ := grown
        have shows := shown would cache rfl
        dsimp only
        split
        · intro pairs' cache' same
          obtain ⟨rfl, rfl⟩ := Prod.mk.inj (Except.ok.inj same)
          exact ⟨stands ▸ shows, fun fp member => ⟨fp, member, rfl, rfl⟩⟩
        · refine safe_bind.mpr (safe_modify.mpr (safe_bind.mpr ((ask_batching rfl).mono
            fun grown _ walked same => ?_)))
          refine safe_bind.mpr ((ask_batching rfl).mono fun reply _ asked same' => ?_)
          cases reply with
          | error errno => exact nofun
          | ok reply =>
              refine safe_bind.mpr (safe_modify.mpr (safe_bind.mpr (safe_get.mpr ?_)))
              intro pairs' cache' renewed
              obtain ⟨rfl, rfl⟩ := Prod.mk.inj (Except.ok.inj renewed)
              rw [same', same, stands]
              refine ⟨shows, fun fp member => ?_⟩
              obtain ⟨old, listed, rfl⟩ := List.mem_map.mp member
              exact ⟨old, listed, rfl, rfl⟩
  · intro pairs' cache same
    obtain ⟨rfl, rfl⟩ := Prod.mk.inj (Except.ok.inj same)
    exact ⟨untouched, fun fp member => ⟨fp, member, rfl, rfl⟩⟩

theorem gatherLearns_overlooks : Overlooks (fun _ => True) (gatherLearns topo events) := by
  refine .bind .get fun _ => .bind askDriver_overlooks fun answer => ?_
  split
  · exact .pure
  · refine .bind .get fun _ => .bind reflectPairs_overlooks fun _ =>
      .bind refreshForGrowth_overlooks fun refreshed => ?_
    split
    · exact .pure
    · exact .bind .get fun _ => .bind (.ask nofun) fun _ => .pure

/-- Where the learns of a batch go: every uplink once, under the name of a pair, and
every list remembered is the one the interface has. -/
theorem gatherLearns_gathers :
    Safe (batching topo) (gatherLearns topo events) (fun result _ final =>
      ∀ pairs cache candidates devs, result = .ok (pairs, cache, candidates, devs) →
        devs.Nodup ∧ (∀ place, cache.ShowsAt topo final.own place) ∧
        ∀ fp ∈ pairs, topo.indexOf fp.dev = some fp.anat.dev ∧ ∃ pair ∈ syncer.pairs, pair.dev = fp.dev)
      syncer filters := by
  refine safe_bind.mpr (safe_get.mpr (safe_bind.mpr ?_))
  have told : Overlooks (fun _ => True) (askDriver (topo.livePfs (syncer.pairs.map (·.dev)))) :=
    askDriver_overlooks
  refine (safe_batching (within_shares (told syncer))).mono fun answer syncer' asked told => ?_
  cases answer with
  | error errno => exact nofun
  | ok answer =>
      refine safe_bind.mpr (safe_get.mpr (safe_bind.mpr ?_))
      refine (safe_batching always_safe).mono fun reflected middle between _ => ?_
      refine safe_bind.mpr (refreshForGrowth_shows.mono fun refreshed _ read shown => ?_)
      cases refreshed with
      | error errno => exact nofun
      | ok refreshed =>
          obtain ⟨pairs', cache'⟩ := refreshed
          obtain ⟨shows, placed⟩ := shown pairs' cache' rfl
          refine safe_bind.mpr (safe_get.mpr (safe_bind.mpr ((ask_batching rfl).mono
            fun devs _ walked same => ?_)))
          intro pairs cache candidates devs' given
          obtain ⟨rfl, remembered⟩ := Prod.mk.inj (Except.ok.inj given)
          obtain ⟨rfl, ordered⟩ := Prod.mk.inj remembered
          obtain ⟨rfl, rfl⟩ := Prod.mk.inj ordered
          refine ⟨devs.nodup, same ▸ shows, fun fp member => ?_⟩
          obtain ⟨old, listed, sameDev, sameAnat⟩ := placed fp member
          obtain ⟨made, raised, rfl⟩ := List.mem_map.mp listed
          obtain ⟨pair, paired, index, bridge, named, found, -, located, -⟩ := mem_fastPairs raised
          have told' : syncer'.toSettings = syncer.toSettings := congrArg Prod.fst told
          refine ⟨?_, pair, congrArg Settings.pairs told' ▸ paired, named.trans sameDev.symm⟩
          rw [sameDev, sameAnat]
          exact found.trans (congrArg some (Topology.anatomy_dev located).symm)

end Gathering

/-- A batch as the uplinks it registers addresses on. -/
inductive BatchCourse (topo : Topology) (events : List Event) (syncer : Syncer) (filters : Filters) :
    List Burst → Syncer → Filters → Prop where
  | idle {result : Except Errno Urgency} {after : Syncer} {final : Filters}
      (nothing : events = [] ∨ syncer.dryRun ∨ ∀ event ∈ events, event.1 ≠ .newNeigh)
      (ran : Runs (batching topo) (fastApply topo events) syncer filters result after final) :
      BatchCourse topo events syncer filters [] after final
  | ungathered {urgency : Urgency} {dated after : Syncer} {between final : Filters} {errno : Errno}
      (dates : Runs (batching topo) (dateDeletions topo events) syncer filters urgency dated between)
      (refused : Runs (batching topo) (gatherLearns topo events) dated between (.error errno) after
        final) : BatchCourse topo events syncer filters [] after final
  | registered {urgency : Urgency} {dated middle after : Syncer} {between start final : Filters}
      {pairs : List FastPair} {cache : ReadBack} {candidates : Candidates} {devs : List Name}
      {course : List Burst}
      (dates : Runs (batching topo) (dateDeletions topo events) syncer filters urgency dated between)
      (gathered : Runs (batching topo) (gatherLearns topo events) dated between
        (.ok (pairs, cache, candidates, devs)) middle start)
      (registers : Registering topo pairs candidates devs cache middle start course after final) :
      BatchCourse topo events syncer filters course after final

section Course

variable {topo : Topology} {events : List Event} {syncer after : Syncer} {filters final : Filters}
  {course : List Burst}

theorem applyLearns_course {urgency : Urgency} {result : Except Errno Urgency}
    (ran : Runs (batching topo) (applyLearns topo events urgency) syncer filters result after final) :
    (∃ errno, Runs (batching topo) (gatherLearns topo events) syncer filters (.error errno) after
      final) ∨
    ∃ pairs cache candidates devs middle start course,
      Runs (batching topo) (gatherLearns topo events) syncer filters
        (.ok (pairs, cache, candidates, devs)) middle start ∧
      Registering topo pairs candidates devs cache middle start course after final := by
  simp only [applyLearns, runs_bind, runs_get] at ran
  obtain ⟨_, syncer, filters, ⟨rfl, rfl, rfl⟩, answer, syncer₁, filters₁, asked, ran⟩ := ran
  cases answer with
  | error errno =>
      obtain ⟨-, rfl, rfl⟩ := runs_pure.mp ran
      exact .inl ⟨errno, runs_bind.mpr ⟨_, _, _, runs_get.mpr ⟨rfl, rfl, rfl⟩,
        runs_bind.mpr ⟨_, _, _, asked, runs_pure.mpr ⟨rfl, rfl, rfl⟩⟩⟩⟩
  | ok answer =>
      simp only [runs_bind, runs_get] at ran
      obtain ⟨_, _, _, ⟨rfl, rfl, rfl⟩, reflected, syncer₂, filters₂, reflects, refreshed, syncer₃,
        filters₃, refreshes, ran⟩ := ran
      have starts {outcome : Except Errno (List FastPair × ReadBack × Candidates × List Name)}
          {left : Syncer} {world : Filters} (rest : Runs (batching topo) _ _ _ outcome left world) :
          Runs (batching topo) (gatherLearns topo events) syncer filters outcome left world :=
        runs_bind.mpr ⟨_, _, _, runs_get.mpr ⟨rfl, rfl, rfl⟩, runs_bind.mpr ⟨_, _, _, asked,
          runs_bind.mpr ⟨_, _, _, runs_get.mpr ⟨rfl, rfl, rfl⟩, rest⟩⟩⟩
      cases refreshed with
      | error errno =>
          obtain ⟨-, rfl, rfl⟩ := runs_pure.mp ran
          exact .inl ⟨errno, starts (runs_bind.mpr ⟨_, _, _, reflects,
            runs_bind.mpr ⟨_, _, _, refreshes, runs_pure.mpr ⟨rfl, rfl, rfl⟩⟩⟩)⟩
      | ok refreshed =>
          obtain ⟨pairs, cache⟩ := refreshed
          simp only [runs_bind, runs_get] at ran
          obtain ⟨_, _, _, ⟨rfl, rfl, rfl⟩, devs, syncer₄, filters₄, walked, outcome, syncer₅,
            filters₅, registers, ran⟩ := ran
          have ends : after = syncer₅ ∧ final = filters₅ := by
            cases outcome with
            | error errno => exact (runs_pure.mp ran).2
            | ok outcome => exact (runs_pure.mp ran).2
          obtain ⟨rfl, rfl⟩ := ends
          obtain ⟨course, turns⟩ := registerEach_course registers
          refine .inr ⟨pairs, cache, _, devs.list, _, _, course, starts (runs_bind.mpr ⟨_, _, _, reflects,
            runs_bind.mpr ⟨_, _, _, refreshes, ?_⟩⟩), turns⟩
          exact runs_bind.mpr ⟨_, _, _, runs_get.mpr ⟨rfl, rfl, rfl⟩,
            runs_bind.mpr ⟨_, _, _, walked, runs_pure.mpr ⟨rfl, rfl, rfl⟩⟩⟩

theorem fastApply_course {result : Except Errno Urgency}
    (ran : Runs (batching topo) (fastApply topo events) syncer filters result after final) :
    ∃ course, BatchCourse topo events syncer filters course after final := by
  have whole := ran
  unfold fastApply at ran
  split at ran
  · rename_i none
    exact ⟨[], .idle (.inl none) whole⟩
  · simp only [runs_bind, runs_get] at ran
    obtain ⟨_, _, _, ⟨rfl, rfl, rfl⟩, ran⟩ := ran
    split at ran
    · rename_i dry
      exact ⟨[], .idle (.inr (.inl dry)) whole⟩
    · obtain ⟨urgency, dated, between, dates, ran⟩ := runs_bind.mp ran
      split at ran
      · rcases applyLearns_course ran with ⟨errno, refused⟩ |
          ⟨pairs, cache, candidates, devs, middle, start, course, gathered, registers⟩
        · exact ⟨[], .ungathered dates refused⟩
        · exact ⟨course, .registered dates gathered registers⟩
      · rename_i none
        exact ⟨[], .idle (.inr (.inr fun event listed learns => none ⟨event, listed, learns⟩)) whole⟩

/-- An uplink whose filter is its own: it writes into no other, and no other uplink of
the process writes into it. -/
structure Burst.HoldsItsOwn (burst : Burst) (topo : Topology) (pairs : List Pair) : Prop where
  carries : burst.anat.card = burst.anat.dev
  unshared : ∀ pair ∈ pairs, pair.dev ≠ burst.dev → ∀ index, topo.indexOf pair.dev = some index →
    burst.anat.dev ∉ topo.filterChain index

/-- A batch leaves an uplink's card within its allowance, or with nothing on it that could
be released, just when what it picks provides for it. -/
theorem batch_overfills_what_it_cannot_empty {result : Except Errno Urgency}
    (ran : Runs (batching topo) (fastApply topo events) syncer filters result after final) :
    (∃ course, BatchCourse topo events syncer filters course after final) ∧
      ∀ course, BatchCourse topo events syncer filters course after final →
        ∀ burst ∈ course, burst.HoldsItsOwn topo syncer.pairs →
          burst.macs ⊆ topo.held final.own burst.anat.dev →
            (burst.Contained topo after final ↔ burst.Provides topo) := by
  refine ⟨fastApply_course ran, fun course batch burst member own registers => ?_⟩
  cases batch with
  | idle nothing ran => cases member
  | ungathered dates refused => cases member
  | registered dates gathered turns =>
      obtain ⟨nodup, shows, placed⟩ := gatherLearns_gathers.runs gathered _ _ _ _ rfl
      have told := (dateDeletions_within.runs dates).1
      refine turns.contained member nodup own.carries ?_ (shows _) registers
      intro dev listed apart fp known
      obtain ⟨found, pair, paired, named⟩ := placed fp (List.mem_of_find?_eq_some known)
      have here := dev_of_find known
      refine own.unshared pair (congrArg Settings.pairs told ▸ paired) ?_ _ (named ▸ found)
      rwa [named, here]

end Course

section Examples

namespace Host

variable {topo : Topology}

/-- Whatever goes through where filters are shared, every list shown as it is. -/
def batchGoes (topo : Topology) (host : Host) (request : Call) : Bool :=
  host.sharedGoes topo request &&
    match request with
    | .dumpFdbOf _ => host.sharedGoes topo .dumpFdb
    | _ => true

theorem answers_batchAnswer {host : Host} {request : Call} (goes : host.batchGoes topo request = true) :
    (batching topo).answers (host.shownFilters topo) request (sharedAnswer topo host request).1
      ((sharedAnswer topo host request).2.shownFilters topo) := by
  simp only [batchGoes, Bool.and_eq_true] at goes
  refine ⟨answers_sharedAnswer goes.1, fun index entries answered => ?_⟩
  cases request with
  | dumpFdbOf place =>
      obtain ⟨asked, shown⟩ := Sigma.mk.inj answered
      obtain rfl := Call.dumpFdbOf.inj asked
      obtain rfl := Except.ok.inj (eq_of_heq shown)
      rw [← selfList_sharedDump goes.2 place]
      ext mac
      simp only [mem_selfList, List.mem_filter, beq_iff_eq]
      constructor
      · rintro ⟨entry, ⟨listed, -⟩, isSelf, here, unicast, same⟩
        exact ⟨entry, listed, isSelf, here, unicast, same⟩
      · rintro ⟨entry, listed, isSelf, here, unicast, same⟩
        exact ⟨entry, ⟨listed, here⟩, isSelf, here, unicast, same⟩
  | _ => cases (Sigma.mk.inj answered).1

end Host

/-- Two guests have been silent since before the last pass; only the later one of them
ever got a slot. -/
def crowdedHost : Host where
  topo := bridgedTopology
  card := fun index => if index = 2 then {guest} else ∅
  clock := 12
  notes := (∅ : AList fun _ : Name => List Mac).insert "nic1" [silentGuest, guest]
  records := fun dev => if dev = "nic1" then some 2 else none

def burstSyncer : Syncer where
  pairs := [⟨"nic1", "br0"⟩]
  maxMacs := 2
  portsLoaded := {"nic1"}
  carriedPorts := fun dev =>
    if dev = "nic1" then some (((∅ : PortMap).insert silentGuest (4, 3)).insert guest (4, 5)) else none
  carried := fun dev =>
    if dev = "nic1" then
      some { card := "nic1", occupancy := 1, quiet := {silentGuest, guest}, passedAt := 9 }
    else none

def talkingGuestSpeaks : List Event :=
  [(.newNeigh, { ifindex := 4, master := some 10, mac := talkingGuest, state := 0, flags := 0 })]

/-- The batch that registers a third guest, and what it leaves. -/
def burstBatch : Program Call Reply (Except Errno Urgency × Syncer) × Host :=
  (fastApply bridgedTopology talkingGuestSpeaks burstSyncer).advance (Host.sharedAnswer bridgedTopology)
    (Host.batchGoes bridgedTopology) crowdedHost

theorem burstBatch_runs {outcome : Except Errno Urgency × Syncer}
    (ended : burstBatch.1.outcome = some outcome) :
    Runs (batching bridgedTopology) (fastApply bridgedTopology talkingGuestSpeaks) burstSyncer
      (crowdedHost.shownFilters bridgedTopology) outcome.1 outcome.2
      (burstBatch.2.shownFilters bridgedTopology) := by
  have path := Program.advance_viewed (Host.shownFilters bridgedTopology)
    (fun _ _ goes => Host.answers_batchAnswer goes)
    (fastApply bridgedTopology talkingGuestSpeaks burstSyncer) crowdedHost
  change Program.Reaches _ _ _ burstBatch.1 _ at path
  rwa [Program.of_outcome ended] at path

theorem batch_overfills_what_it_cannot_empty_burst : ∃ course after,
    BatchCourse bridgedTopology talkingGuestSpeaks burstSyncer (crowdedHost.shownFilters bridgedTopology)
      course after (burstBatch.2.shownFilters bridgedTopology) := by
  obtain ⟨outcome, ended⟩ := Option.isSome_iff_exists.mp
    (by decide +kernel : burstBatch.1.outcome.isSome = true)
  obtain ⟨course, batch⟩ := (batch_overfills_what_it_cannot_empty (burstBatch_runs ended)).1
  exact ⟨course, _, batch⟩

/-- Whether a list with a new address is past its allowance while it holds an old one that
could be released. -/
def overfull (syncer : Syncer) (list : Finset Mac) (new old : Mac) : Prop :=
  new ∈ list ∧ ¬ list.card + headroom (syncer.limitOf "nic1") ≤ syncer.limitOf "nic1" ∧
    old ∈ (syncer.releasable "nic1").map (·.2) ∧ old ∈ list

instance {syncer : Syncer} {list : Finset Mac} {new old : Mac} :
    Decidable (overfull syncer list new old) := by
  unfold overfull
  infer_instance

/-- The batch gives up the longest silent guest, which never held a slot, and writes past
the limit with a quiet one still on the card. -/
theorem slotless_victim_overfills : ∃ (result : Except Errno Urgency) (after : Syncer) (final : Filters),
    Runs (batching bridgedTopology) (fastApply bridgedTopology talkingGuestSpeaks) burstSyncer
      (crowdedHost.shownFilters bridgedTopology) result after final ∧
    overfull after (bridgedTopology.held final.own 2) talkingGuest guest := by
  have checked : burstBatch.1.outcome.any (fun outcome => decide (overfull outcome.2
      (bridgedTopology.held (burstBatch.2.shownFilters bridgedTopology).own 2) talkingGuest guest)) =
      true := by
    decide +kernel
  obtain ⟨outcome, ended, found⟩ := (Option.any_eq_true _ _).mp checked
  exact ⟨_, _, _, burstBatch_runs ended, of_decide_eq_true found⟩

end Examples

end SriovMacSync
