import SriovMacSync.Allowance.Reckoning
import SriovMacSync.World.Host

namespace SriovMacSync

open Data Netlink Interaction Interaction.Action

/-! # Which passes keep a card within its allowance -/

variable {topo : Topology} {syncer after : Syncer} {filters final : Filters}

/-- The uplinks one execution of a pass works on, `start` being what the interfaces
are given when it turns to the first. -/
inductive PassCourse (topo : Topology) (syncer : Syncer) (filters : Filters) :
    Reading → (Index → Finset Mac) → List Worked → Filters → Prop where
  | unpaired {reading : Reading} {final : Filters} (none : syncer.pairs = []) :
      PassCourse topo syncer filters reading filters.own [] final
  | undumped {reading : Reading} {errno : Errno} {final : Filters}
      (refused : filters.Answers topo .dumpFdb (.error errno) final) :
      PassCourse topo syncer filters reading filters.own [] final
  | unanswered {reading : Reading} {errno : Errno} {after : Syncer} {final : Filters}
      (refused : Runs (sharing topo) (askDriver (topo.livePfs (syncer.pairs.map (·.dev)))) syncer
        filters (.error errno) after final) :
      PassCourse topo syncer filters reading filters.own [] final
  | ran {reading : Reading} {answer : Answer} {asked stamped swept after : Syncer}
      {filters1 filters2 start final : Filters} {course : List Worked}
      (shows : reading.topo = topo) (applies : reading.apply = true)
      (dumped : filters.Answers topo .dumpFdb (.ok reading.fdb) filters)
      (answered : Runs (sharing topo) (askDriver reading.pfs) syncer filters (.ok answer) asked filters1)
      (marked : Runs (sharing topo) stampPass asked filters1 reading.passAt stamped filters2)
      (cleared : Runs (sharing topo) (dropOrphans topo true) stamped filters2 ⟨⟩ swept start)
      (turns : Course reading syncer.pairs answer swept start course after final) :
      PassCourse topo syncer filters reading start.own course final

private theorem turns_course {reading : Reading} {pairs : List Pair} {answer : Answer}
    {result : Except Errno (List Report)} (shows : reading.topo = topo)
    (ran : Runs (sharing topo) (passPairs reading pairs answer) syncer filters result after final) :
    ∃ course, Course reading pairs answer syncer filters course after final := by
  subst shows
  exact passPairs_course ran

theorem reconcile_course {result : Except Errno (List Report)}
    (ran : Runs (sharing topo) (reconcile true topo) syncer filters result after final) :
    ∃ reading start course, PassCourse topo syncer filters reading start course final := by
  simp only [reconcile, runs_bind, runs_get] at ran
  obtain ⟨_, syncer, filters, ⟨rfl, rfl, rfl⟩, ran⟩ := ran
  have blank : Reading := ⟨topo, true, [], [], 0⟩
  split at ran
  · rename_i none
    exact ⟨blank, _, [], .unpaired none⟩
  · simp only [runs_bind] at ran
    obtain ⟨dump, syncer', filters', asked, ran⟩ := ran
    have dumped := (runs_ask.mp asked).1
    obtain rfl : syncer' = syncer := (runs_ask.mp asked).2
    obtain rfl : filters' = filters := dumped.1
    cases dump with
    | error errno =>
        obtain ⟨-, rfl, rfl⟩ := runs_pure.mp ran
        exact ⟨blank, _, [], .undumped dumped⟩
    | ok fdb =>
        simp only [runs_bind] at ran
        obtain ⟨answer, syncer1, filters1, answered, ran⟩ := ran
        cases answer with
        | error errno =>
            obtain ⟨-, rfl, rfl⟩ := runs_pure.mp ran
            exact ⟨blank, _, [], .unanswered answered⟩
        | ok answer =>
            simp only [runs_bind] at ran
            obtain ⟨passAt, syncer2, filters2, stamped, _, syncer3, start, swept, ran⟩ := ran
            let reading : Reading :=
              ⟨topo, true, fdb, topo.livePfs (syncer'.pairs.map (·.dev)), passAt⟩
            have shows : reading.topo = topo := rfl
            obtain ⟨course, turns⟩ := turns_course shows ran
            exact ⟨reading, start.own, course, .ran shows rfl dumped answered stamped swept turns⟩

/-- The sweep before the first turn only takes out. -/
theorem dropOrphans_shrinks :
    Safe (sharing topo) (dropOrphans topo true) (fun _ _ after => after.own ≤ filters.own)
      syncer filters := by
  have shrinks (world : Filters) (request : Call) (fewer : world.own ≤ filters.own)
      (allowed : InScope Set.univ removals request) : (sharing topo).permits world request ∧
        ∀ reply after, (sharing topo).answers world request reply after →
          after.own ≤ filters.own := by
    refine ⟨trivial, fun reply after answered => ?_⟩
    by_cases spares : request.SparesFilters
    · exact (own_of_spares spares answered).trans_le fewer
    · cases request with
      | setSelfFdb index mac add =>
          obtain rfl : add = false := allowed.2.1 _ rfl
          obtain ⟨-, rfl⟩ : _ ∧ after = world.drop index mac := answered
          refine le_trans (fun place => ?_) fewer
          rw [Filters.drop_own]
          by_cases same : place = index
          · rw [same, Function.update_self]
            exact Finset.sdiff_subset
          · rw [Function.update_of_ne same]
      | _ => exact absurd rfl spares
  exact (dropOrphans_within.frame shrinks le_rfl).mono fun _ _ _ holds => holds.2

section Examples

namespace Host

/-- What is seen of a host whose filters are shared; its notes can all be read. -/
def shownFilters (topo : Topology) (host : Host) : Filters where
  own index := if (topo.linkAt index).isSome then host.card index else ∅
  legible _ _ := true

def sharedDump (topo : Topology) (host : Host) : List FdbEntry :=
  host.learnt ++ topo.links.flatMap fun link =>
    (ascending (topo.held (host.shownFilters topo).own link.index)).map (selfEntry link.index)

/-- A host on which everything works and VLANs write into their card's filter. -/
def sharedAnswer (topo : Topology) : Handler Call Reply Host
  | host, .dumpFdb => (.ok (host.sharedDump topo), host)
  | host, .dumpFdbOf index => (.ok ((host.sharedDump topo).filter (·.ifindex == index)), host)
  | host, .setSelfFdb index mac true =>
      if mac ∈ topo.held (host.shownFilters topo).own index then (.error .exists, host)
      else (.ok (), host.setCard index (insert mac (host.card index)))
  | host, .setSelfFdb index mac false =>
      (if mac ∈ topo.held (host.shownFilters topo).own index then .ok () else .error .noEntry,
        host.setCard index (host.card index \ {mac}))
  | host, request => host.answer request

/-- Only unicast addresses in the filters of known interfaces, and no dump that mixes
them up with what bridges learn. -/
def sharedGoes (topo : Topology) (host : Host) : Call → Bool
  | .setSelfFdb index _ _ => (topo.linkAt index).isSome
  | .dumpFdb =>
      host.learnt.all (!·.isSelf) &&
        topo.links.all fun link =>
          decide ({place ∈ topo.filterChain link.index | (topo.linkAt place).isNone} = ∅ ∧
            ∀ mac ∈ host.card link.index, mac.isUnicast)
  | _ => true

theorem shownFilters_setCard {host : Host} {index : Index} {list : Finset Mac}
    (known : (topo.linkAt index).isSome) : ((host.setCard index list).shownFilters topo).own =
      Function.update (host.shownFilters topo).own index list := by
  funext place
  by_cases same : place = index
  · rw [same, Function.update_self]
    simp [shownFilters, setCard, known]
  · rw [Function.update_of_ne same]
    simp [shownFilters, setCard, Function.update_of_ne same]

theorem selfList_sharedDump {host : Host} (goes : host.sharedGoes topo .dumpFdb = true)
    (place : Index) :
    selfList (host.sharedDump topo) place = topo.held (host.shownFilters topo).own place := by
  simp only [sharedGoes, Bool.and_eq_true, List.all_eq_true, decide_eq_true_eq] at goes
  obtain ⟨learnt, closed⟩ := goes
  ext mac
  rw [mem_selfList, sharedDump]
  constructor
  · rintro ⟨entry, listed, isSelf, rfl, -, rfl⟩
    rcases List.mem_append.mp listed with bridged | own
    · simpa [isSelf] using learnt entry bridged
    · obtain ⟨link, -, shown⟩ := List.mem_flatMap.mp own
      obtain ⟨mac, held, rfl⟩ := List.mem_map.mp shown
      exact mem_ascending.mp held
  · intro held
    obtain ⟨dev, passes, given⟩ := Topology.mem_held.mp held
    have known : (topo.linkAt dev).isSome := by
      by_contra unknown
      simp [shownFilters, unknown] at given
    obtain ⟨link, found⟩ := Option.isSome_iff_exists.mp known
    obtain rfl := Topology.index_of_linkAt found
    obtain ⟨closed, unicast⟩ := closed link (Topology.mem_of_linkAt found)
    have placed : (topo.linkAt place).isSome := by
      simpa [Option.isSome_iff_ne_none] using Finset.filter_eq_empty_iff.mp closed passes
    obtain ⟨link', found'⟩ := Option.isSome_iff_exists.mp placed
    obtain rfl := Topology.index_of_linkAt found'
    refine ⟨selfEntry link'.index mac, List.mem_append_right _ (List.mem_flatMap.mpr
      ⟨link', Topology.mem_of_linkAt found', List.mem_map_of_mem (mem_ascending.mpr held)⟩), ?_⟩
    refine ⟨by simp [selfEntry, FdbEntry.isSelf, ntfSelf], rfl, unicast mac ?_, rfl⟩
    simpa [shownFilters, known] using given

theorem answers_sharedAnswer {host : Host} {request : Call}
    (goes : host.sharedGoes topo request = true) :
    (sharing topo).answers (host.shownFilters topo) request (sharedAnswer topo host request).1
      ((sharedAnswer topo host request).2.shownFilters topo) := by
  cases request with
  | dumpFdb =>
      refine ⟨rfl, ?_⟩
      rintro fdb ⟨⟩ place
      exact selfList_sharedDump goes place
  | setSelfFdb index mac add =>
      have shown (list : Finset Mac) : (host.setCard index list).shownFilters topo =
          ⟨Function.update (host.shownFilters topo).own index list, fun _ _ => true⟩ :=
        congrArg (fun own => (⟨own, fun _ _ => true⟩ : Filters)) (shownFilters_setCard goes)
      have known : (host.shownFilters topo).own index = host.card index := by
        simp only [sharedGoes] at goes
        simp [shownFilters, goes]
      cases add with
      | true =>
          change Filters.Writes _ topo index mac true _ _
          rw [Filters.Writes, sharedAnswer]
          split
          · exact ⟨rfl, rfl⟩
          · exact ⟨rfl, (shown _).trans (by rw [← known]; rfl)⟩
      | false =>
          change Filters.Writes _ topo index mac false _ _
          rw [Filters.Writes, sharedAnswer]
          exact ⟨rfl, (shown _).trans (by rw [← known]; rfl)⟩
  | readNote dev =>
      refine ⟨?_, ?_⟩
      · simp [Filters.read, shownFilters, sharedAnswer, answer]
      · change NoteReading.isReadable ((host.notes.lookup dev).elim .absent fun macs =>
          .lines macs true) = true
        cases host.notes.lookup dev <;> rfl
  | putNote dev macs => exact ⟨rfl, rfl⟩
  | appendNote dev macs => exact ⟨rfl, rfl⟩
  | _ => rfl

end Host

/-- Two VLANs of one card, each the uplink of a bridge with one guest port. -/
def stackedTopology : Topology where
  links := [
    { name := "nic1", index := 1 },
    { name := "nic1.10", index := 2, master := some 10, filterBelow := some 1 },
    { name := "nic1.20", index := 3, master := some 20, filterBelow := some 1 },
    { name := "vetha", index := 4, master := some 10 },
    { name := "vethb", index := 5, master := some 20 },
    { name := "br10", index := 10, isBridge := true, lowers := [2, 4] },
    { name := "br20", index := 20, isBridge := true, lowers := [3, 5] }]
  distinct := by decide

def newcomer : Mac := ⟨2, 0, 0, 0, 0, 2⟩

/-- The first guest has been registered through the first VLAN and is silent since; a
second one has been learnt behind the other bridge. -/
def stackedHost : Host where
  topo := stackedTopology
  card := fun index => if index = 2 then {guest} else ∅
  learnt := [{ ifindex := 5, master := some 20, mac := newcomer, state := 0, flags := 0 }]
  clock := 9
  notes := (∅ : AList fun _ : Name => List Mac).insert "nic1.10" [guest]
  records := fun dev => if dev = "nic1.10" then some 2 else none
  ports := fun dev => if dev = "nic1.10" then
    some "sriov-mac-sync ports 3\n02:00:00:00:00:01 vetha 4 5\n".toList else none

def stackedSyncer : Syncer where
  pairs := [⟨"nic1.10", "br10"⟩, ⟨"nic1.20", "br20"⟩]
  maxMacs := 2

/-- The pass over both uplinks, and what it leaves. -/
def stackedPass : Program Call Reply (Except Errno (List Report) × Syncer) × Host :=
  (reconcile true stackedTopology stackedSyncer).advance (Host.sharedAnswer stackedTopology)
    (Host.sharedGoes stackedTopology) stackedHost

theorem stackedPass_runs {outcome : Except Errno (List Report) × Syncer}
    (ended : stackedPass.1.outcome = some outcome) :
    Runs (sharing stackedTopology) (reconcile true stackedTopology) stackedSyncer
      (stackedHost.shownFilters stackedTopology) outcome.1 outcome.2
      (stackedPass.2.shownFilters stackedTopology) := by
  have path := Program.advance_viewed (Host.shownFilters stackedTopology)
    (fun _ _ goes => Host.answers_sharedAnswer goes)
    (reconcile true stackedTopology stackedSyncer) stackedHost
  change Program.Reaches _ _ _ stackedPass.1 _ at path
  rwa [Program.of_outcome ended] at path

/-- Whether an uplink's card is over its allowance while it keeps the first guest there. -/
def overfills (syncer : Syncer) (carried : Carried) (entries : Finset Mac) : Prop :=
  ¬ entries.card + headroom (syncer.limitOf carried.card) ≤ syncer.limitOf carried.card ∧
    guest ∈ carried.quiet ∧ guest ∈ entries

instance {syncer : Syncer} {carried : Carried} {entries : Finset Mac} :
    Decidable (overfills syncer carried entries) := by
  unfold overfills
  infer_instance

end Examples

end SriovMacSync
