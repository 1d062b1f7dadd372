import SriovMacSync.Custody.Pass
import SriovMacSync.Sync.Scope

namespace SriovMacSync

open Data Netlink Interaction Interaction.Action

/-! A batch keeps every discipline, on uplinks it may open by the name it finds
them under. -/

namespace Discipline

variable {World : Type} {env : Environment Call Reply World} {topo : Topology}
  (discipline : Discipline env topo) {at' : Stage} {dev : Name} {index : Index}
  {syncer : Syncer} {world : World}

/-- The name a batch finds an uplink under needs no settling. -/
def Opens (dev : Name) (index : Index) : Prop :=
  ∀ syncer world, discipline.stage .rest syncer world →
    discipline.stage (.held dev index ∅ ∅) syncer world

section Reflections

theorem forgetReflected_stays {ours : List Mac} {freed : Nat}
    (standing : discipline.stage at' syncer world) :
    Safe env (forgetReflected topo dev ours freed)
      (fun _ after world => discipline.stage at' after world) syncer world := by
  unfold forgetReflected
  split
  · refine safe_bind.mpr (safe_modify.mpr ?_)
    have standing : discipline.stage at' (((syncer.dropPorts dev ours).noLongerKept dev
        ours).freeSlots dev freed) world := discipline.same standing (by
        unfold Syncer.freeSlots Syncer.noLongerKept Syncer.dropPorts
        repeat' split
        all_goals rfl)
    exact safe_bind.mpr (safe_get.mpr (discipline.savePorts_stays standing))
  · exact standing

theorem rememberWire_stays {removed : List Mac} (standing : discipline.stage at' syncer world) :
    Safe env (rememberWire dev removed)
      (fun _ after world => discipline.stage at' after world) syncer world := by
  unfold rememberWire
  split
  · exact safe_modify.mpr (discipline.same standing rfl)
  · exact standing

theorem reflectPair_rests {seen : Finset Mac} {fp : FastPair}
    (opens : discipline.Opens fp.dev fp.anat.dev)
    (standing : discipline.stage .rest syncer world) :
    Safe env (reflectPair topo seen fp) (fun _ after world => discipline.stage .rest after world)
      syncer world := by
  unfold reflectPair
  split
  · exact standing
  · refine safe_bind.mpr ((discipline.loadOwned_stays standing).mono fun known _ _ standing => ?_)
    split
    · exact standing
    · refine safe_bind.mpr ((discipline.loads (opens _ _ standing)).mono
        fun ownedHere _ _ standing => ?_)
      refine safe_bind.mpr (discipline.look rfl standing fun order _ standing => ?_)
      have ours : ∀ mac ∈ order.list.filter (· ∈ ownedHere), mac ∈ ownedHere :=
        fun mac member => by simpa using (List.mem_filter.mp member).2
      refine safe_bind.mpr ((discipline.retires (order.nodup.filter _) ours standing).mono
        fun retired _ _ standing => ?_)
      have standing := discipline.rest_of_held standing
      refine safe_bind.mpr ((discipline.forgetReflected_stays standing).mono
        fun _ _ _ standing => ?_)
      exact safe_bind.mpr ((discipline.rememberWire_stays standing).mono
        fun _ _ _ standing => standing)

theorem reflectPairs_rests {seen : Name → Finset Mac} {pairs : List FastPair}
    (opens : ∀ fp ∈ pairs, discipline.Opens fp.dev fp.anat.dev)
    (standing : discipline.stage .rest syncer world) :
    Safe env (reflectPairs topo seen pairs)
      (fun _ after world => discipline.stage .rest after world) syncer world := by
  induction pairs generalizing syncer world with
  | nil => exact standing
  | cons fp rest ih =>
      refine safe_bind.mpr ((discipline.reflectPair_rests (opens fp (by simp)) standing).mono
        fun now _ _ standing => ?_)
      refine safe_bind.mpr ((ih (fun other member => opens other (by simp [member]))
        standing).mono fun _ _ _ standing => standing)

end Reflections

section Refresh

theorem readBack_stays {cache : ReadBack} (standing : discipline.stage at' syncer world) :
    Safe env (readBack index cache) (fun _ after world => discipline.stage at' after world)
      syncer world := by
  unfold readBack
  split
  · exact standing
  · refine safe_bind.mpr (discipline.look rfl standing fun answer _ standing => ?_)
    cases answer <;> exact standing

theorem growing_stays {pairs : List FastPair} {devs : List Name} {would : Candidates}
    {cache : ReadBack} (standing : discipline.stage at' syncer world) :
    Safe env (growing pairs devs would cache)
      (fun _ after world => discipline.stage at' after world) syncer world := by
  induction devs generalizing would cache syncer world with
  | nil => exact standing
  | cons dev rest ih =>
      unfold growing
      split
      · exact ih standing
      · refine safe_bind.mpr ((discipline.readBack_stays standing).mono
          fun result _ _ standing => ?_)
        split
        · exact standing
        · exact safe_bind.mpr ((discipline.loadOwned_stays standing).mono
            fun owned _ _ standing => ih standing)

/-- Refreshing changes only what the pairs may not register. -/
theorem refreshForGrowth_stays {pfs : List Index} {answer : Answer} {events : List Event}
    {pairs : List FastPair} (standing : discipline.stage at' syncer world) :
    Safe env (refreshForGrowth topo pfs answer events pairs)
      (fun result after world => discipline.stage at' after world ∧
        ∀ committed cache, result = .ok (committed, cache) → ∀ fp ∈ committed,
          ∃ before ∈ pairs, fp.dev = before.dev ∧ fp.anat = before.anat)
      syncer world := by
  unfold refreshForGrowth
  split
  · refine safe_bind.mpr (safe_get.mpr ?_)
    dsimp only
    refine safe_bind.mpr (discipline.look rfl standing fun devs _ standing => ?_)
    refine safe_bind.mpr ((discipline.growing_stays standing).mono fun result now _ standing => ?_)
    split
    · exact ⟨standing, by simp⟩
    · rename_i would cache
      split
      · refine ⟨standing, ?_⟩
        rintro _ _ ⟨⟩ fp member
        exact ⟨fp, member, rfl, rfl⟩
      · refine safe_bind.mpr (safe_modify.mpr (safe_bind.mpr ?_))
        have standing : discipline.stage at' { now with vfStale := true } _ :=
          discipline.same standing rfl
        refine discipline.look rfl standing fun grown _ standing => ?_
        refine safe_bind.mpr (discipline.look rfl standing fun reply _ standing => ?_)
        cases reply with
        | error errno => exact ⟨standing, by simp⟩
        | ok reply =>
            refine safe_bind.mpr (safe_modify.mpr (safe_bind.mpr (safe_get.mpr (safe_pure.mpr ?_))))
            refine ⟨discipline.same standing rfl, ?_⟩
            rintro _ _ ⟨⟩ fp member
            obtain ⟨before, inPairs, rfl⟩ := List.mem_map.mp member
            exact ⟨before, inPairs, rfl, rfl⟩
  · refine ⟨standing, ?_⟩
    rintro _ _ ⟨⟩ fp member
    exact ⟨fp, member, rfl, rfl⟩

end Refresh

section Learns

/-- The quiet addresses with a stamp, each once. -/
private theorem nodup_stamped {ports : PortMap} {macs : List Mac} (distinct : macs.Nodup) :
    ((macs.filterMap fun mac => (ports.lookup mac).map fun spot => (spot.2, mac)).map
      (·.2)).Nodup := by
  refine distinct.sublist ?_
  induction macs with
  | nil => simp
  | cons mac rest ih =>
      have tail := ih distinct.of_cons
      cases found : ports.lookup mac with
      | none => simpa [found] using tail.cons mac
      | some spot => simpa [found] using tail.cons_cons mac

private theorem nodup_surrendered {ports : PortMap} {quiet : Finset Mac} {bound need : Nat} :
    (((bySilence (((ascending quiet).filterMap fun mac =>
      (ports.lookup mac).map fun spot => (spot.2, mac)).filter (·.1 < bound))).take need).map
        (·.2)).Nodup := by
  have stamped := @nodup_stamped ports _ (nodup_ascending quiet)
  have pool := stamped.sublist ((List.filter_sublist (p := fun entry => entry.1 < bound)).map _)
  have sorted := ((bySilence_perm _).map (·.2)).nodup_iff.mpr pool
  exact sorted.sublist ((List.take_sublist _ _).map _)

theorem shedKeeps_holds {need : Nat} {onCard : Finset Mac}
    (standing : discipline.stage (.held dev index ∅ ∅) syncer world) :
    Safe env (shedKeeps dev index need topo onCard)
      (fun _ after world => discipline.stage (.held dev index ∅ ∅) after world) syncer world := by
  refine safe_bind.mpr ((discipline.loadOwned_stays standing).mono fun _ _ _ standing => ?_)
  refine safe_bind.mpr (safe_bind.mpr (safe_get.mpr (safe_pure.mpr ?_)))
  split
  · refine safe_bind.mpr (safe_get.mpr ?_)
    split
    · rename_i carried ports _ _
      dsimp only
      split
      · exact standing
      · refine safe_bind.mpr ((discipline.sheds nodup_surrendered ?_ standing).mono
          fun retired _ _ standing => ?_)
        · intro mac member
          obtain ⟨entry, chosen, rfl⟩ := List.mem_map.mp member
          have inPool := (bySilence_perm _).subset (List.mem_of_mem_take chosen)
          exact List.mem_toFinset.mpr (List.mem_map_of_mem inPool)
        · split
          · exact standing
          · refine safe_bind.mpr (safe_modify.mpr ?_)
            have standing : discipline.stage _ (Syncer.dropPorts _ dev retired.dropped) _ :=
              discipline.same standing (by unfold Syncer.dropPorts; split <;> rfl)
            refine safe_bind.mpr ((discipline.savePorts_stays standing).mono
              fun _ now _ standing => ?_)
            refine safe_bind.mpr (safe_modify.mpr ?_)
            have standing : discipline.stage _ (now.noLongerKept dev retired.dropped) _ :=
              discipline.same standing (by unfold Syncer.noLongerKept; split <;> rfl)
            exact safe_bind.mpr (discipline.look rfl standing fun _ _ standing => standing)
    · exact standing
  · exact standing

theorem stampLearns_stays {macs : List Mac} {learntOn : LearntAt} {now : Nat}
    (standing : discipline.stage at' syncer world) :
    Safe env (stampLearns dev macs learntOn now)
      (fun _ after world => discipline.stage at' after world) syncer world :=
  safe_modify.mpr (discipline.same standing (by split <;> rfl))

theorem makeRoom_holds {excess : Nat} {onCard : Finset Mac}
    (standing : discipline.stage (.held dev index ∅ ∅) syncer world) :
    Safe env (makeRoom dev index excess topo onCard)
      (fun _ after world => discipline.stage (.held dev index ∅ ∅) after world) syncer world := by
  unfold makeRoom
  split
  · exact discipline.shedKeeps_holds standing
  · exact standing

theorem registerCounted_rests {macs : List Mac} (distinct : macs.Nodup)
    (standing : discipline.stage (.held dev index ∅ ∅) syncer world) :
    Safe env (registerCounted dev index macs)
      (fun _ after world => discipline.stage .rest after world) syncer world := by
  refine safe_bind.mpr ((discipline.registers distinct standing).mono
    fun result _ _ standing => ?_)
  cases result <;> exact discipline.rest_of_held standing

theorem registerLearns_rests {fp : FastPair} {learns : List (Mac × Index)} {cache : ReadBack}
    (opens : discipline.Opens fp.dev fp.anat.dev)
    (standing : discipline.stage .rest syncer world) :
    Safe env (registerLearns topo fp learns cache)
      (fun _ after world => discipline.stage .rest after world) syncer world := by
  refine safe_bind.mpr (discipline.look rfl standing fun now _ standing => ?_)
  refine safe_bind.mpr ((discipline.stampLearns_stays standing).mono fun _ _ _ standing => ?_)
  refine safe_bind.mpr ((discipline.readBack_stays standing).mono fun result _ _ standing => ?_)
  split
  · exact standing
  · refine safe_bind.mpr (safe_get.mpr ?_)
    dsimp only
    refine safe_bind.mpr ((discipline.makeRoom_holds (opens _ _ standing)).mono
      fun freed _ _ standing => ?_)
    refine safe_bind.mpr ((discipline.stamps standing).mono fun _ _ _ standing => ?_)
    refine safe_bind.mpr ((discipline.registerCounted_rests (nodup_ascending _) standing).mono
      fun put _ _ standing => ?_)
    exact safe_bind.mpr (safe_modify.mpr (safe_pure.mpr (discipline.same standing rfl)))

theorem registerEach_rests {pairs : List FastPair} {candidates : Candidates} {devs : List Name}
    {cache : ReadBack} (opens : ∀ fp ∈ pairs, discipline.Opens fp.dev fp.anat.dev)
    (standing : discipline.stage .rest syncer world) :
    Safe env (registerEach topo pairs candidates devs cache)
      (fun _ after world => discipline.stage .rest after world) syncer world := by
  induction devs generalizing syncer cache world with
  | nil => exact standing
  | cons dev rest ih =>
      unfold registerEach
      split
      · exact ih standing
      · rename_i fp found
        refine safe_bind.mpr ((discipline.registerLearns_rests
          (opens fp (List.mem_of_find?_eq_some found)) standing).mono fun result _ _ standing => ?_)
        split
        · exact standing
        · exact ih standing

end Learns

theorem dateDeletions_stays {events : List Event} (standing : discipline.stage at' syncer world) :
    Safe env (dateDeletions topo events)
      (fun _ after world => discipline.stage at' after world ∧ after.toSettings = syncer.toSettings)
      syncer world := by
  unfold dateDeletions
  split
  · refine safe_bind.mpr (safe_bind.mpr (discipline.look rfl standing fun now _ standing => ?_))
    refine safe_modify.mpr (safe_pure.mpr ?_)
    obtain ⟨carriedPorts, same⟩ := @dateAll_marks syncer topo now events
    rw [same]
    exact ⟨discipline.same standing rfl, rfl⟩
  · exact ⟨standing, rfl⟩

theorem applyLearns_rests {events : List Event} {urgency : Urgency}
    (opens : ∀ pair ∈ syncer.pairs, ∀ index, topo.indexOf pair.dev = some index →
      discipline.Opens pair.dev index)
    (standing : discipline.stage .rest syncer world) :
    Safe env (applyLearns topo events urgency)
      (fun _ after world => discipline.stage .rest after world) syncer world := by
  refine safe_bind.mpr (safe_get.mpr ?_)
  dsimp only
  refine safe_bind.mpr ((discipline.askDriver_stays standing).mono
    fun result now _ ⟨standing, settings⟩ => ?_)
  cases result with
  | error errno => exact standing
  | ok answer =>
      refine safe_bind.mpr (safe_get.mpr ?_)
      have opensEach : ∀ fp ∈ now.fastPairs topo answer, discipline.Opens fp.dev fp.anat.dev := by
        intro fp member
        obtain ⟨pair, known, index, bridge, named, located, above, found, -⟩ := mem_fastPairs member
        rw [show now.pairs = syncer.pairs from congrArg Settings.pairs settings] at known
        rw [← named] at located ⊢
        rw [Topology.anatomy_dev found]
        exact opens pair known index located
      refine safe_bind.mpr ((discipline.reflectPairs_rests opensEach standing).mono
        fun reflected _ _ standing => ?_)
      refine safe_bind.mpr ((discipline.refreshForGrowth_stays standing).mono ?_)
      rintro result _ _ ⟨standing, committed⟩
      split
      · exact standing
      · rename_i pairs cache
        refine safe_bind.mpr (safe_get.mpr ?_)
        refine safe_bind.mpr (discipline.look rfl standing fun devs _ standing => ?_)
        refine safe_bind.mpr ((discipline.registerEach_rests ?_ standing).mono
          fun result _ _ standing => ?_)
        · intro fp member
          obtain ⟨marked, inMarked, sameDev, sameAnat⟩ := committed pairs cache rfl fp member
          obtain ⟨before, member, rfl⟩ := List.mem_map.mp inMarked
          rw [sameDev, sameAnat]
          exact opensEach before member
        · split <;> exact standing

theorem fastApply_rests {events : List Event}
    (opens : ∀ pair ∈ syncer.pairs, ∀ index, topo.indexOf pair.dev = some index →
      discipline.Opens pair.dev index)
    (standing : discipline.stage .rest syncer world) :
    Safe env (fastApply topo events) (fun _ after world => discipline.stage .rest after world)
      syncer world := by
  unfold fastApply
  split
  · exact standing
  · refine safe_bind.mpr (safe_get.mpr ?_)
    split
    · exact standing
    · refine safe_bind.mpr ((discipline.dateDeletions_stays standing).mono ?_)
      rintro urgency now _ ⟨standing, settings⟩
      split
      · refine discipline.applyLearns_rests ?_ standing
        rw [show now.pairs = syncer.pairs from congrArg Settings.pairs settings]
        exact opens
      · exact standing

end Discipline

end SriovMacSync
