import SriovMacSync.Custody.Discipline

namespace SriovMacSync

open Data Netlink Interaction Interaction.Action

/-! A pass and a flush keep every discipline. -/

namespace Discipline

variable {World : Type} {env : Environment Call Reply World} {topo : Topology}
  (discipline : Discipline env topo) {at' : Stage} {dev : Name} {index : Index}
  {syncer : Syncer} {world : World}

theorem askDriver_stays {pfs : List Index} (standing : discipline.stage at' syncer world) :
    Safe env (askDriver pfs)
      (fun _ after world => discipline.stage at' after world ∧ after.toSettings = syncer.toSettings)
      syncer world := by
  refine safe_bind.mpr (safe_get.mpr ?_)
  split
  · exact ⟨standing, rfl⟩
  · refine safe_bind.mpr (discipline.look rfl standing fun reply _ standing => ?_)
    cases reply with
    | error errno => exact ⟨standing, rfl⟩
    | ok fresh => exact ⟨discipline.same standing rfl, rfl⟩

theorem decideWanted_stays {reading : Reading} {anat : Anatomy} {answer : Answer}
    {owned : Finset Mac} (standing : discipline.stage at' syncer world) :
    Safe env (decideWanted reading dev anat answer owned)
      (fun _ after world => discipline.stage at' after world) syncer world := by
  refine safe_bind.mpr (safe_get.mpr ?_)
  dsimp only
  split
  · refine safe_bind.mpr (safe_modify.mpr (safe_bind.mpr ?_))
    have standing : discipline.stage at' { syncer with vfStale := true } world :=
      discipline.same standing rfl
    refine discipline.look rfl standing fun reply _ standing => ?_
    cases reply with
    | error errno => exact standing
    | ok fresh => exact discipline.same standing rfl
  · exact standing

theorem recordOwner_stays {needed : Bool} {owned dropped : Finset Mac}
    (standing : discipline.stage (.held dev index owned dropped) syncer world) :
    Safe env (recordOwner needed dev index)
      (fun _ after world => discipline.stage (.held dev index owned dropped) after world)
      syncer world := by
  unfold recordOwner
  split
  · exact discipline.stamps standing
  · exact standing

theorem registerMissing_holds {act : Bool} {owned : Finset Mac} {toAdd : List Mac}
    (distinct : toAdd.Nodup) (standing : discipline.stage (.held dev index owned ∅) syncer world) :
    Safe env (registerMissing act dev index toAdd)
      (fun put after world => discipline.stage (.held dev index (owned ∪ put.toFinset) ∅) after world)
      syncer world := by
  have nothing {after : Syncer} {world : World}
      (standing : discipline.stage (.held dev index owned ∅) after world) :
      discipline.stage (.held dev index (owned ∪ ([] : List Mac).toFinset) ∅) after world := by
    simpa using standing
  unfold registerMissing
  split
  · refine safe_bind.mpr ((discipline.registers distinct standing).mono ?_)
    rintro result after _ standing
    cases result with
    | none => exact standing
    | some registered => exact standing
  · exact nothing standing

theorem retireStale_holds {act : Bool} {owned : Finset Mac} {stale : List Mac}
    (distinct : stale.Nodup) (ours : ∀ mac ∈ stale, mac ∈ owned)
    (standing : discipline.stage (.held dev index owned ∅) syncer world) :
    Safe env (retireStale act dev index stale)
      (fun retired after world =>
        discipline.stage (.held dev index owned retired.dropped.toFinset) after world)
      syncer world := by
  unfold retireStale
  split
  · refine safe_bind.mpr ((discipline.retires distinct ours standing).mono ?_)
    rintro retired after _ standing
    refine safe_bind.mpr (safe_modify.mpr (safe_pure.mpr (discipline.same standing ?_)))
    unfold Syncer.dropPorts
    split <;> rfl
  · exact standing

theorem mergeOwned_rests {apply : Bool} {before owned dropped : Finset Mac} (grown : before ⊆ owned)
    (standing : discipline.stage (.held dev index owned dropped) syncer world) :
    Safe env (mergeOwned apply dev before (owned \ dropped))
      (fun _ after world => discipline.stage .rest after world) syncer world := by
  unfold mergeOwned
  split
  · exact (discipline.merges grown standing).mono fun _ _ _ standing =>
      discipline.rest_of_held standing
  · exact discipline.rest_of_held standing

theorem settleCard_rests {reading : Reading} {want owned : Finset Mac}
    (standing : discipline.stage (.held dev index owned ∅) syncer world) :
    Safe env (settleCard reading dev index want owned)
      (fun _ after world => discipline.stage .rest after world) syncer world := by
  refine safe_bind.mpr (safe_get.mpr (safe_bind.mpr ?_))
  refine discipline.look rfl standing fun wantOrder _ standing => ?_
  refine safe_bind.mpr ((discipline.recordOwner_stays standing).mono fun _ _ _ standing => ?_)
  have distinct := wantOrder.nodup.filter fun mac => decide (mac ∉ selfList reading.fdb index)
  refine safe_bind.mpr ((discipline.registerMissing_holds distinct standing).mono
    fun put _ _ standing => ?_)
  refine safe_bind.mpr (discipline.look rfl standing fun ownedOrder _ standing => ?_)
  have ours : ∀ mac ∈ ownedOrder.list.filter (· ∉ want), mac ∈ owned ∪ put.toFinset :=
    fun mac member => (ownedOrder.mem_iff mac).mp (List.mem_filter.mp member).1
  refine safe_bind.mpr ((discipline.retireStale_holds (ownedOrder.nodup.filter _) ours standing).mono
    fun retired _ _ standing => ?_)
  exact safe_bind.mpr ((discipline.mergeOwned_rests Finset.subset_union_left standing).mono
    fun _ _ _ standing => standing)

theorem reportReleased_stays {apply : Bool} {shed : List Mac}
    (standing : discipline.stage at' syncer world) :
    Safe env (reportReleased apply dev shed)
      (fun _ after world => discipline.stage at' after world) syncer world := by
  unfold reportReleased
  split
  · exact safe_bind.mpr (discipline.look rfl standing fun _ _ standing => standing)
  · exact standing

end Discipline

namespace Discipline

variable {World : Type} {env : Environment Call Reply World} {reading : Reading}
  (discipline : Discipline env reading.topo) {at' : Stage} {dev : Name} {index : Index}
  {syncer : Syncer} {world : World}

theorem refreshMemory_stays {readable : Bool} {learntAt : LearntAt} {owned : Finset Mac}
    (standing : discipline.stage at' syncer world) :
    Safe env (refreshMemory reading dev readable learntAt owned)
      (fun _ after world => discipline.stage at' after world) syncer world := by
  unfold refreshMemory
  split
  · refine safe_bind.mpr (safe_modify.mpr ?_)
    have standing : discipline.stage at' (syncer.setPorts dev (some (PortMap.follow
        ((syncer.carriedPorts dev).getD ∅) learntAt reading.passAt owned))) world :=
      discipline.same standing rfl
    split
    · exact discipline.savePorts_stays standing
    · exact standing
  · exact standing

theorem passUplink_rests {pair : Pair} {link : Link} {anat : Anatomy} {answer : Answer}
    (standing : discipline.stage (.held pair.dev anat.dev ∅ ∅) syncer world) :
    Safe env (passUplink reading pair link anat answer)
      (fun _ after world => discipline.stage .rest after world) syncer world := by
  refine safe_bind.mpr ((discipline.loadPorts_stays standing).mono fun _ _ _ standing => ?_)
  refine safe_bind.mpr ((discipline.loads standing).mono fun owned _ _ standing => ?_)
  refine safe_bind.mpr (safe_bind.mpr (safe_get.mpr (safe_pure.mpr ?_)))
  refine safe_bind.mpr ((discipline.decideWanted_stays standing).mono fun result _ _ standing => ?_)
  split
  · exact discipline.rest_of_held standing
  · refine safe_bind.mpr (safe_get.mpr ?_)
    dsimp only
    refine safe_bind.mpr ((discipline.reportReleased_stays standing).mono fun _ _ _ standing => ?_)
    refine safe_bind.mpr ((discipline.settleCard_rests standing).mono
      fun settled _ _ standing => ?_)
    refine safe_bind.mpr ((discipline.refreshMemory_stays standing).mono fun _ _ _ standing => ?_)
    exact safe_bind.mpr (safe_modify.mpr (safe_pure.mpr (discipline.same standing rfl)))

/-- A pass settles the name of an uplink before it works on it. -/
def Settles : Prop :=
  ∀ dev index syncer world, reading.topo.indexOf dev = some index →
    discipline.stage .rest syncer world →
    Safe env (settleName reading dev index)
      (fun go after world =>
        discipline.stage (if go then .held dev index ∅ ∅ else .rest) after world) syncer world

theorem passPair_rests (settles : discipline.Settles) {pair : Pair} {answer : Answer}
    (standing : discipline.stage .rest syncer world) :
    Safe env (passPair reading pair answer)
      (fun _ after world => discipline.stage .rest after world) syncer world := by
  unfold passPair
  split
  · rename_i link bridge found above
    split
    · rename_i anat anatomy
      refine safe_bind.mpr ((settles _ _ _ _ (Topology.get_spec found).1 standing).mono
        fun go _ _ standing => ?_)
      cases go with
      | true =>
          rw [← Topology.anatomy_dev anatomy] at standing
          exact discipline.passUplink_rests standing
      | false => exact standing
    · exact standing
  · exact standing

theorem passPairs_rests (settles : discipline.Settles) {pairs : List Pair} {answer : Answer}
    (standing : discipline.stage .rest syncer world) :
    Safe env (passPairs reading pairs answer)
      (fun _ after world => discipline.stage .rest after world) syncer world := by
  induction pairs generalizing syncer answer world with
  | nil => exact standing
  | cons pair rest ih =>
      refine safe_bind.mpr ((discipline.passPair_rests settles standing).mono
        fun result _ _ standing => ?_)
      split
      · exact standing
      · refine safe_bind.mpr ((ih standing).mono fun result _ _ standing => ?_)
        split <;> exact standing

end Discipline

namespace Discipline

variable {World : Type} {env : Environment Call Reply World} {topo : Topology}
  (discipline : Discipline env topo) {dev : Name} {syncer : Syncer} {world : World}

theorem reconcile_rests {apply : Bool}
    (settles : ∀ fdb pfs passAt,
      @Settles _ _ { topo, apply, fdb, pfs, passAt } discipline)
    (standing : discipline.stage .rest syncer world) :
    Safe env (reconcile apply topo) (fun _ after world => discipline.stage .rest after world)
      syncer world := by
  refine safe_bind.mpr (safe_get.mpr ?_)
  dsimp only
  split
  · exact safe_bind.mpr ((discipline.dropOrphans_rests standing).mono fun _ _ _ standing => standing)
  · refine safe_bind.mpr (discipline.look rfl standing fun dump _ standing => ?_)
    cases dump with
    | error errno => exact standing
    | ok fdb =>
        refine safe_bind.mpr ((discipline.askDriver_stays standing).mono
          fun result now _ ⟨standing, _⟩ => ?_)
        cases result with
        | error errno => exact standing
        | ok answer =>
            refine safe_bind.mpr (safe_bind.mpr (discipline.look rfl standing
              fun clock _ standing => ?_))
            refine safe_bind.mpr (safe_get.mpr (safe_bind.mpr (safe_modify.mpr (safe_pure.mpr ?_))))
            have standing : discipline.stage .rest { now with
                lastPassAt := max clock (now.lastPassAt + 1) } _ :=
              discipline.same standing rfl
            refine safe_bind.mpr ((discipline.dropOrphans_rests standing).mono
              fun _ _ _ standing => ?_)
            exact @passPairs_rests _ _ { topo, apply, fdb, pfs := _, passAt := _ } discipline _ _
              (settles fdb _ _) _ _ standing

theorem flushNotes_rests {devs : List Name}
    (flushes : ∀ dev syncer world, discipline.stage .rest syncer world →
      Safe env (flushNote dev topo) (fun _ after world => discipline.stage .rest after world)
        syncer world)
    (standing : discipline.stage .rest syncer world) :
    Safe env (flushNotes topo devs) (fun _ after world => discipline.stage .rest after world)
      syncer world := by
  induction devs generalizing syncer world with
  | nil => exact standing
  | cons dev rest ih =>
      refine safe_bind.mpr (safe_get.mpr ?_)
      dsimp only
      split
      · refine safe_bind.mpr (safe_bind.mpr ((discipline.loadOwned_stays standing).mono
          fun _ _ _ standing => safe_bind.mpr (safe_get.mpr (safe_pure.mpr ?_))))
        exact safe_bind.mpr ((ih standing).mono fun _ _ _ standing => standing)
      · refine safe_bind.mpr ((flushes dev _ _ standing).mono fun _ _ _ standing => ?_)
        exact safe_bind.mpr ((ih standing).mono fun _ _ _ standing => standing)

end Discipline

end SriovMacSync
