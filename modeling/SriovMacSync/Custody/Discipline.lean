import SriovMacSync.Interaction.Judgement
import SriovMacSync.Sync.Flush

namespace SriovMacSync

open Data Netlink Interaction Interaction.Action

/-! What a pass, a batch and a flush do to the notes and the cards is a sequence
of locked sections with looks between them.  A discipline says what each section
owes; the three operations then keep it. -/

/-- Where a process stands with the notes. -/
inductive Stage where
  | rest
  /-- working on an uplink, with the addresses it counts as owned and those it
  has let go since -/
  | held (dev : Name) (index : Index) (owned dropped : Finset Mac)
  /-- about to move a note to its interface's new name -/
  | moving (old new : Name) (index : Index)

/-- The requests that only look, or that nobody outside can tell from none. -/
def Call.looks : Call → Bool
  | .setSelfFdb .. | .lock .. | .unlock _ | .putNote .. | .appendNote .. | .removeNote _
  | .putIndex .. | .removeIndex _ | .putPorts .. | .removePorts _ => false
  | _ => true

/-- The requests about port memory files. -/
def Call.filesPorts : Call → Bool
  | .portsExist _ | .putPorts .. | .removePorts _ => true
  | _ => false

/-- At most recorded indices were forgotten. -/
def Syncer.Forgets (before after : Syncer) : Prop :=
  ∀ dev, after.indices dev = before.indices dev ∨ after.indices dev = none

theorem Syncer.forgets_of_eq {before after : Syncer} (same : after.indices = before.indices) :
    before.Forgets after := fun dev => .inl (congrFun same dev)

theorem Syncer.indices_movePorts {syncer : Syncer} {dev new : Name} :
    (syncer.movePorts dev new).indices = syncer.indices := by
  unfold movePorts
  split <;> rfl

theorem Syncer.indices_moveCarried {syncer : Syncer} {dev new : Name} :
    (syncer.moveCarried dev new).indices = syncer.indices := by
  unfold moveCarried
  split <;> rfl

theorem Syncer.indices_followTo {syncer : Syncer} (dev new : Name) :
    (syncer.followTo dev new).indices = syncer.indices :=
  indices_moveCarried.trans indices_movePorts

structure Discipline {World : Type} (env : Environment Call Reply World) (topo : Topology) where
  stage : Stage → Syncer → World → Prop
  rest_of_held {dev index owned dropped syncer world} :
    stage (.held dev index owned dropped) syncer world → stage .rest syncer world
  afresh {dev index owned dropped syncer world} :
    stage (.held dev index owned dropped) syncer world →
      stage (.held dev index ∅ ∅) syncer world
  rest_of_moving {old new index syncer world} :
    stage (.moving old new index) syncer world → stage .rest syncer world
  forgets {at' syncer after world} : syncer.Forgets after →
    stage at' syncer world → stage at' after world
  looks {at' syncer world} {request : Call} : request.looks = true → stage at' syncer world →
    env.permits world request ∧
      ∀ reply after, env.answers world request reply after → stage at' syncer after
  ports {at' dev syncer world} {α : Type} {body : Sync α} : stage at' syncer world →
    Within (·.filesPorts = true) body (fun _ after => after = syncer) syncer →
    Safe env (locked dev .ports body) (fun _ after world => after = syncer ∧ stage at' after world)
      syncer world
  loads {dev index syncer world} : stage (.held dev index ∅ ∅) syncer world →
    Safe env (loadOwned dev) (fun owned after world => stage (.held dev index owned ∅) after world)
      syncer world
  stamps {dev index owned dropped syncer world} :
    stage (.held dev index owned dropped) syncer world →
    Safe env (noteIndex dev index)
      (fun _ after world => stage (.held dev index owned dropped) after world) syncer world
  registers {dev index owned macs syncer world} : macs.Nodup →
    stage (.held dev index owned ∅) syncer world →
    Safe env (registerBatchLocked dev index macs)
      (fun result after world =>
        stage (.held dev index (owned ∪ ((result.map (·.put)).getD []).toFinset) ∅) after world)
      syncer world
  retires {dev index owned macs syncer world} : macs.Nodup → (∀ mac ∈ macs, mac ∈ owned) →
    stage (.held dev index owned ∅) syncer world →
    Safe env (retire (.retire macs) dev index macs)
      (fun retired after world =>
        stage (.held dev index owned retired.dropped.toFinset) after world) syncer world
  sheds {dev index macs pool syncer world} : macs.Nodup → (∀ mac ∈ macs, mac ∈ pool) →
    stage (.held dev index ∅ ∅) syncer world →
    Safe env (retire (.shed pool) dev index macs)
      (fun _ after world => stage (.held dev index ∅ ∅) after world) syncer world
  merges {dev index before owned dropped syncer world} : before ⊆ owned →
    stage (.held dev index owned dropped) syncer world →
    Safe env (saveOwnedMerged dev before (owned \ dropped))
      (fun _ after world => stage (.held dev index ∅ ∅) after world) syncer world
  targets {dev syncer world} : stage .rest syncer world →
    Safe env (renamedTarget dev topo)
      (fun found after world => stage .rest after world ∧
        ∀ index new, found = some (index, new) → stage (.moving dev new index) after world)
      syncer world
  migrates {old new index syncer world} : stage (.moving old new index) syncer world →
    Safe env (migrateNote old new index) (fun _ after world => stage .rest after world)
      syncer world
  sweeps {dev syncer world} : stage .rest syncer world →
    Safe env (sweepNote dev topo) (fun _ after world => stage .rest after world) syncer world

namespace Discipline

variable {World : Type} {env : Environment Call Reply World} {topo : Topology}
  (discipline : Discipline env topo) {at' : Stage} {dev : Name} {index : Index}
  {syncer : Syncer} {world : World}

section Pieces

theorem same {after : Syncer} (standing : discipline.stage at' syncer world)
    (unchanged : after.indices = syncer.indices) : discipline.stage at' after world :=
  discipline.forgets (Syncer.forgets_of_eq unchanged) standing

theorem look {request : Call} {post : Reply request → Syncer → World → Prop}
    (looks : request.looks = true) (standing : discipline.stage at' syncer world)
    (next : ∀ reply after, discipline.stage at' syncer after → post reply syncer after) :
    Safe env (ask request) post syncer world := by
  obtain ⟨permitted, stays⟩ := discipline.looks looks standing
  exact safe_ask.mpr ⟨permitted, fun reply after answered => next reply after (stays _ _ answered)⟩

theorem loadOwned_stays (standing : discipline.stage at' syncer world) :
    Safe env (loadOwned dev) (fun _ after world => discipline.stage at' after world)
      syncer world := by
  refine safe_bind.mpr (discipline.look rfl standing fun reading after standing => ?_)
  refine safe_bind.mpr (safe_modify.mpr (safe_pure.mpr (discipline.forgets ?_ standing)))
  intro other
  dsimp only
  split
  · exact .inl rfl
  · by_cases own : other = dev
    · exact .inr (by simp [Syncer.setIndex, own])
    · exact .inl (by simp [Syncer.setIndex, Syncer.sawNote, own])

theorem recordedIndex_stays (standing : discipline.stage at' syncer world) :
    Safe env (recordedIndex dev)
      (fun _ after world => after = syncer ∧ discipline.stage at' syncer world) syncer world := by
  refine safe_bind.mpr (safe_get.mpr ?_)
  split
  · exact ⟨rfl, standing⟩
  · exact discipline.look rfl standing fun _ _ standing => ⟨rfl, standing⟩

theorem notedLink_stays (standing : discipline.stage at' syncer world) :
    Safe env (notedLink dev topo)
      (fun _ after world => after = syncer ∧ discipline.stage at' syncer world) syncer world := by
  unfold notedLink
  split
  · exact ⟨rfl, standing⟩
  · refine safe_bind.mpr ((discipline.recordedIndex_stays standing).mono ?_)
    rintro recorded _ after ⟨rfl, standing⟩
    split
    · exact ⟨rfl, standing⟩
    · exact ⟨rfl, standing⟩

theorem notedDevicesOrNone_stays (standing : discipline.stage at' syncer world) :
    Safe env notedDevicesOrNone
      (fun _ after world => after = syncer ∧ discipline.stage at' syncer world) syncer world := by
  refine safe_bind.mpr (safe_bind.mpr (discipline.look rfl standing fun listing after standing => ?_))
  cases listing <;> exact ⟨rfl, standing⟩

theorem loadPorts_stays (standing : discipline.stage at' syncer world) :
    Safe env (loadPorts dev topo) (fun _ after world => discipline.stage at' after world)
      syncer world := by
  refine safe_bind.mpr (safe_get.mpr ?_)
  split
  · exact standing
  · refine safe_bind.mpr (safe_modify.mpr ?_)
    have standing : discipline.stage at'
        { syncer with portsLoaded := insert dev syncer.portsLoaded } world :=
      discipline.same standing rfl
    split
    · exact standing
    · refine safe_bind.mpr (discipline.look rfl standing fun now after standing => ?_)
      refine safe_bind.mpr (safe_bind.mpr (discipline.look rfl standing fun text after standing => ?_))
      refine safe_pure.mpr ?_
      dsimp only
      split
      · exact safe_modify.mpr (discipline.same standing rfl)
      · exact standing

theorem askPorts_within {request : Call} (filesPorts : request.filesPorts = true) :
    Within (·.filesPorts = true) (ask request) (fun _ after => after = syncer) syncer :=
  within_ask.mpr ⟨filesPorts, fun _ => rfl⟩

theorem replacePorts_within {lines : List Text} :
    Within (·.filesPorts = true) (replacePorts dev lines) (fun _ after => after = syncer)
      syncer := by
  unfold replacePorts
  split
  · refine (askPorts_within rfl).bind ?_
    rintro removed _ rfl
    split
    · exact within_pure.mpr rfl
    · exact (askPorts_within rfl).bind fun _ _ same => within_pure.mpr same
  · exact askPorts_within rfl

theorem memoHolds_within {keys : List Text} {empty : Bool} :
    Within (·.filesPorts = true) (memoHolds dev keys empty) (fun _ after => after = syncer)
      syncer := by
  refine within_get ?_
  split
  · exact (askPorts_within rfl).bind fun _ _ same => within_pure.mpr same
  · exact within_pure.mpr rfl

theorem savePorts_stays {passAt : Nat} (standing : discipline.stage at' syncer world) :
    Safe env (savePorts dev topo passAt) (fun _ after world => discipline.stage at' after world)
      syncer world := by
  refine safe_bind.mpr (safe_get.mpr ?_)
  split
  · exact standing
  · dsimp only
    refine safe_bind.mpr ((discipline.ports standing ?_).mono ?_)
    · refine memoHolds_within.bind ?_
      rintro memo _ rfl
      split
      · exact within_pure.mpr rfl
      · exact replacePorts_within.bind fun _ _ same => within_pure.mpr same
    · rintro wrote _ after ⟨rfl, still⟩
      split
      · exact still
      · exact safe_modify.mpr (discipline.same still rfl)

theorem followRename_rests {new : Name} (standing : discipline.stage (.moving dev new index) syncer world) :
    Safe env (followRename dev new index topo)
      (fun _ after world => discipline.stage .rest after world) syncer world := by
  refine safe_bind.mpr ((discipline.loadPorts_stays standing).mono fun _ _ _ standing => ?_)
  refine safe_bind.mpr ((discipline.migrates standing).mono fun moved after _ standing => ?_)
  split
  · refine safe_bind.mpr (safe_modify.mpr ?_)
    have standing : discipline.stage .rest (after.followTo dev new) _ :=
      discipline.same standing (Syncer.indices_followTo dev new)
    exact safe_bind.mpr (safe_get.mpr (safe_bind.mpr ((discipline.savePorts_stays standing).mono
      fun _ _ _ standing => standing)))
  · exact standing

end Pieces

section Orphans

theorem sweepOrphan_rests {act : Bool} (standing : discipline.stage .rest syncer world) :
    Safe env (sweepOrphan dev topo act) (fun _ after world => discipline.stage .rest after world)
      syncer world := by
  unfold sweepOrphan
  split
  · refine safe_bind.mpr ((discipline.sweeps standing).mono fun gone after _ standing => ?_)
    refine safe_modify.mpr (discipline.same standing ?_)
    split <;> rfl
  · exact safe_bind.mpr ((discipline.loadOwned_stays standing).mono fun _ _ _ standing => standing)

theorem isUnidentified_stays (standing : discipline.stage at' syncer world) :
    Safe env (isUnidentified dev) (fun _ after world => discipline.stage at' after world)
      syncer world := by
  refine safe_bind.mpr (discipline.look rfl standing fun recorded after standing => ?_)
  split
  · exact standing
  · exact safe_bind.mpr ((discipline.loadOwned_stays standing).mono fun _ _ _ standing => standing)

theorem dropOrphan_rests {apply : Bool} (standing : discipline.stage .rest syncer world) :
    Safe env (dropOrphan topo apply dev) (fun _ after world => discipline.stage .rest after world)
      syncer world := by
  refine safe_bind.mpr (safe_get.mpr ?_)
  dsimp only
  refine safe_bind.mpr ((discipline.notedLink_stays standing).mono ?_)
  rintro found _ after ⟨rfl, standing⟩
  split
  · exact discipline.sweepOrphan_rests standing
  · refine safe_bind.mpr ((discipline.isUnidentified_stays standing).mono
      fun unidentified _ _ standing => ?_)
    split
    · exact standing
    · refine safe_bind.mpr ((discipline.targets standing).mono ?_)
      rintro target after' _ ⟨standing, moving⟩
      split
      · split
        · exact safe_bind.mpr ((discipline.followRename_rests (moving _ _ rfl)).mono
            fun _ _ _ standing => standing)
        · exact standing
      · exact discipline.sweepOrphan_rests standing

theorem orphaned_stays (standing : discipline.stage at' syncer world) :
    Safe env orphaned (fun _ after world => discipline.stage at' after world) syncer world := by
  refine safe_bind.mpr (safe_get.mpr ?_)
  have rest {before : Syncer} {world : World} (standing : discipline.stage at' before world) :
      Safe env (do
        let now : Nat ← ask .now
        let noted ← notedDevicesOrNone
        let syncer ← get
        let live := syncer.pairs.map (·.dev)
        let missing := noted.filter (· ∉ live)
        let since := fun dev => (syncer.absentSince dev).getD now
        modify fun syncer =>
          { syncer with absentSince := fun dev => if dev ∈ missing then some (since dev) else none }
        return missing.filter fun dev => now - since dev ≥ syncer.orphanGrace)
        (fun _ after world => discipline.stage at' after world) before world := by
    refine safe_bind.mpr (discipline.look rfl standing fun now after standing => ?_)
    refine safe_bind.mpr ((discipline.notedDevicesOrNone_stays standing).mono ?_)
    rintro noted _ _ ⟨rfl, standing⟩
    exact safe_bind.mpr (safe_get.mpr (safe_bind.mpr (safe_modify.mpr (safe_pure.mpr
      (discipline.same standing rfl)))))
  split
  · exact safe_bind.mpr (safe_modify.mpr (safe_pure.mpr (discipline.same standing rfl)))
  · exact rest standing

theorem dropOrphans_rests {apply : Bool} (standing : discipline.stage .rest syncer world) :
    Safe env (dropOrphans topo apply) (fun _ after world => discipline.stage .rest after world)
      syncer world := by
  refine safe_bind.mpr ((discipline.orphaned_stays standing).mono fun devs _ _ standing => ?_)
  exact safe_forM standing fun _ _ _ _ standing => discipline.dropOrphan_rests standing

end Orphans

end Discipline

end SriovMacSync
