import SriovMacSync.Ownership.Concurrency
import SriovMacSync.Removals.Sections

namespace SriovMacSync

open Data Netlink Interaction Interaction.Action

/-! # What is retired is on the note

Any number of processes at work on one uplink, whatever its name and index do, while
other parties add to the card and remove from it. -/

variable {dev : Name} {home : Index} {syncer : Syncer} {topo : Topology}

section Operations

theorem settleName_guarding {reading : Reading} :
    (guardingDiscipline dev reading.topo).Settles := by
  rintro name index now sight - standing
  obtain rfl : sight = none := standing
  have settled : Safe (guarding dev) (settleName reading name index)
      (fun _ _ sight => sight = none) now none := by
    have standing : (guardingDiscipline dev reading.topo).stage .rest now none := rfl
    refine safe_bind.mpr (((guardingDiscipline dev reading.topo).recordedIndex_stays standing).mono ?_)
    rintro recorded _ _ ⟨rfl, rfl⟩
    split
    · rfl
    · refine safe_bind.mpr (safe_get.mpr ?_)
      split
      · rfl
      · refine safe_bind.mpr (((guardingDiscipline dev reading.topo).targets rfl).mono ?_)
        rintro target after _ ⟨rfl, moving⟩
        split
        · exact (guardingDiscipline dev reading.topo).followRename_rests (moving _ _ rfl)
        · have removed : Safe (guarding dev) (locked name .reused (removeNote name))
              (fun _ _ sight => sight = none) after none := by
            by_cases own : name = dev
            · exact own ▸ tame_section removeNote_tame
            · exact apart_rests (locked_within own (removeNote_within own))
          exact safe_bind.mpr (removed.mono fun _ _ _ held => safe_bind.mpr (safe_modify.mpr held))
  refine settled.mono fun go _ _ held => ?_
  cases go <;> exact held

theorem flush_guarding :
    Safe (guarding dev) flush (fun _ _ sight => sight = none) syncer none := by
  refine safe_bind.mpr (safe_ask.mpr ⟨trivial, ?_⟩)
  rintro reading _ rfl
  cases reading with
  | error errno => rfl
  | ok topo =>
      refine safe_bind.mpr (safe_bind.mpr (safe_ask.mpr ⟨trivial, ?_⟩))
      rintro listing _ rfl
      cases listing with
      | error errno => rfl
      | ok devs =>
          refine safe_pure.mpr (safe_bind.mpr
            ((guardingDiscipline dev topo).flushNotes_rests ?_ rfl))
          rintro name now _ rfl
          by_cases own : name = dev
          · exact own ▸ flushNote_guarding
          · exact flushNote_apart own

theorem Undertaking.safe {program : Program Call Reply Syncer}
    (undertaking : Undertaking syncer program) :
    program.Safe (guarding dev) (fun _ sight => sight = none) none := by
  cases undertaking with
  | pass apply topo =>
      exact Safe.leaving ((guardingDiscipline dev topo).reconcile_rests
        (fun _ _ _ => settleName_guarding) rfl)
  | batch topo events =>
      exact Safe.leaving ((guardingDiscipline dev topo).fastApply_rests
        (fun _ _ _ _ _ _ standing => standing) rfl)
  | flush => exact Safe.leaving flush_guarding
  | told settings vfStale => rfl

end Operations

section Processes

variable {Process : Type} [DecidableEq Process]

/-- Every reading and every write may fail, with or without effect; `admits` says which
sections a run enters. -/
def rough (admits : Ground Process → Section → Prop) : Terms Process where
  writesFail := True
  readsFail := True
  refuses _ _ := True
  admits := admits

/-- Processes at work on one uplink; between their steps other parties may do anything to
the card, and a process may die and be followed by another. -/
def openSystem (admits : Ground Process → Section → Prop) (dev : Name) (home : Index) :
    System Process Call Reply Syncer (Ground Process) where
  fresh _ := True
  operations := Undertaking
  answers process ground request reply after :=
    ground.Answers (rough admits) dev home process request reply after
  drifts ground after := ∃ card, after = { ground with card }
  dies process ground after := after = ground.release process

/-- What a section comes to retire is on the note when it gets the lock. -/
def victimsNoted (ground : Ground Process) (work : Section) : Prop := work.victims ⊆ ground.note

namespace Ground

/-- What the holder of the lock sees. -/
def sight (process : Process) (ground : Ground Process) : Sight :=
  if ground.holder = some process then some ground.note else none

variable {ground after : Ground Process} {process : Process}

theorem sight_of_holder (holds : ground.holder = some process) :
    ground.sight process = some ground.note := if_pos holds

theorem holder_of_sight (sees : ground.sight process ≠ none) : ground.holder = some process := by
  by_contra apart
  exact sees (if_neg apart)

theorem sight_congr (note : after.note = ground.note) (holder : after.holder = ground.holder) :
    after.sight process = ground.sight process := by
  rw [sight, sight, note, holder]

/-- Only its holder sees a note change. -/
theorem sight_others {other : Process} (holds : ground.holder = some process)
    (holder : after.holder = ground.holder) (apart : other ≠ process) :
    after.sight other = ground.sight other := by
  have unseen {state : Ground Process} (held : state.holder = some process) :
      state.sight other = none := by
    refine if_neg fun same => apart ?_
    exact Option.some.inj (same.symm.trans held)
  rw [unseen (holder.trans holds), unseen holds]

theorem holder_release : (ground.release process).holder =
    if ground.holder = some process then none else ground.holder := by
  unfold release
  split <;> rfl

theorem sight_release : (ground.release process).sight process = none := by
  refine if_neg ?_
  rw [holder_release]
  split
  · exact nofun
  · assumption

theorem sight_release_others {other : Process} (apart : other ≠ process) :
    (ground.release process).sight other = ground.sight other := by
  unfold release
  split
  · rename_i holds
    rw [sight, sight, holds, if_neg nofun, if_neg fun same => apart (Option.some.inj same).symm]
  · rfl

end Ground

section Steps

variable {ground after : Ground Process} {process : Process}

omit [DecidableEq Process] in
theorem Ground.Writes.note {terms : Terms Process} {mac : Mac} {add : Bool}
    {reply : Except Errno Unit} (writes : ground.Writes terms mac add reply after) :
    after.note = ground.note := by
  cases writes <;> rfl

/-- What one step means to the process that takes it, and to all others. -/
def Faithful (dev : Name) (process : Process) (request : Call) (reply : Reply request)
    (ground after : Ground Process) : Prop :=
  (ground.sight process).Becomes dev request reply (after.sight process) ∧
    ∀ other, other ≠ process → after.sight other = ground.sight other

/-- Nothing about the note changed. -/
theorem faithful_same {request : Call} {reply : Reply request} (note : after.note = ground.note)
    (holder : after.holder = ground.holder)
    (becomes : (ground.sight process).Becomes dev request reply (ground.sight process)) :
    Faithful dev process request reply ground after := by
  refine ⟨?_, fun other _ => Ground.sight_congr note holder⟩
  rw [Ground.sight_congr note holder]
  exact becomes

/-- The holder of the lock wrote the note. -/
theorem faithful_write {request : Call} {reply : Reply request}
    (holds : ground.holder = some process) (holder : after.holder = ground.holder)
    (becomes : ∀ note, (ground.sight process).Becomes dev request reply (some note)) :
    Faithful dev process request reply ground after := by
  refine ⟨?_, fun other apart => Ground.sight_others holds holder apart⟩
  rw [Ground.sight_of_holder (holder.trans holds)]
  exact becomes after.note

theorem faithful_lock {work : Section} {reply : Unit} (free : ground.holder = none)
    (noted : victimsNoted ground work) :
    Faithful dev process (.lock dev work) reply ground (ground.hold process) := by
  refine ⟨(if_pos rfl).mpr ⟨ground.note, Ground.sight_of_holder rfl, noted⟩, fun other apart => ?_⟩
  have unseen : ground.sight other = none := if_neg (by rw [free]; exact nofun)
  rw [unseen]
  exact if_neg fun same => apart (Option.some.inj same).symm

omit [DecidableEq Process] in
theorem rewrites_spec {terms : Terms Process} {intended : Finset Mac} {done : Bool}
    (rewrites : ground.Rewrites terms intended done after) : after.holder = ground.holder := by
  rcases rewrites with ⟨rfl, -⟩ | ⟨-, -, rfl⟩ <;> rfl

theorem open_step {admits : Ground Process → Section → Prop} {request : Call} {reply : Reply request}
    (noted : ∀ ground work, admits ground work → victimsNoted ground work)
    (permitted : (ground.sight process).Permits dev request)
    (answered : ground.Answers (rough admits) dev home process request reply after) :
    Faithful dev process request reply ground after := by
  have held {name : Name} (own : name = dev)
      (permitted : name = dev → ground.sight process ≠ none) : ground.holder = some process :=
    Ground.holder_of_sight (permitted own)
  cases request with
  | lock name work =>
      by_cases own : name = dev
      · subst own
        obtain ⟨free, admitted, rfl⟩ := (if_pos rfl).mp answered
        exact faithful_lock free (noted ground work admitted)
      · obtain rfl := (if_neg own).mp answered
        exact faithful_same rfl rfl ((if_neg own).mpr rfl)
  | unlock name =>
      by_cases own : name = dev
      · obtain rfl : after = ground.release process := answered.trans (if_pos own)
        exact ⟨Ground.sight_release.trans (if_pos own).symm, fun _ => Ground.sight_release_others⟩
      · obtain rfl : after = ground := answered.trans (if_neg own)
        exact faithful_same rfl rfl (if_neg own).symm
  | readNote name =>
      obtain ⟨rfl, shows⟩ := answered
      refine faithful_same rfl rfl ⟨rfl, fun own note seen => ?_⟩
      have holds := Ground.holder_of_sight (by rw [seen]; exact nofun)
      rw [Ground.sight_of_holder holds] at seen
      rw [← Option.some.inj seen]
      exact (shows own).imp_right And.right
  | putNote name macs =>
      by_cases own : name = dev
      · have rewrites := (if_pos own).mp answered
        exact faithful_write (held own permitted) (rewrites_spec rewrites)
          fun note => (if_pos own).mpr ⟨note, rfl⟩
      · obtain rfl := (if_neg own).mp answered
        exact faithful_same rfl rfl ((if_neg own).mpr rfl)
  | appendNote name macs =>
      by_cases own : name = dev
      · have rewrites := (if_pos own).mp answered
        exact faithful_write (held own permitted) (rewrites_spec rewrites)
          fun note => (if_pos own).mpr ⟨note, rfl⟩
      · obtain rfl := (if_neg own).mp answered
        exact faithful_same rfl rfl ((if_neg own).mpr rfl)
  | removeNote name =>
      by_cases own : name = dev
      · have holder : after.holder = ground.holder := by
          rcases (if_pos own).mp answered with rfl | ⟨-, rfl⟩ <;> rfl
        exact faithful_write (held own permitted) holder fun note => (if_pos own).mpr ⟨note, rfl⟩
      · obtain rfl := (if_neg own).mp answered
        exact faithful_same rfl rfl ((if_neg own).mpr rfl)
  | setSelfFdb index mac add =>
      by_cases here : index = home
      · have writes := (if_pos here).mp answered
        exact faithful_same writes.note writes.holder rfl
      · obtain rfl := (if_neg here).mp answered
        exact faithful_same rfl rfl rfl
  | dumpFdb => exact faithful_same (by rw [answered.1]) (by rw [answered.1]) rfl
  | dumpFdbOf index => exact faithful_same (by rw [answered.1]) (by rw [answered.1]) rfl
  | _ =>
      obtain rfl : after = ground := answered
      exact faithful_same rfl rfl rfl

end Steps

/-- Every process does what its judgement says, whatever the others do. -/
theorem guarding_seen :
    (openSystem (victimsNoted : Ground Process → Section → Prop) dev home).Seen (guarding dev)
      Ground.sight (fun _ => True) fun _ sight => sight = none where
  step _ permitted answered := ⟨trivial, open_step (fun _ _ noted => noted) permitted answered⟩
  drift {ground after} _ drifted := by
    obtain ⟨card, rfl⟩ := drifted
    exact ⟨trivial, fun _ => rfl⟩
  die {process ground after program} _ _ died := by
    obtain rfl : after = ground.release process := died
    exact ⟨trivial, fun _ _ => Ground.sight_release, fun _ apart => Ground.sight_release_others apart⟩
  operation {memory program sight} rests undertaking := by
    obtain rfl : sight = none := rests
    exact Undertaking.safe undertaking

/-- Whoever holds the note's lock takes out only what the note names. -/
theorem removals_under_lock_are_noted {start : Ground Process → Prop}
    (free : ∀ ground, start ground → ground.holder = none)
    {programs : Process → Program Call Reply Syncer} {ground : Ground Process}
    (reached : (openSystem victimsNoted dev home).Reachable start programs ground)
    {process : Process} (inside : ground.holder = some process) {index : Index} {mac : Mac}
    (asks : (programs process).asks = some (.setSelfFdb index mac false)) : mac ∈ ground.note := by
  have begins (ground : Ground Process) (begun : start ground) : True ∧
      ∀ process (_ : Syncer), True → ground.sight process = none := by
    refine ⟨trivial, fun process _ _ => if_neg ?_⟩
    rw [free ground begun]
    exact nofun
  obtain ⟨-, safe⟩ := guarding_seen.reachable begins reached
  obtain ⟨next, same⟩ := Program.of_asks asks
  have own := safe process
  rw [same] at own
  exact own.1 ground.note (Ground.sight_of_holder inside)

/-- A process runs on alone until it is held up. -/
theorem open_advance {admits : Ground Process → Section → Prop} (scene : Host)
    (enters : Ground Process → Section → Bool) (stops : Call → Bool)
    (keeps : scene.topo.Keeps dev home)
    (admitted : ∀ ground work, enters ground work = true → admits ground work)
    {start : Ground Process → Prop} {programs : Process → Program Call Reply Syncer}
    {ground : Ground Process} (process : Process)
    (reached : (openSystem admits dev home).Reachable start programs ground) :
    (openSystem admits dev home).Reachable start
      (Function.update programs process ((programs process).advance
        (Ground.reply scene dev home process) (Ground.goes dev enters stops) ground).1)
      ((programs process).advance (Ground.reply scene dev home process)
        (Ground.goes dev enters stops) ground).2 := by
  refine reached.run rfl (Program.advance_reaches (fun ground request goes => ?_) _ _)
  exact (@Ground.answers_reply Process _ (rough admits) dev home process scene enters stops keeps
    admitted ground request goes).2

end Processes

section Examples

def anything : Ground Bool → Section → Prop := fun _ _ => True

def beforeRetiring : Call → Bool
  | .lock _ (.retire _) => true
  | _ => false

instance {Process : Type} {ground : Ground Process} {work : Section} :
    Decidable (victimsNoted ground work) := inferInstanceAs (Decidable (work.victims ⊆ ground.note))

set_option maxRecDepth 10000 in
theorem removals_under_lock_are_noted_retired : ∃ programs ground,
    (openSystem (victimsNoted : Ground Bool → Section → Prop) "nic1" 2).Reachable (· = registered)
      programs ground ∧
    ground.holder = some true ∧ (programs true).asks = some (.setSelfFdb 2 guest false) ∧
    guest ∈ ground.note := by
  have rest : (openSystem (victimsNoted : Ground Bool → Section → Prop) "nic1" 2).Reachable
      (· = registered) (fun _ => .done bridgedSyncer) registered := .start rfl fun _ => True.intro
  have passing : (openSystem (victimsNoted : Ground Bool → Section → Prop) "nic1" 2).Reachable
      (· = registered) (Function.update _ true (pass bridgedSyncer)) registered :=
    rest.begin rfl (.pass true bridgedTopology)
  have reached := open_advance quietHost (fun ground work => decide (victimsNoted ground work))
    beforeRemoving bridgedTopology_keeps (fun _ _ => of_decide_eq_true) true passing
  have free (ground : Ground Bool) (same : ground = registered) : ground.holder = none := same ▸ rfl
  refine ⟨_, _, reached, by decide +kernel, by decide +kernel, ?_⟩
  exact removals_under_lock_are_noted free reached (by decide +kernel : _ = some true)
    (by decide +kernel : _ = some (Call.setSelfFdb 2 guest false))

set_option maxRecDepth 10000 in
/-- A pass finds the guest silent and is held up before it retires the address; a flush
takes it out and unlinks the note; somebody else puts the address there; and the pass
removes it. -/
theorem late_retire_removes_unnoted : ∃ programs ground,
    (openSystem anything "nic1" 2).Reachable (· = registered) programs ground ∧
    ground.holder = some true ∧ guest ∈ ground.card ∧
    (programs true).asks = some (.setSelfFdb 2 guest false) ∧ guest ∉ ground.note := by
  have rest : (openSystem anything "nic1" 2).Reachable (· = registered)
      (fun _ => .done bridgedSyncer) registered := .start rfl fun _ => True.intro
  have passing : (openSystem anything "nic1" 2).Reachable (· = registered)
      (Function.update _ true (pass bridgedSyncer)) registered :=
    rest.begin rfl (.pass true bridgedTopology)
  have first := open_advance quietHost everything beforeRetiring bridgedTopology_keeps
    (fun _ _ _ => True.intro) true passing
  have flushing : (openSystem anything "nic1" 2).Reachable (· = registered)
      (Function.update _ false (flush.leaving bridgedSyncer)) _ :=
    first.begin ((Function.update_of_ne (by decide) _ _).trans (Function.update_of_ne (by decide) _ _))
      .flush
  have second := open_advance quietHost everything nowhere bridgedTopology_keeps
    (fun _ _ _ => True.intro) false flushing
  have third := second.drift ⟨{guest}, rfl⟩
  have last := open_advance quietHost everything beforeRemoving bridgedTopology_keeps
    (fun _ _ _ => True.intro) true third
  exact ⟨_, _, last, by decide +kernel⟩

end Examples

end SriovMacSync
