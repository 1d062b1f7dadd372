import SriovMacSync.Custody.Operations
import SriovMacSync.Locks.Sections
import SriovMacSync.World.Host

namespace SriovMacSync

open Data Netlink Interaction Interaction.Action

/-! # Processes and the notes' locks

Any number of processes pass, answer batches and flush side by side, over any readings
of the host and with any replies, and may die at any point. -/

/-- Between any two locked sections nothing is held. -/
def lockDiscipline (topo : Topology) : Discipline noteLocking.discipline topo where
  stage _ _ held := held = []
  rest_of_held standing := standing
  afresh standing := standing
  rest_of_moving standing := standing
  forgets _ standing := standing
  looks {at' syncer held request} looks standing := by
    subst standing
    have inside : Inside [] request := by
      cases request <;> simp_all [Call.looks, Inside, lockMove, Call.Guarded]
    have asks : Safe noteLocking.discipline (ask request) _ syncer [] :=
      asks_safe (.ask inside)
    exact asks
  ports {at' dev syncer held α body} standing within := by
    subst standing
    apply section_within (within.mono _ fun _ _ same => same)
    intro request files
    cases request <;> simp_all [Call.filesPorts, Inside, lockMove, Call.Guarded]
  loads standing := by
    subst standing
    exact asks_safe loadOwned_inside
  stamps standing := by
    subst standing
    exact asks_safe noteIndex_inside
  registers _ standing := by
    subst standing
    exact registerBatchLocked_unlocks
  retires _ _ standing := by
    subst standing
    exact retire_unlocks
  sheds _ _ standing := by
    subst standing
    exact retire_unlocks
  merges _ standing := by
    subst standing
    exact saveOwnedMerged_unlocks
  targets standing := by
    subst standing
    exact (asks_safe renamedTarget_inside).mono fun _ _ _ standing => ⟨standing, fun _ _ _ => standing⟩
  migrates standing := by
    subst standing
    exact migrateNote_unlocks
  sweeps standing := by
    subst standing
    exact sweepNote_unlocks

theorem lockDiscipline_settles {reading : Reading} : (lockDiscipline reading.topo).Settles := by
  intro dev index syncer held _ standing
  change held = [] at standing
  subst standing
  refine safe_bind.mpr ((asks_safe recordedIndex_inside).mono ?_)
  intro recorded after held standing
  subst standing
  split
  · rfl
  · refine safe_bind.mpr (safe_get.mpr ?_)
    split
    · rfl
    · refine safe_bind.mpr ((asks_safe renamedTarget_inside).mono ?_)
      intro target after held standing
      split
      · exact ((lockDiscipline reading.topo).followRename_rests standing).mono fun moved _ _ standing => standing
      · subst standing
        refine safe_bind.mpr ((section_unlocks (removeNote_inside (by simp))).mono ?_)
        intro _ after held standing
        exact safe_bind.mpr (safe_modify.mpr (safe_pure.mpr standing))

theorem flush_unlocks {syncer : Syncer} :
    Safe noteLocking.discipline flush (fun _ _ held => held = []) syncer [] := by
  have read : Safe noteLocking.discipline (ask .dumpLinks) (fun _ _ held => held = []) syncer [] :=
    asks_safe (.ask ⟨rfl, True.intro⟩)
  refine safe_bind.mpr (read.mono ?_)
  intro reading after held standing
  subst standing
  cases reading with
  | error errno => rfl
  | ok topo =>
      have listed : Safe noteLocking.discipline notedDevices (fun _ _ held => held = []) after [] :=
        asks_safe (.bind (.ask ⟨rfl, True.intro⟩) fun _ => .pure)
      refine safe_bind.mpr (listed.mono ?_)
      intro listing after held standing
      cases listing with
      | error errno => exact standing
      | ok devs =>
          refine safe_bind.mpr (((lockDiscipline topo).flushNotes_rests ?_ standing).mono
            fun _ _ _ standing => safe_pure.mpr standing)
          intro dev now held standing
          change held = [] at standing
          subst standing
          exact flushNote_unlocks

/-- Every operation takes the notes' locks in the order of their names, writes under
them and gives them all back. -/
theorem undertakings_orderly : noteLocking.Orderly Undertaking := by
  intro syncer program undertaking
  cases undertaking with
  | pass apply topo =>
      exact Safe.leaving ((lockDiscipline topo).reconcile_rests
        (fun _ _ _ => lockDiscipline_settles) rfl)
  | batch topo events =>
      exact Safe.leaving ((lockDiscipline topo).fastApply_rests
        (fun _ _ _ _ _ _ standing => standing) rfl)
  | flush => exact Safe.leaving flush_unlocks
  | told settings vfStale => rfl

section Runs

variable {Process : Type} [DecidableEq Process] {programs : Process → Program Call Reply Syncer}
  {table : Process → List Name}

/-- Processes at rest hold nothing. -/
def Unlocked (table : Process → List Name) : Prop := ∀ process, table process = []

/-- No processes wait for each other in a circle. -/
theorem processes_never_deadlock
    (reached : (noteLocking.system Undertaking).Reachable Unlocked programs table)
    {busy : Process} (works : (programs busy).asks ≠ none) :
    ∃ process request, (programs process).asks = some request ∧
      ∀ dev work, request = .lock dev work → ∀ other, dev ∉ table other := by
  obtain ⟨process, request, asks, free⟩ :=
    Locking.some_proceeds undertakings_orderly reached works
  refine ⟨process, request, asks, fun dev work same => free dev ?_⟩
  rw [same]
  rfl

/-- The replies one host gives, to whichever process asks. -/
def lockHandler (process : Bool) : Handler Call Reply (Bool → List Name) := fun table request =>
  ((bridgedHost.answer request).1,
    Function.update table process ((lockMove request).after (table process)))

/-- On until a request of this kind, or a lock that somebody holds. -/
def lockGoes (stop : Call → Bool) (table : Bool → List Name) (request : Call) : Bool :=
  !stop request &&
    match lockMove request with
    | .takes dev => !(table true).contains dev && !(table false).contains dev
    | _ => true

theorem lockGoes_answers {process : Bool} {stop : Call → Bool} {table : Bool → List Name}
    {request : Call} (goes : lockGoes stop table request = true) :
    (noteLocking.system Undertaking).answers process table request
      (lockHandler process table request).1 (lockHandler process table request).2 := by
  refine ⟨fun dev takes other held => ?_, rfl⟩
  rw [lockGoes, Bool.and_eq_true, show lockMove request = .takes dev from takes] at goes
  cases other <;> simp_all

/-- One pass over the bridged uplink, on its way until it stops. -/
def passing (process : Bool) (stop : Call → Bool) (table : Bool → List Name) :
    Program Call Reply Syncer × (Bool → List Name) :=
  ((reconcile true bridgedTopology).leaving bridgedSyncer).advance (lockHandler process)
    (lockGoes stop) table

theorem passing_reachable {programs : Bool → Program Call Reply Syncer} {table : Bool → List Name}
    (reached : (noteLocking.system Undertaking).Reachable Unlocked programs table) {process : Bool}
    (stop : Call → Bool) (idle : programs process = .done bridgedSyncer) :
    (noteLocking.system Undertaking).Reachable Unlocked
      (Function.update programs process (passing process stop table).1) (passing process stop table).2 := by
  have begun := reached.begin idle (.pass true bridgedTopology)
  have path : Program.Reaches ⟨fun _ _ => True, (noteLocking.system Undertaking).answers process⟩ _
      table (passing process stop table).1 (passing process stop table).2 :=
    Program.advance_reaches (fun _ _ => lockGoes_answers) _ table
  have ran := begun.run (Function.update_self ..) path
  rwa [Function.update_idem] at ran

/-- A pass about to note the guest, under the note's lock. -/
def noting : Program Call Reply Syncer × (Bool → List Name) :=
  passing true (fun | .appendNote .. => true | _ => false) fun _ => []

theorem noting_reachable : (noteLocking.system Undertaking).Reachable Unlocked
    (Function.update (fun _ => .done bridgedSyncer) true noting.1) noting.2 :=
  passing_reachable (.start (fun _ => rfl) fun _ => True.intro) _ rfl

/-- Another one, held up at the same lock. -/
def waiting : Program Call Reply Syncer × (Bool → List Name) := passing false (fun _ => false) noting.2

theorem waiting_reachable : (noteLocking.system Undertaking).Reachable Unlocked
    (Function.update (Function.update (fun _ => .done bridgedSyncer) true noting.1) false waiting.1)
    waiting.2 :=
  passing_reachable noting_reachable _ rfl

theorem processes_never_deadlock_waiting : waiting.1.asks = some (.lock "nic1" .register) ∧
    ∃ process request, ((Function.update (Function.update (fun _ => .done bridgedSyncer) true
      noting.1) false waiting.1 : Bool → Program Call Reply Syncer) process).asks = some request ∧
      ∀ dev work, request = .lock dev work → ∀ other, dev ∉ waiting.2 other := by
  have held : waiting.1.asks = some (.lock "nic1" .register) := by decide +kernel
  refine ⟨held, @processes_never_deadlock _ _ _ _ waiting_reachable false ?_⟩
  rw [Function.update_self, held]
  simp

end Runs

end SriovMacSync
