import SriovMacSync.Ownership.Views
import SriovMacSync.World.Host

namespace SriovMacSync

open Data Netlink Interaction Interaction.Action

/-! One way for a ground to answer: everything works, and what is not about the
uplink is as on a given host. -/

variable {Process : Type} [DecidableEq Process] {terms : Terms Process} {dev : Name} {home : Index}

namespace Ground

variable (scene : Host) (dev : Name) (home : Index) (process : Process)

/-- What the bridges and the uplink's filter hold. -/
def dump (ground : Ground Process) : List FdbEntry :=
  scene.learnt ++ (ascending ground.card).map (Host.selfEntry home)

/-- A dump is only given where it shows the filter list. -/
def shown (ground : Ground Process) : Except Errno (List FdbEntry) :=
  if selfList (ground.dump scene home) home = ground.listed then .ok (ground.dump scene home)
  else .error (.other 5)

/-- The card as a filter that says what it holds. -/
def write (ground : Ground Process) (mac : Mac) (add : Bool) :
    Except Errno Unit × Ground Process :=
  match add, decide (mac ∈ ground.card) with
  | true, true => (.error .exists, ground)
  | true, false => (.ok (), ground.put mac)
  | false, true => (.ok (), ground.take mac)
  | false, false => (.error .noEntry, ground)

def rewrite (ground : Ground Process) (name : Name) (note : Finset Mac) : Ground Process :=
  if name = dev then { ground with note } else ground

def reply : Handler Call Reply (Ground Process)
  | ground, .dumpFdb => (ground.shown scene home, ground)
  | ground, .dumpFdbOf _ => (ground.shown scene home, ground)
  | ground, .dumpLinks => (.ok scene.topo, ground)
  | ground, .vfMacsOf pfs => (.ok (scene.vfs.filter (·.1 ∈ pfs)), ground)
  | ground, .setSelfFdb index mac add =>
      if index = home then ground.write mac add else (.ok (), ground)
  | ground, .bootMillis => (scene.clock, ground)
  | ground, .now => (scene.clock, ground)
  | ground, .walkMacs set => (arrangeAscending set, ground)
  | ground, .walkNames set => (arrangeAscending set, ground)
  | ground, .lock name _ => ((), if name = dev then ground.hold process else ground)
  | ground, .unlock name => ((), if name = dev then ground.release process else ground)
  | ground, .listNotes => (.ok [dev], ground)
  | ground, .readNote _ => (.lines (ascending ground.note) true, ground)
  | ground, .putNote name macs => (true, ground.rewrite dev name macs.toFinset)
  | ground, .appendNote name macs => (true, ground.rewrite dev name (ground.note ∪ macs.toFinset))
  | ground, .removeNote name => ((), ground.rewrite dev name ∅)
  | ground, .readIndex name => (if name = dev then some home else none, ground)
  | ground, .putIndex _ _ => (true, ground)
  | ground, .removeIndex _ => ((), ground)
  | ground, .readPorts name => (scene.ports name, ground)
  | ground, .portsExist name => ((scene.ports name).isSome, ground)
  | ground, .putPorts _ _ => (true, ground)
  | ground, .removePorts _ => (true, ground)
  | ground, .released _ _ => ((), ground)

/-- A request that is answered at once: it is not where this run is held up, and a
lock is free and its section one the run may enter. -/
def goes (admits : Ground Process → Section → Bool) (stops : Call → Bool)
    (ground : Ground Process) (request : Call) : Bool :=
  !stops request && match request with
    | .lock name work => decide (name ≠ dev) || ground.holder.isNone && admits ground work
    | _ => true

variable {scene dev home process}

omit [DecidableEq Process] in
theorem writes_write {ground : Ground Process} {mac : Mac} {add : Bool} :
    ground.Writes terms mac add (ground.write mac add).1 (ground.write mac add).2 := by
  unfold write
  by_cases held : mac ∈ ground.card
  · cases add with
    | true => simpa [held] using Writes.present held
    | false => simpa [held] using Writes.taken held
  · cases add with
    | true => simpa [held] using Writes.put held
    | false => simpa [held] using Writes.missing held

theorem answers_reply (scene : Host) (admits : Ground Process → Section → Bool)
    (stops : Call → Bool) (keeps : scene.topo.Keeps dev home)
    (admitted : ∀ ground work, admits ground work = true → terms.admits ground work)
    (ground : Ground Process) (request : Call) (answered : ground.goes dev admits stops request = true) :
    (uplinkSystem terms dev home).answers process ground request
      (ground.reply scene dev home process request).1
      (ground.reply scene dev home process request).2 := by
  have given {fdb : List FdbEntry} (shown : ground.shown scene home = .ok fdb) :
      selfList fdb home = ground.listed := by
    unfold Ground.shown at shown
    split at shown
    · cases shown
      assumption
    · cases shown
  have rewritten (name : Name) (note : Finset Mac) :
      if name = dev then ground.Rewrites terms note true (ground.rewrite dev name note)
      else ground.rewrite dev name note = ground := by
    unfold Ground.rewrite
    split
    · exact .inl ⟨rfl, .inl rfl⟩
    · rfl
  cases request with
  | dumpFdb => exact ⟨trivial, rfl, fun fdb shown => given shown⟩
  | dumpFdbOf index => exact ⟨trivial, rfl, fun _ fdb shown => given shown⟩
  | dumpLinks =>
      refine ⟨?_, rfl⟩
      rintro topo ⟨⟩
      exact keeps
  | setSelfFdb index mac add =>
      refine ⟨trivial, ?_⟩
      by_cases own : index = home
      · simpa [Ground.Answers, reply, own] using writes_write
      · simp [Ground.Answers, reply, own]
  | lock name work =>
      refine ⟨trivial, ?_⟩
      by_cases own : name = dev
      · simp only [goes, own, ne_eq, not_true_eq_false, decide_false, Bool.false_or,
          Bool.and_eq_true, Option.isNone_iff_eq_none] at answered
        simp [Ground.Answers, reply, own, answered.2.1, admitted _ _ answered.2.2]
      · simp [Ground.Answers, reply, own]
  | unlock name => exact ⟨trivial, rfl⟩
  | readNote name => exact ⟨trivial, rfl, fun _ => .inl ⟨nofun, ascending_toFinset _⟩⟩
  | readIndex name =>
      refine ⟨⟨fun own => .inr (if_pos own), fun apart => ?_⟩, rfl⟩
      rw [show (ground.reply scene dev home process (.readIndex name)).1 = none from if_neg apart]
      exact nofun
  | putNote name macs => exact ⟨trivial, rewritten name macs.toFinset⟩
  | appendNote name macs => exact ⟨trivial, rewritten name (ground.note ∪ macs.toFinset)⟩
  | removeNote name =>
      refine ⟨trivial, ?_⟩
      by_cases own : name = dev
      · simp [Ground.Answers, reply, Ground.rewrite, own]
      · simp [Ground.Answers, reply, Ground.rewrite, own]
  | _ => exact ⟨trivial, rfl⟩

section

variable {start : Ground Process → Prop} {programs : Process → Program Call Reply Syncer}
  {ground : Ground Process}

theorem reachable_begin (process : Process) {memory : Syncer} {program : Program Call Reply Syncer}
    (operation : Operation dev home memory program) (idle : programs process = .done memory)
    (reached : (uplinkSystem terms dev home).Reachable start programs ground) :
    (uplinkSystem terms dev home).Reachable start (Function.update programs process program) ground :=
  reached.begin idle operation

/-- A process runs on alone until it is held up. -/
theorem reachable_advance {handler : Handler Call Reply (Ground Process)}
    {goes : Ground Process → Call → Bool} (process : Process)
    (admissible : ∀ ground request, goes ground request = true →
      (uplinkSystem terms dev home).answers process ground request (handler ground request).1
        (handler ground request).2)
    (reached : (uplinkSystem terms dev home).Reachable start programs ground) :
    (uplinkSystem terms dev home).Reachable start
      (Function.update programs process ((programs process).advance handler goes ground).1)
      ((programs process).advance handler goes ground).2 :=
  reached.run rfl (Program.advance_reaches admissible _ _)

end

/-- The one process of a system performs an operation, if it is at rest. -/
def operate (handler : Handler Call Reply (Ground Unit)) (goes : Ground Unit → Call → Bool)
    (work : Syncer → Program Call Reply Syncer) :
    Program Call Reply Syncer × Ground Unit → Program Call Reply Syncer × Ground Unit
  | (.done memory, ground) => (work memory).advance handler goes ground
  | (held, ground) => (held, ground)

theorem reachable_operate {terms : Terms Unit} {start : Ground Unit → Prop}
    {handler : Handler Call Reply (Ground Unit)} {goes : Ground Unit → Call → Bool}
    {work : Syncer → Program Call Reply Syncer}
    (state : Program Call Reply Syncer × Ground Unit)
    (operation : ∀ memory, Operation dev home memory (work memory))
    (admissible : ∀ ground request, goes ground request = true →
      (uplinkSystem terms dev home).answers () ground request (handler ground request).1
        (handler ground request).2)
    (reached : (uplinkSystem terms dev home).Reachable start (fun _ => state.1) state.2) :
    (uplinkSystem terms dev home).Reachable start (fun _ => (operate handler goes work state).1)
      (operate handler goes work state).2 := by
  obtain ⟨program, ground⟩ := state
  cases program with
  | call request next => exact reached
  | done memory =>
      have advanced := reachable_advance () admissible
        (reachable_begin () (operation memory) rfl reached)
      have alone (program : Program Call Reply Syncer) (before : Unit → Program Call Reply Syncer) :
          Function.update before () program = fun _ => program :=
        funext fun _ => Function.update_self ..
      simp only [alone] at advanced
      exact advanced

/-- Another party puts an address there. -/
def visit (mac : Mac) (state : Program Call Reply Syncer × Ground Unit) :
    Program Call Reply Syncer × Ground Unit :=
  (state.1, { state.2 with
    card := insert mac state.2.card, foreign := insert mac state.2.foreign })

theorem reachable_visit {terms : Terms Unit} {start : Ground Unit → Prop} (shared : terms.shared)
    (mac : Mac) (state : Program Call Reply Syncer × Ground Unit) (absent : mac ∉ state.2.card)
    (reached : (uplinkSystem terms dev home).Reachable start (fun _ => state.1) state.2) :
    (uplinkSystem terms dev home).Reachable start (fun _ => (visit mac state).1)
      (visit mac state).2 :=
  reached.drift ⟨shared, .put absent⟩

theorem reachable_rested {terms : Terms Unit} {start : Ground Unit → Prop}
    (state : Program Call Reply Syncer × Ground Unit) (rests : state.1.rests = true)
    (reached : (uplinkSystem terms dev home).Reachable start (fun _ => state.1) state.2) :
    ∃ memory, (uplinkSystem terms dev home).Reachable start (fun _ => .done memory) state.2 := by
  obtain ⟨memory, ended⟩ := Program.of_rests rests
  exact ⟨memory, ended ▸ reached⟩

end Ground

def untouched {Process : Type} : Ground Process := { note := ∅, card := ∅, ours := ∅ }

omit [DecidableEq Process] in
theorem untouched_begins : (untouched : Ground Process).Begins :=
  ⟨Finset.Subset.refl _, Finset.Subset.refl _, rfl⟩

/-- Processes at rest that remember nothing. -/
theorem reachable_rest {syncer : Syncer} (fresh : syncer.indices dev = none)
    (ground : Ground Process) :
    (uplinkSystem terms dev home).Reachable (· = ground) (fun _ => .done syncer) ground :=
  .start rfl fun _ => .inl fresh

def everything : Ground Process → Section → Bool := fun _ _ => true

def nowhere : Call → Bool := fun _ => false

def beforeRemoving : Call → Bool
  | .setSelfFdb _ _ false => true
  | _ => false

/-- One pass over the bridged uplink. -/
def pass (syncer : Syncer) : Program Call Reply Syncer := (reconcile true bridgedTopology).leaving syncer

theorem bridgedTopology_keeps : bridgedTopology.Keeps "nic1" 2 := by
  unfold Topology.Keeps
  decide

theorem pass_operation (syncer : Syncer) : Operation "nic1" 2 syncer (pass syncer) :=
  .pass true _ bridgedTopology_keeps

end SriovMacSync
