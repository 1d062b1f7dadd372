import Mathlib.Logic.Function.Basic
import Mathlib.Logic.Relation
import SriovMacSync.Interaction.Execution

namespace SriovMacSync.Interaction

/-! # Processes

Any number of processes run operations against one world, their requests in any
order.  A process between two operations is a finished program that holds its
memory.  The surroundings may act on their own, and a process may die and be
followed by a fresh one.

What one process owes is a judgement about what it sees of the world.  If nobody
else changes what it sees, the judgements of all processes hold together in every
reachable state.
-/

universe u v w x y z

structure System (Process : Type u) (Call : Type v) (Reply : Call → Type w) (Memory : Type x)
    (World : Type y) where
  /-- the memories a process may start with -/
  fresh : Memory → Prop
  /-- what a process with this memory may begin -/
  operations : Memory → Program Call Reply Memory → Prop
  answers : Process → World → (request : Call) → Reply request → World → Prop
  /-- what the surroundings do on their own -/
  drifts : World → World → Prop
  /-- what the death of a process does -/
  dies : Process → World → World → Prop

namespace System

variable {Process : Type u} {Call : Type v} {Reply : Call → Type w} {Memory : Type x}
  {World : Type y} [DecidableEq Process]

inductive Reachable (system : System Process Call Reply Memory World) (start : World → Prop) :
    (Process → Program Call Reply Memory) → World → Prop where
  | start {memories : Process → Memory} {world : World} (begun : start world)
      (fresh : ∀ process, system.fresh (memories process)) :
      Reachable system start (fun process => .done (memories process)) world
  | begin {programs : Process → Program Call Reply Memory} {world : World} {process : Process}
      {memory : Memory} {program : Program Call Reply Memory}
      (reached : Reachable system start programs world)
      (idle : programs process = .done memory) (operation : system.operations memory program) :
      Reachable system start (Function.update programs process program) world
  | step {programs : Process → Program Call Reply Memory} {world after : World}
      {process : Process} {request : Call} {next : Reply request → Program Call Reply Memory}
      {reply : Reply request} (reached : Reachable system start programs world)
      (asks : programs process = .call request next)
      (answered : system.answers process world request reply after) :
      Reachable system start (Function.update programs process (next reply)) after
  | drift {programs : Process → Program Call Reply Memory} {world after : World}
      (reached : Reachable system start programs world) (drifted : system.drifts world after) :
      Reachable system start programs after
  | die {programs : Process → Program Call Reply Memory} {world after : World}
      {process : Process} {memory : Memory} (reached : Reachable system start programs world)
      (died : system.dies process world after) (fresh : system.fresh memory) :
      Reachable system start (Function.update programs process (.done memory)) after

/-- What ties the steps of a system to what its processes see of it: a world that
is sound answers as the processes expect, and only a process itself changes what
it sees. -/
structure Seen {View : Type z} (system : System Process Call Reply Memory World)
    (env : Environment Call Reply View) (view : Process → World → View) (sound : World → Prop)
    (rest : Memory → View → Prop) : Prop where
  step {process world request reply after} : sound world →
    env.permits (view process world) request →
    system.answers process world request reply after →
      sound after ∧ env.answers (view process world) request reply (view process after) ∧
        ∀ other, other ≠ process → view other after = view other world
  drift {world after} : sound world → system.drifts world after →
    sound after ∧ ∀ process, view process after = view process world
  die {process world after} {program : Program Call Reply Memory} : sound world →
    program.Safe env rest (view process world) → system.dies process world after →
    sound after ∧ (∀ memory, system.fresh memory → rest memory (view process after)) ∧
      ∀ other, other ≠ process → view other after = view other world
  operation {memory program seen} : rest memory seen → system.operations memory program →
    program.Safe env rest seen

theorem Seen.reachable {View : Type z} {system : System Process Call Reply Memory World}
    {env : Environment Call Reply View} {view : Process → World → View} {sound start : World → Prop}
    {rest : Memory → View → Prop} (seen : system.Seen env view sound rest)
    (begins : ∀ world, start world → sound world ∧
      ∀ process memory, system.fresh memory → rest memory (view process world))
    {programs : Process → Program Call Reply Memory} {world : World}
    (reached : system.Reachable start programs world) :
    sound world ∧ ∀ process, (programs process).Safe env rest (view process world) := by
  have updated {programs : Process → Program Call Reply Memory} {world after : World}
      {process : Process} {program : Program Call Reply Memory}
      (safe : ∀ process, (programs process).Safe env rest (view process world))
      (own : program.Safe env rest (view process after))
      (others : ∀ other, other ≠ process → view other after = view other world)
      (other : Process) :
      (Function.update programs process program other).Safe env rest (view other after) := by
    by_cases same : other = process
    · subst same
      rwa [Function.update_self]
    · rw [Function.update_of_ne same, others other same]
      exact safe other
  induction reached with
  | start begun fresh =>
      obtain ⟨sound, rests⟩ := begins _ begun
      exact ⟨sound, fun process => rests process _ (fresh process)⟩
  | @begin programs world process memory program reached idle operation ih =>
      obtain ⟨sound, safe⟩ := ih
      refine ⟨sound, updated safe ?_ fun _ _ => rfl⟩
      have own := safe process
      rw [idle] at own
      exact seen.operation own operation
  | @step programs world after process request next reply reached asks answered ih =>
      obtain ⟨sound, safe⟩ := ih
      have own := safe process
      rw [asks] at own
      obtain ⟨sound, expected, others⟩ := seen.step sound own.1 answered
      exact ⟨sound, updated safe (own.2 _ _ expected) others⟩
  | drift reached drifted ih =>
      obtain ⟨sound, safe⟩ := ih
      obtain ⟨sound, same⟩ := seen.drift sound drifted
      refine ⟨sound, fun process => ?_⟩
      rw [same]
      exact safe process
  | @die programs world after process memory reached died fresh ih =>
      obtain ⟨sound, safe⟩ := ih
      obtain ⟨sound, rests, others⟩ := seen.die sound (safe process) died
      exact ⟨sound, updated safe (rests _ fresh) others⟩

/-- A process may be followed along any of its executions. -/
theorem Reachable.run {system : System Process Call Reply Memory World} {start : World → Prop}
    {programs : Process → Program Call Reply Memory} {world after : World} {process : Process}
    {program rest : Program Call Reply Memory}
    (reached : system.Reachable start programs world) (runs : programs process = program)
    (path : program.Reaches ⟨fun _ _ => True, system.answers process⟩ world rest after) :
    system.Reachable start (Function.update programs process rest) after := by
  induction path generalizing programs with
  | here => simpa [← runs] using reached
  | step answered later ih =>
      simpa using ih (reached.step runs answered) (Function.update_self ..)

theorem Reachable.drifting {system : System Process Call Reply Memory World} {start : World → Prop}
    {programs : Process → Program Call Reply Memory} {world after : World}
    (reached : system.Reachable start programs world)
    (drifts : Relation.ReflTransGen system.drifts world after) :
    system.Reachable start programs after := by
  induction drifts with
  | refl => exact reached
  | tail _ drifted ih => exact ih.drift drifted

end System

namespace Action

variable {Call : Type u} {Memory : Type w} {Reply : Call → Type w} {World : Type x} {α : Type w}

/-- The memory an operation leaves. -/
def leaving (action : Action Memory Call Reply α) (memory : Memory) : Program Call Reply Memory :=
  (action memory).bind fun result => .done result.2

theorem Safe.leaving {env : Environment Call Reply World} {action : Action Memory Call Reply α}
    {rest : Memory → World → Prop} {memory : Memory} {world : World}
    (safe : Safe env action (fun _ memory world => rest memory world) memory world) :
    (action.leaving memory).Safe env rest world :=
  Program.safe_bind.mpr safe

end Action

end SriovMacSync.Interaction
