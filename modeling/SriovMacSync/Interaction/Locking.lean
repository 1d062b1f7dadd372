import Mathlib.Data.Set.Finite.Lattice
import Mathlib.Order.Preorder.Finite
import SriovMacSync.Interaction.Processes

namespace SriovMacSync.Interaction

/-! # Locks taken in order

A request takes a lock, gives one back or does neither, and some requests may only be
made by whoever holds the right locks.  A program is orderly that asks only for locks
beyond all it holds, gives back the last one it took and ends without any.  Processes
that run orderly programs never wait for each other in a circle.
-/

universe u v w x y

/-- What a request does to the locks. -/
inductive LockMove (Lock : Type u) where
  | takes (lock : Lock)
  | gives (lock : Lock)
  | leaves
deriving DecidableEq

namespace LockMove

variable {Lock : Type u}

/-- The locks held afterwards, the last one taken first. -/
def after [DecidableEq Lock] : LockMove Lock → List Lock → List Lock
  | .takes lock, held => lock :: held
  | .gives lock, held => held.erase lock
  | .leaves, held => held

/-- Whether a program that holds these locks keeps to the order. -/
def Ordered [LT Lock] : LockMove Lock → List Lock → Prop
  | .takes lock, held => ∀ other ∈ held, other < lock
  | .gives lock, held => held.head? = some lock
  | .leaves, _ => True

end LockMove

/-- How the requests of a program go with locks. -/
structure Locking (Call : Type v) (Lock : Type u) where
  move : Call → LockMove Lock
  /-- what has to be held to make a request -/
  guarded : Call → List Lock → Prop

namespace Locking

variable {Call : Type v} {Reply : Call → Type w} {Lock : Type u} [LinearOrder Lock]
  (locking : Locking Call Lock)

/-- A program sees the locks it holds. -/
def discipline : Environment Call Reply (List Lock) where
  permits held request := (locking.move request).Ordered held ∧ locking.guarded request held
  answers held request _ after := after = (locking.move request).after held

variable {Memory : Type x} {Process : Type y} [DecidableEq Process]

/-- Processes and the locks each holds.  A lock is given to nobody while somebody
holds it, and death gives back all of them. -/
def system (operations : Memory → Program Call Reply Memory → Prop) :
    System Process Call Reply Memory (Process → List Lock) where
  fresh _ := True
  operations := operations
  answers process table request _ after :=
    (∀ lock, locking.move request = .takes lock → ∀ other, lock ∉ table other) ∧
      after = Function.update table process ((locking.move request).after (table process))
  drifts _ _ := False
  dies process table after := after = Function.update table process []

/-- No lock is held twice. -/
def Exclusive (table : Process → List Lock) : Prop :=
  ∀ first second lock, lock ∈ table first → lock ∈ table second → first = second

/-- Every operation is orderly. -/
def Orderly (operations : Memory → Program Call Reply Memory → Prop) : Prop :=
  ∀ memory program, operations memory program →
    program.Safe locking.discipline (fun _ held => held = []) []

variable {locking} {operations : Memory → Program Call Reply Memory → Prop}
  {table : Process → List Lock}

omit [LinearOrder Lock] in
/-- What was held is held by the same process, and a lock just taken was free. -/
theorem Exclusive.update {process : Process} {held : List Lock} (exclusive : Exclusive table)
    (owned : ∀ lock ∈ held, lock ∈ table process ∨ ∀ other, lock ∉ table other) :
    Exclusive (Function.update table process held) := by
  have apart {other : Process} {lock : Lock} (mine : lock ∈ held) (theirs : lock ∈ table other) :
      process = other := by
    cases owned lock mine with
    | inl kept => exact exclusive _ _ _ kept theirs
    | inr free => exact absurd theirs (free other)
  intro first second lock here there
  by_cases one : first = process <;> by_cases two : second = process
  · rw [one, two]
  · subst one
    rw [Function.update_self] at here
    rw [Function.update_of_ne two] at there
    exact apart here there
  · subst two
    rw [Function.update_of_ne one] at here
    rw [Function.update_self] at there
    exact (apart there here).symm
  · rw [Function.update_of_ne one] at here
    rw [Function.update_of_ne two] at there
    exact exclusive _ _ _ here there

theorem seen (orderly : locking.Orderly operations) :
    (locking.system operations : System Process Call Reply Memory _).Seen locking.discipline
      (fun process table => table process) Exclusive (fun _ held => held = []) where
  step {process table request reply after} exclusive permitted answered := by
    obtain ⟨free, moved⟩ := answered
    subst moved
    refine ⟨exclusive.update ?_, Function.update_self .., fun other apart =>
      Function.update_of_ne apart ..⟩
    intro lock held
    cases moves : locking.move request with
    | takes taken =>
        rw [moves] at held
        cases List.mem_cons.mp held with
        | inl same => exact .inr (same ▸ free taken moves)
        | inr kept => exact .inl kept
    | gives given =>
        rw [moves] at held
        exact .inl (List.mem_of_mem_erase held)
    | leaves =>
        rw [moves] at held
        exact .inl held
  drift exclusive drifted := drifted.elim
  die {process table after program} exclusive safe died := by
    subst died
    exact ⟨exclusive.update (by simp), fun _ _ => Function.update_self ..,
      fun other apart => Function.update_of_ne apart ..⟩
  operation {memory program held} none operation := by
    subst none
    exact orderly memory program operation

section Runs

variable {programs : Process → Program Call Reply Memory}

/-- At every moment each process keeps the discipline with what it holds, and no lock
is held twice. -/
theorem reachable_orderly (orderly : locking.Orderly operations)
    (reached : (locking.system operations).Reachable (fun table => ∀ process, table process = [])
      programs table) :
    Exclusive table ∧ ∀ process,
      (programs process).Safe locking.discipline (fun _ held => held = []) (table process) := by
  refine (seen orderly).reachable (fun table idle => ⟨?_, fun process _ _ => idle process⟩) reached
  intro first second lock held
  simp [idle first] at held

/-- Only finitely many processes have begun anything. -/
theorem reachable_finite {start : (Process → List Lock) → Prop}
    (reached : (locking.system operations).Reachable start programs table) :
    {process | (programs process).asks ≠ none}.Finite := by
  have changed {programs : Process → Program Call Reply Memory} {process : Process}
      {program : Program Call Reply Memory}
      (finite : {process | (programs process).asks ≠ none}.Finite) :
      {other | (Function.update programs process program other).asks ≠ none}.Finite := by
    apply (finite.insert process).subset
    intro other busy
    by_cases same : other = process
    · exact .inl same
    · rw [Set.mem_ofPred_eq, Function.update_of_ne same] at busy
      exact .inr busy
  induction reached with
  | start begun fresh => simp [Program.asks]
  | begin reached idle operation ih => exact changed ih
  | step reached asks answered ih => exact changed ih
  | drift reached drifted ih => exact ih
  | die reached died fresh ih => exact changed ih

/-- As long as some process has something left to do, some process can go on: its next
request is for no lock, or for one that is free. -/
theorem some_proceeds (orderly : locking.Orderly operations)
    (reached : (locking.system operations).Reachable (fun table => ∀ process, table process = [])
      programs table) {busy : Process} (works : (programs busy).asks ≠ none) :
    ∃ process request, (programs process).asks = some request ∧
      ∀ lock, locking.move request = .takes lock → ∀ other, lock ∉ table other := by
  obtain ⟨-, safe⟩ := reachable_orderly orderly reached
  by_contra stuck
  have waits {process : Process} (works : (programs process).asks ≠ none) :
      ∃ request lock holder, (programs process).asks = some request ∧
        locking.move request = .takes lock ∧ lock ∈ table holder := by
    obtain ⟨request, asks⟩ := Option.ne_none_iff_exists'.mp works
    by_contra free
    apply stuck
    refine ⟨process, request, asks, fun lock takes other held => ?_⟩
    exact free ⟨request, lock, other, asks, takes, held⟩
  let wanted (process : Process) : Set Lock := {lock | ∃ request,
    (programs process).asks = some request ∧ locking.move request = .takes lock}
  have single (process : Process) : (wanted process).Subsingleton := by
    intro first ⟨request, asks, takes⟩ second ⟨request', asks', takes'⟩
    cases asks.symm.trans asks'
    exact LockMove.takes.inj (takes.symm.trans takes')
  have finite : (⋃ process ∈ {process | (programs process).asks ≠ none}, wanted process).Finite :=
    (reachable_finite reached).biUnion fun process _ => (single process).finite
  have member {process : Process} {request : Call} {lock : Lock}
      (asks : (programs process).asks = some request) (takes : locking.move request = .takes lock) :
      lock ∈ ⋃ process ∈ {process | (programs process).asks ≠ none}, wanted process :=
    Set.mem_biUnion (by simp [asks]) ⟨request, asks, takes⟩
  obtain ⟨request, lock, holder, asks, takes, held⟩ := waits works
  obtain ⟨greatest, awaited, greatest_le⟩ := finite.exists_maximal ⟨lock, member asks takes⟩
  obtain ⟨process, -, request, asks, takes⟩ := Set.mem_iUnion₂.mp awaited
  -- who holds the greatest lock anybody waits for has not ended, and waits for a greater one
  have busy : (programs process).asks ≠ none := by simp [asks]
  obtain ⟨request', lock', holder, asks', takes', held⟩ := waits busy
  cases asks.symm.trans asks'
  cases takes.symm.trans takes'
  have holding : (programs holder).asks ≠ none := by
    intro ended
    have rests := safe holder
    cases program : programs holder with
    | done memory =>
        rw [program] at rests
        simp [show table holder = [] from rests] at held
    | call request next => simp [program, Program.asks] at ended
  obtain ⟨next, further, _, asks, takes, _⟩ := waits holding
  obtain ⟨rest, program⟩ := Program.of_asks asks
  have permitted := safe holder
  rw [program] at permitted
  have ordered := permitted.1.1
  rw [takes] at ordered
  have beyond := ordered greatest held
  exact absurd (greatest_le (member asks takes) beyond.le) (not_le.mpr beyond)

/-- What is guarded is asked for under its locks, and nobody else holds one of them. -/
theorem asks_guarded (orderly : locking.Orderly operations)
    (reached : (locking.system operations).Reachable (fun table => ∀ process, table process = [])
      programs table) {process : Process} {request : Call}
    (asks : (programs process).asks = some request) :
    locking.guarded request (table process) ∧
      ∀ lock ∈ table process, ∀ other, lock ∈ table other → other = process := by
  obtain ⟨exclusive, safe⟩ := reachable_orderly orderly reached
  obtain ⟨next, program⟩ := Program.of_asks asks
  have permitted := safe process
  rw [program] at permitted
  exact ⟨permitted.1.2, fun lock mine other theirs => exclusive _ _ lock theirs mine⟩

end Runs

end Locking

end SriovMacSync.Interaction
