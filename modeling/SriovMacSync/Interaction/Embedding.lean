import Mathlib.Logic.Equiv.Defs
import SriovMacSync.Interaction.Execution

namespace SriovMacSync.Interaction

/-! # Programs within larger programs

A program that knows some requests runs unchanged inside one that knows more. -/

universe u v w x y z

variable {Call : Type u} {Reply : Call → Type w}

section Traces

variable {Memory : Type w} {α β : Type w} {memory left : Memory} {events : List (Exchange Call Reply)}

/-- A whole execution of a sequence is one of its first part and one of the rest. -/
theorem Program.follows_bind {α : Type v} {β : Type x} {program : Program Call Reply α}
    {rest : α → Program Call Reply β} {result : β} {events : List (Exchange Call Reply)} :
    (program.bind rest).Follows events (.done result) ↔ ∃ value first second,
      program.Follows first (.done value) ∧ (rest value).Follows second (.done result) ∧
        events = first ++ second := by
  constructor
  · intro path
    induction program generalizing events with
    | done value => exact ⟨value, [], events, .here, path, rfl⟩
    | call request next ih =>
        cases path with
        | step later =>
            obtain ⟨value, first, second, here, there, same⟩ := ih _ later
            exact ⟨value, _, second, .step here, there, by rw [same]; rfl⟩
  · intro ⟨value, first, second, here, there, same⟩
    subst same
    generalize ended : (.done value : Program Call Reply α) = final at here
    induction here with
    | here =>
        cases ended
        exact there
    | step later ih => exact .step (ih ended)

/-- The second request of a program that makes two. -/
theorem Program.issues_second {α : Type x} {first second : Call} {reply : Reply first}
    {requests : Reply first → Call} {next : ∀ reply, Reply (requests reply) → Program Call Reply α}
    (issued : (Program.call first fun reply => .call (requests reply) (next reply)).Issues
      [⟨first, reply⟩] second) : requests reply = second := by
  obtain ⟨rest, path⟩ := issued
  cases path with
  | step later =>
      generalize asked : requests reply = request at later
      cases later
      exact asked.symm

namespace Action

/-- A whole execution, with exactly these exchanges. -/
def Traces (action : Action Memory Call Reply α) (memory : Memory) (events : List (Exchange Call Reply))
    (value : α) (left : Memory) : Prop :=
  (action memory).Follows events (.done (value, left))

theorem traces_pure {value result : α} :
    Traces (pure value : Action Memory Call Reply α) memory events result left ↔
      events = [] ∧ result = value ∧ left = memory := by
  constructor
  · intro ran
    cases ran
    exact ⟨rfl, rfl, rfl⟩
  · intro ⟨silent, same, kept⟩
    subst silent same kept
    exact .here

theorem traces_bind {action : Action Memory Call Reply α} {rest : α → Action Memory Call Reply β}
    {result : β} : Traces (action >>= rest) memory events result left ↔
      ∃ value middle first second, Traces action memory first value middle ∧
        Traces (rest value) middle second result left ∧ events = first ++ second := by
  apply Program.follows_bind.trans
  constructor
  · intro ⟨⟨value, middle⟩, first, second, here, there, same⟩
    exact ⟨value, middle, first, second, here, there, same⟩
  · intro ⟨value, middle, first, second, here, there, same⟩
    exact ⟨(value, middle), first, second, here, there, same⟩

theorem traces_get {result : Memory} :
    Traces (get : Action Memory Call Reply Memory) memory events result left ↔
      events = [] ∧ result = memory ∧ left = memory := traces_pure

theorem traces_modify {change : Memory → Memory} {result : PUnit} :
    Traces (modify change : Action Memory Call Reply PUnit) memory events result left ↔
      events = [] ∧ left = change memory := by
  constructor
  · intro ran
    cases ran
    exact ⟨rfl, rfl⟩
  · intro ⟨silent, same⟩
    subst silent same
    exact .here

theorem traces_ask {request : Call} {reply : Reply request} :
    Traces (ask request : Action Memory Call Reply _) memory events reply left ↔
      events = [⟨request, reply⟩] ∧ left = memory := by
  constructor
  · intro ran
    cases ran with
    | step later =>
        cases later
        exact ⟨rfl, rfl⟩
  · intro ⟨asked, same⟩
    subst asked same
    exact .step .here

/-- What is known of a result whatever the replies are holds of every execution. -/
theorem Within.traced {allowed : Call → Prop} {action : Action Memory Call Reply α} {value : α}
    {post : α → Memory → Prop} (within : Within allowed action post memory)
    (ran : Traces action memory events value left) : post value left := by
  have reached : Runs (.recording (fun _ => True) fun _ _ => True) action memory [] value left events :=
    Program.Follows.reaches ran (fun _ _ => trivial) []
  exact within.runs reached

end Action

end Traces

section Wiring

variable {Outer : Type v} {OuterReply : Outer → Type w}

/-- Requests as requests among more. -/
structure Wiring (Call : Type u) (Reply : Call → Type w) (Outer : Type v) (OuterReply : Outer → Type w) where
  wrap : Call → Outer
  reply : ∀ request, Reply request ≃ OuterReply (wrap request)

def Wiring.event (wiring : Wiring Call Reply Outer OuterReply) (exchange : Exchange Call Reply) :
    Exchange Outer OuterReply :=
  ⟨wiring.wrap exchange.1, wiring.reply exchange.1 exchange.2⟩

def Program.through {α : Type x} (wiring : Wiring Call Reply Outer OuterReply) :
    Program Call Reply α → Program Outer OuterReply α
  | .done value => .done value
  | .call request next => .call (wiring.wrap request) fun reply =>
      (next ((wiring.reply request).symm reply)).through wiring

theorem Program.follows_through {α : Type x} {wiring : Wiring Call Reply Outer OuterReply}
    {program : Program Call Reply α} {value : α} {events : List (Exchange Outer OuterReply)} :
    (program.through wiring).Follows events (.done value) ↔
      ∃ inner, program.Follows inner (.done value) ∧ events = inner.map wiring.event := by
  constructor
  · intro path
    induction program generalizing events with
    | done result =>
        cases path
        exact ⟨[], .here, rfl⟩
    | call request next ih =>
        cases path with
        | @step _ _ reply events _ later =>
            obtain ⟨inner, path, same⟩ := ih _ later
            refine ⟨⟨request, (wiring.reply request).symm reply⟩ :: inner, .step path, ?_⟩
            rw [List.map_cons, same, Wiring.event, Equiv.apply_symm_apply]
  · intro ⟨inner, path, same⟩
    subst same
    generalize ended : (.done value : Program Call Reply α) = final at path
    induction path with
    | here =>
        subst ended
        exact .here
    | @step request next reply events rest later ih =>
        apply Program.Follows.step
        rw [Equiv.symm_apply_apply]
        exact ih ended

theorem Program.Safe.through {α : Type x} {wiring : Wiring Call Reply Outer OuterReply} {allowed : Call → Prop}
    {post : α → Unit → Prop} {program : Program Call Reply α}
    (safe : program.Safe (.footprint allowed) post ()) :
    (program.through wiring).Safe (.footprint fun _ => True) post () := by
  induction program with
  | done value => exact safe
  | call request next ih => exact ⟨trivial, fun reply _ _ => ih _ (safe.2 _ () trivial)⟩

/-- What holds where only the inner requests are known holds where the outer ones are
answered in the same way, and what no such answer changes stays. -/
theorem Program.Safe.through_view {α : Type x} {World : Type y} {Wide : Type z}
    {wiring : Wiring Call Reply Outer OuterReply} {env : Environment Call Reply World}
    {wide : Environment Outer OuterReply Wide} {view : Wide → World} {inv : Wide → Prop}
    {post : α → World → Prop} {program : Program Call Reply α} {world : Wide}
    (permits : ∀ world request, env.permits (view world) request → wide.permits world (wiring.wrap request))
    (answers : ∀ world request reply after, wide.answers world (wiring.wrap request) reply after →
      env.answers (view world) request ((wiring.reply request).symm reply) (view after) ∧
        (inv world → inv after))
    (safe : program.Safe env post (view world)) (holds : inv world) :
    (program.through wiring).Safe wide (fun value after => post value (view after) ∧ inv after) world := by
  induction program generalizing world with
  | done value => exact ⟨safe, holds⟩
  | call request next ih =>
      refine ⟨permits world request safe.1, ?_⟩
      intro reply after answered
      obtain ⟨inside, kept⟩ := answers world request reply after answered
      exact ih _ (safe.2 _ _ inside) (kept holds)

/-- A step whose requests are asked among more. -/
def Action.through {Memory α : Type w} (wiring : Wiring Call Reply Outer OuterReply)
    (action : Action Memory Call Reply α) : Action Memory Outer OuterReply α := fun memory =>
  (action memory).through wiring

theorem Action.traces_through {Memory α : Type w} {wiring : Wiring Call Reply Outer OuterReply}
    {action : Action Memory Call Reply α} {memory left : Memory} {value : α}
    {events : List (Exchange Outer OuterReply)} :
    Traces (action.through wiring) memory events value left ↔
      ∃ inner, Traces action memory inner value left ∧ events = inner.map wiring.event :=
  Program.follows_through

theorem Action.Within.through {Memory α : Type w} {wiring : Wiring Call Reply Outer OuterReply}
    {allowed : Call → Prop} {action : Action Memory Call Reply α} {memory : Memory} {post : α → Memory → Prop}
    (within : Within allowed action post memory) :
    Within (fun _ => True) (action.through wiring) post memory :=
  Program.Safe.through within

end Wiring

end SriovMacSync.Interaction
