import SriovMacSync.Interaction.Program

namespace SriovMacSync.Interaction

/-! # What a program owes in an environment

An environment says which requests a world permits and how it may answer them.
`Program.Safe` is the weakest precondition of a program: along every admissible
run each request is permitted in the world it is made in, and the final value
and world satisfy the postcondition.
-/

universe u v w x y

structure Environment (Call : Type u) (Reply : Call → Type v) (World : Type w) where
  /-- what the program has to guarantee when it makes a request -/
  permits : World → Call → Prop
  /-- how the surroundings may answer it -/
  answers : World → (request : Call) → Reply request → World → Prop

namespace Program

variable {Call : Type u} {Reply : Call → Type v} {World : Type w} {α : Type x} {β : Type y}
  {env : Environment Call Reply World}

def Safe (env : Environment Call Reply World) :
    Program Call Reply α → (α → World → Prop) → World → Prop
  | .done value, post, world => post value world
  | .call request next, post, world =>
      env.permits world request ∧
        ∀ reply after, env.answers world request reply after →
          (next reply).Safe env post after

@[simp] theorem safe_done {value : α} {post : α → World → Prop} {world : World} :
    (done value : Program Call Reply α).Safe env post world ↔ post value world := Iff.rfl

theorem safe_call {request : Call} {next : Reply request → Program Call Reply α}
    {post : α → World → Prop} {world : World} :
    (call request next).Safe env post world ↔
      env.permits world request ∧
        ∀ reply after, env.answers world request reply after →
          (next reply).Safe env post after := Iff.rfl

theorem Safe.mono {program : Program Call Reply α} {post weaker : α → World → Prop}
    {world : World} (safe : program.Safe env post world)
    (implies : ∀ value world, post value world → weaker value world) :
    program.Safe env weaker world := by
  induction program generalizing world with
  | done value => exact implies value world safe
  | call request next ih =>
      exact ⟨safe.1, fun reply after answered => ih reply (safe.2 reply after answered)⟩

/-- Sequencing: the rest runs in the worlds the first part may leave. -/
theorem safe_bind {program : Program Call Reply α} {rest : α → Program Call Reply β}
    {post : β → World → Prop} {world : World} :
    (program.bind rest).Safe env post world ↔
      program.Safe env (fun value after => (rest value).Safe env post after) world := by
  induction program generalizing world with
  | done value => rfl
  | call request next ih =>
      simp only [call_bind, safe_call, ih]

theorem Safe.bind {program : Program Call Reply α} {rest : α → Program Call Reply β}
    {middle : α → World → Prop} {post : β → World → Prop} {world : World}
    (first : program.Safe env middle world)
    (second : ∀ value after, middle value after → (rest value).Safe env post after) :
    (program.bind rest).Safe env post world :=
  safe_bind.mpr (first.mono second)

theorem Safe.and {program : Program Call Reply α} {left right : α → World → Prop}
    {world : World} (leftSafe : program.Safe env left world)
    (rightSafe : program.Safe env right world) :
    program.Safe env (fun value after => left value after ∧ right value after) world := by
  induction program generalizing world with
  | done value => exact ⟨leftSafe, rightSafe⟩
  | call request next ih =>
      exact ⟨leftSafe.1, fun reply after answered =>
        ih reply (leftSafe.2 reply after answered) (rightSafe.2 reply after answered)⟩

/-- A program safe where more can be answered and less is permitted is safe. -/
theorem Safe.weaken {narrow : Environment Call Reply World} {program : Program Call Reply α}
    {post : α → World → Prop} {world : World} (safe : program.Safe env post world)
    (permits : ∀ world request, env.permits world request → narrow.permits world request)
    (answers : ∀ world request reply after,
      narrow.answers world request reply after → env.answers world request reply after) :
    program.Safe narrow post world := by
  induction program generalizing world with
  | done value => exact safe
  | call request next ih =>
      exact ⟨permits world request safe.1, fun reply after answered =>
        ih reply (safe.2 reply after (answers world request reply after answered))⟩

end Program

/-- The environment in which a program may make the requests `allowed` names and
nothing is known about the replies. -/
def Environment.footprint {Call : Type u} {Reply : Call → Type v} (allowed : Call → Prop) :
    Environment Call Reply Unit where
  permits _ request := allowed request
  answers _ _ _ _ := True

/-- What a program does not ask for, it does not change: an invariant that every
allowed request keeps holds at the end as well. -/
theorem Program.Safe.frame {Call : Type u} {Reply : Call → Type v} {World : Type w}
    {α : Type x} {env : Environment Call Reply World} {allowed : Call → Prop}
    {program : Program Call Reply α} {post : α → Prop} {inv : World → Prop} {world : World}
    (within : program.Safe (.footprint allowed) (fun value _ => post value) ())
    (kept : ∀ world request, inv world → allowed request →
      env.permits world request ∧
        ∀ reply after, env.answers world request reply after → inv after)
    (holds : inv world) :
    program.Safe env (fun value after => post value ∧ inv after) world := by
  induction program generalizing world with
  | done value => exact ⟨within, holds⟩
  | call request next ih =>
      obtain ⟨permitted, stays⟩ := kept world request holds within.1
      exact ⟨permitted, fun reply after answered =>
        ih reply (within.2 reply () trivial) (stays reply after answered)⟩

/-- What no answer changes, whatever the request, holds at the end of every program. -/
theorem Program.safe_of_kept {Call : Type u} {Reply : Call → Type v} {World : Type w} {α : Type x}
    {env : Environment Call Reply World} {program : Program Call Reply α} {inv : World → Prop}
    {world : World}
    (kept : ∀ world request, inv world → env.permits world request ∧
      ∀ reply after, env.answers world request reply after → inv after) (holds : inv world) :
    program.Safe env (fun _ after => inv after) world := by
  induction program generalizing world with
  | done value => exact holds
  | call request next ih =>
      obtain ⟨permitted, stays⟩ := kept world request holds
      exact ⟨permitted, fun reply after answered => ih reply (stays reply after answered)⟩

namespace Action

variable {Call : Type u} {Memory : Type w} {Reply : Call → Type w} {World : Type x} {α β : Type w}
  {env : Environment Call Reply World}

/-- The weakest precondition of a step that carries a memory. -/
def Safe (env : Environment Call Reply World) (action : Action Memory Call Reply α)
    (post : α → Memory → World → Prop) (memory : Memory) (world : World) : Prop :=
  (action memory).Safe env (fun result after => post result.1 result.2 after) world

variable {memory : Memory} {world : World}

@[simp] theorem safe_pure {value : α} {post : α → Memory → World → Prop} :
    Safe env (pure value) post memory world ↔ post value memory world := Iff.rfl

@[simp] theorem safe_bind {action : Action Memory Call Reply α}
    {rest : α → Action Memory Call Reply β} {post : β → Memory → World → Prop} :
    Safe env (action >>= rest) post memory world ↔
      Safe env action (fun value memory world => Safe env (rest value) post memory world)
        memory world :=
  Program.safe_bind

@[simp] theorem safe_map {change : α → β} {action : Action Memory Call Reply α}
    {post : β → Memory → World → Prop} :
    Safe env (change <$> action) post memory world ↔
      Safe env action (fun value memory world => post (change value) memory world)
        memory world :=
  Program.safe_bind

@[simp] theorem safe_get {post : Memory → Memory → World → Prop} :
    Safe env get post memory world ↔ post memory memory world := Iff.rfl

@[simp] theorem safe_modify {change : Memory → Memory} {post : PUnit → Memory → World → Prop} :
    Safe env (modify change) post memory world ↔ post ⟨⟩ (change memory) world := Iff.rfl

@[simp] theorem safe_ask {request : Call} {post : Reply request → Memory → World → Prop} :
    Safe env (ask request) post memory world ↔
      env.permits world request ∧
        ∀ reply after, env.answers world request reply after → post reply memory after := Iff.rfl

theorem Safe.mono {action : Action Memory Call Reply α} {post weaker : α → Memory → World → Prop}
    (safe : Safe env action post memory world)
    (implies : ∀ value memory world, post value memory world → weaker value memory world) :
    Safe env action weaker memory world :=
  Program.Safe.mono safe fun result after holds => implies result.1 result.2 after holds

theorem Safe.and {action : Action Memory Call Reply α} {left right : α → Memory → World → Prop}
    (leftSafe : Safe env action left memory world)
    (rightSafe : Safe env action right memory world) :
    Safe env action (fun value memory world => left value memory world ∧ right value memory world)
      memory world :=
  Program.Safe.and leftSafe rightSafe

/-- A loop whose body keeps an invariant keeps it. -/
theorem safe_forM {items : List α} {body : α → Action Memory Call Reply PUnit}
    {inv : Memory → World → Prop} (holds : inv memory world)
    (kept : ∀ item ∈ items, ∀ memory world, inv memory world →
      Safe env (body item) (fun _ memory world => inv memory world) memory world) :
    Safe env (items.forM body) (fun _ memory world => inv memory world) memory world := by
  induction items generalizing memory world with
  | nil => exact holds
  | cons item rest ih =>
      refine safe_bind.mpr ((kept item (by simp) memory world holds).mono ?_)
      intro _ memory world holds
      exact ih holds fun other member => kept other (by simp [member])

/-- The requests a step makes, and what is known of its result whatever the
replies are. -/
def Within (allowed : Call → Prop) (action : Action Memory Call Reply α)
    (post : α → Memory → Prop) (memory : Memory) : Prop :=
  Safe (.footprint allowed) action (fun value memory _ => post value memory) memory ()

theorem Within.mono {allowed more : Call → Prop} {action : Action Memory Call Reply α}
    {post weaker : α → Memory → Prop} (within : Within allowed action post memory)
    (covers : ∀ request, allowed request → more request)
    (implies : ∀ value memory, post value memory → weaker value memory) :
    Within more action weaker memory :=
  Program.Safe.weaken (Program.Safe.mono within fun _ _ holds => implies _ _ holds)
    (fun _ request permitted => covers request permitted) fun _ _ _ _ _ => trivial

section Within

variable {allowed : Call → Prop}

theorem Within.imp {action : Action Memory Call Reply α} {post weaker : α → Memory → Prop}
    (within : Within allowed action post memory)
    (implies : ∀ value memory, post value memory → weaker value memory) :
    Within allowed action weaker memory :=
  within.mono (fun _ permitted => permitted) implies

theorem Within.bind {action : Action Memory Call Reply α}
    {rest : α → Action Memory Call Reply β} {middle : α → Memory → Prop}
    {post : β → Memory → Prop} (first : Within allowed action middle memory)
    (second : ∀ value memory, middle value memory → Within allowed (rest value) post memory) :
    Within allowed (action >>= rest) post memory :=
  safe_bind.mpr (Safe.mono first fun value memory _ holds => second value memory holds)

theorem within_pure {value : α} {post : α → Memory → Prop} :
    Within allowed (pure value : Action Memory Call Reply α) post memory ↔ post value memory := Iff.rfl

theorem within_get {rest : Memory → Action Memory Call Reply α} {post : α → Memory → Prop}
    (within : Within allowed (rest memory) post memory) :
    Within allowed (get >>= rest) post memory := within

theorem within_modify {change : Memory → Memory} {post : PUnit → Memory → Prop}
    (holds : post ⟨⟩ (change memory)) :
    Within allowed (modify change : Action Memory Call Reply PUnit) post memory := holds

theorem within_ask_bind {request : Call} {rest : Reply request → Action Memory Call Reply α}
    {post : α → Memory → Prop} (permitted : allowed request)
    (next : ∀ reply, Within allowed (rest reply) post memory) :
    Within allowed (ask request >>= rest) post memory :=
  ⟨permitted, fun reply _ _ => next reply⟩

theorem within_ask {request : Call} {post : Reply request → Memory → Prop} :
    Within allowed (ask request) post memory ↔
      allowed request ∧ ∀ reply, post reply memory :=
  ⟨fun within => ⟨within.1, fun reply => within.2 reply () trivial⟩,
    fun within => ⟨within.1, fun reply _ _ => within.2 reply⟩⟩

theorem within_forM {items : List α} {body : α → Action Memory Call Reply PUnit}
    {inv : Memory → Prop} (holds : inv memory)
    (kept : ∀ item ∈ items, ∀ memory, inv memory →
      Within allowed (body item) (fun _ memory => inv memory) memory) :
    Within allowed (items.forM body) (fun _ memory => inv memory) memory :=
  safe_forM holds fun item member memory _ holds => kept item member memory holds

end Within

/-- Only these requests are made, whatever the memory and the replies. -/
def Asks (allowed : Call → Prop) (action : Action Memory Call Reply α) : Prop :=
  ∀ memory, Within allowed action (fun _ _ => True) memory

namespace Asks

variable {allowed : Call → Prop}

theorem pure {value : α} : Asks allowed (pure value : Action Memory Call Reply α) :=
  fun _ => trivial

theorem get : Asks allowed (get : Action Memory Call Reply Memory) := fun _ => trivial

theorem modify {change : Memory → Memory} :
    Asks allowed (modify change : Action Memory Call Reply PUnit) := fun _ => trivial

theorem ask {request : Call} (permitted : allowed request) :
    Asks allowed (ask request : Action Memory Call Reply (Reply request)) :=
  fun _ => within_ask.mpr ⟨permitted, fun _ => trivial⟩

theorem bind {action : Action Memory Call Reply α} {rest : α → Action Memory Call Reply β}
    (first : Asks allowed action) (second : ∀ value, Asks allowed (rest value)) :
    Asks allowed (action >>= rest) := fun memory =>
  (first memory).bind fun value middle _ => second value middle

theorem map {action : Action Memory Call Reply α} {change : α → β} (asks : Asks allowed action) :
    Asks allowed (change <$> action) := fun memory => safe_map.mpr (asks memory)

theorem ite {condition : Prop} [Decidable condition] {first second : Action Memory Call Reply α}
    (left : Asks allowed first) (right : Asks allowed second) :
    Asks allowed (if condition then first else second) := by
  split
  · exact left
  · exact right

theorem mono {more : Call → Prop} {action : Action Memory Call Reply α}
    (asks : Asks allowed action) (covers : ∀ request, allowed request → more request) :
    Asks more action := fun memory => (asks memory).mono covers fun _ _ holds => holds

end Asks

theorem Within.frame {allowed : Call → Prop} {action : Action Memory Call Reply α}
    {post : α → Memory → Prop} {inv : World → Prop} (within : Within allowed action post memory)
    (kept : ∀ world request, inv world → allowed request →
      env.permits world request ∧
        ∀ reply after, env.answers world request reply after → inv after)
    (holds : inv world) :
    Safe env action (fun value memory world => post value memory ∧ inv world) memory world :=
  Program.Safe.mono (Program.Safe.frame within kept holds) fun _ _ holds => holds

end Action

end SriovMacSync.Interaction
