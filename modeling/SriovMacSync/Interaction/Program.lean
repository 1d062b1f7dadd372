namespace SriovMacSync.Interaction

/-! # Interactive programs

A program is a finite tree of requests to its surroundings.  It knows nothing
about what answers: the kernel, a file system, an adversary or a recorded run
are all ways of reading the same tree.  Every program ends, because a path
through the tree is finite whatever the replies are.
-/

universe u v w x

/-- A computation of an `α` that may ask its surroundings on the way. -/
inductive Program (Call : Type u) (Reply : Call → Type v) (α : Type w) where
  | done (value : α)
  | call (request : Call) (next : Reply request → Program Call Reply α)

namespace Program

variable {Call : Type u} {Reply : Call → Type v}

def bind {α : Type w} {β : Type x} :
    Program Call Reply α → (α → Program Call Reply β) → Program Call Reply β
  | .done value, rest => rest value
  | .call request next, rest => .call request fun reply => (next reply).bind rest

instance : Monad (Program Call Reply) where
  pure := .done
  bind := bind

/-- The program that makes one request and returns its reply. -/
def ask (request : Call) : Program Call Reply (Reply request) :=
  .call request .done

@[simp] theorem done_bind {α : Type w} {β : Type x} (value : α)
    (rest : α → Program Call Reply β) : (done value).bind rest = rest value := rfl

@[simp] theorem call_bind {α : Type w} {β : Type x} (request : Call)
    (next : Reply request → Program Call Reply α) (rest : α → Program Call Reply β) :
    (call request next).bind rest = call request fun reply => (next reply).bind rest := rfl

theorem bind_assoc {α β : Type w} {γ : Type x} (program : Program Call Reply α)
    (first : α → Program Call Reply β) (second : β → Program Call Reply γ) :
    (program.bind first).bind second = program.bind fun value => (first value).bind second := by
  induction program with
  | done value => rfl
  | call request next ih => simp only [call_bind, ih]

theorem bind_done {α : Type w} (program : Program Call Reply α) : program.bind done = program := by
  induction program with
  | done value => rfl
  | call request next ih => simp only [call_bind, ih]

instance : LawfulMonad (Program Call Reply) :=
  .mk' (Program Call Reply) bind_done (fun _ _ => rfl) bind_assoc

end Program

/-- A program step that also carries a private memory from one request to the
next. -/
abbrev Action (Memory : Type w) (Call : Type u) (Reply : Call → Type w) (α : Type w) :=
  StateT Memory (Program Call Reply) α

namespace Action

variable {Call : Type u} {Reply : Call → Type w} {Memory : Type w} {α β : Type w}

/-- The step that makes one request and leaves the memory as it is. -/
def ask (request : Call) : Action Memory Call Reply (Reply request) := fun memory =>
  .call request fun reply => .done (reply, memory)

@[simp] theorem pure_apply (value : α) (memory : Memory) :
    (pure value : Action Memory Call Reply α) memory = .done (value, memory) := rfl

@[simp] theorem bind_apply (action : Action Memory Call Reply α)
    (rest : α → Action Memory Call Reply β) (memory : Memory) :
    (action >>= rest) memory =
      (action memory).bind fun result => rest result.1 result.2 := rfl

@[simp] theorem map_apply (change : α → β) (action : Action Memory Call Reply α)
    (memory : Memory) :
    (change <$> action) memory =
      (action memory).bind fun result => .done (change result.1, result.2) := rfl

@[simp] theorem get_apply (memory : Memory) :
    (get : Action Memory Call Reply Memory) memory = .done (memory, memory) := rfl

@[simp] theorem modify_apply (change : Memory → Memory) (memory : Memory) :
    (modify change : Action Memory Call Reply PUnit) memory = .done (⟨⟩, change memory) := rfl

end Action

end SriovMacSync.Interaction
