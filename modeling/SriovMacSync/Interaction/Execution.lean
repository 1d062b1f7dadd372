import SriovMacSync.Interaction.Judgement

namespace SriovMacSync.Interaction

/-! # Executions

A program runs by having its requests answered one after another.  What its
judgement promises holds at every point of every execution, finished or cut
short.
-/

universe u v w x y

namespace Program

variable {Call : Type u} {Reply : Call → Type v} {World : Type w} {α : Type x}
  {env : Environment Call Reply World}

/-- What is left of a program, and the world it left, after some of its requests
were answered. -/
inductive Reaches (env : Environment Call Reply World) :
    Program Call Reply α → World → Program Call Reply α → World → Prop where
  | here {program : Program Call Reply α} {world : World} : Reaches env program world program world
  | step {request : Call} {next : Reply request → Program Call Reply α} {reply : Reply request}
      {rest : Program Call Reply α} {world middle after : World}
      (answered : env.answers world request reply middle)
      (later : Reaches env (next reply) middle rest after) :
      Reaches env (.call request next) world rest after

theorem Safe.reaches {program rest : Program Call Reply α} {post : α → World → Prop}
    {world after : World} (safe : program.Safe env post world)
    (path : Reaches env program world rest after) : rest.Safe env post after := by
  induction path with
  | here => exact safe
  | step answered later ih => exact ih (safe.2 _ _ answered)

theorem Safe.result {program : Program Call Reply α} {value : α} {post : α → World → Prop}
    {world after : World} (safe : program.Safe env post world)
    (path : Reaches env program world (.done value) after) : post value after :=
  safe.reaches path

/-- What every permitted request and every result implies holds at this point. -/
theorem Safe.now {program : Program Call Reply α} {post : α → World → Prop} {world : World}
    {good : Prop} (safe : program.Safe env post world)
    (asking : ∀ request, env.permits world request → good)
    (ended : ∀ value, post value world → good) : good := by
  cases program with
  | done value => exact ended value safe
  | call request next => exact asking request safe.1

theorem Safe.request {program : Program Call Reply α} {request : Call}
    {next : Reply request → Program Call Reply α} {post : α → World → Prop} {world after : World}
    (safe : program.Safe env post world)
    (path : Reaches env program world (.call request next) after) : env.permits after request :=
  (safe.reaches path).1

theorem Reaches.trans {program middle rest : Program Call Reply α} {world between after : World}
    (first : Reaches env program world middle between)
    (second : Reaches env middle between rest after) : Reaches env program world rest after := by
  induction first with
  | here => exact second
  | step answered later ih => exact .step answered (ih second)

/-- What a program does depends on the answers alone. -/
theorem Reaches.permitting {answers : World → (request : Call) → Reply request → World → Prop}
    {some : World → Call → Prop} {program rest : Program Call Reply α} {world after : World}
    (path : Reaches ⟨some, answers⟩ program world rest after) (permits : World → Call → Prop) :
    Reaches ⟨permits, answers⟩ program world rest after := by
  induction path with
  | here => exact .here
  | step answered later ih => exact .step answered ih

/-- A path through worlds seen in another way. -/
theorem Reaches.viewed {Inner : Type y} {inner : Environment Call Reply Inner}
    {program rest : Program Call Reply α} {world after : Inner}
    (path : Reaches inner program world rest after) (view : Inner → World)
    (shown : ∀ world request reply after, inner.answers world request reply after →
      env.answers (view world) request reply (view after)) :
    Reaches env program (view world) rest (view after) := by
  induction path with
  | here => exact .here
  | step answered later ih => exact .step (shown _ _ _ _ answered) ih

/-- Whatever the world does, the requests and the replies are those of the program. -/
theorem Reaches.footprint {allowed : Call → Prop} {program rest : Program Call Reply α}
    {world after : World} (path : Reaches env program world rest after) :
    Reaches (.footprint allowed) program () rest () := by
  induction path with
  | here => exact .here
  | step answered later ih => exact .step trivial ih

theorem Reaches.bind {β : Type y} {rest : α → Program Call Reply β} {value : α} {result : β}
    {program : Program Call Reply α} {world middle after : World}
    (first : Reaches env program world (.done value) middle)
    (second : Reaches env (rest value) middle (.done result) after) :
    Reaches env (program.bind rest) world (.done result) after := by
  generalize ended : (.done value : Program Call Reply α) = final at first
  induction first with
  | here =>
      cases ended
      exact second
  | step answered later ih => exact .step answered (ih second ended)

/-- A whole execution of a sequence is one of its first part and one of the rest. -/
theorem reaches_bind {β : Type y} {rest : α → Program Call Reply β} {result : β}
    {program : Program Call Reply α} {world after : World} :
    Reaches env (program.bind rest) world (.done result) after ↔
      ∃ value middle, Reaches env program world (.done value) middle ∧
        Reaches env (rest value) middle (.done result) after := by
  constructor
  · intro path
    induction program generalizing world with
    | done value => exact ⟨value, world, .here, path⟩
    | call request next ih =>
        cases path with
        | step answered later =>
            obtain ⟨value, middle, first, second⟩ := ih _ later
            exact ⟨value, middle, .step answered first, second⟩
  · rintro ⟨value, middle, first, second⟩
    exact first.bind second

end Program

namespace Action

variable {Call : Type u} {Memory : Type w} {Reply : Call → Type w} {World : Type x} {α β : Type w}
  {env : Environment Call Reply World} {memory left : Memory} {world after : World}

/-- One whole execution of a step that carries a memory: its result, and the memory
and the world it leaves. -/
def Runs (env : Environment Call Reply World) (action : Action Memory Call Reply α)
    (memory : Memory) (world : World) (value : α) (left : Memory) (after : World) : Prop :=
  Program.Reaches env (action memory) world (.done (value, left)) after

theorem Safe.runs {action : Action Memory Call Reply α} {post : α → Memory → World → Prop}
    {value : α} (safe : Safe env action post memory world)
    (ran : Runs env action memory world value left after) : post value left after := by
  have judged : (action memory).Safe env (fun result after => post result.1 result.2 after) world :=
    safe
  exact judged.result ran

/-- What is known of a result whatever the replies are holds of every execution. -/
theorem Within.runs {allowed : Call → Prop} {action : Action Memory Call Reply α}
    {post : α → Memory → Prop} {value : α} (within : Within allowed action post memory)
    (ran : Runs env action memory world value left after) : post value left := by
  exact Safe.runs within (Program.Reaches.footprint ran)

@[simp] theorem runs_pure {value result : α} :
    Runs env (pure value) memory world result left after ↔
      result = value ∧ left = memory ∧ after = world := by
  constructor
  · intro ran
    cases ran
    exact ⟨rfl, rfl, rfl⟩
  · rintro ⟨rfl, rfl, rfl⟩
    exact .here

@[simp] theorem runs_bind {action : Action Memory Call Reply α}
    {rest : α → Action Memory Call Reply β} {result : β} :
    Runs env (action >>= rest) memory world result left after ↔
      ∃ value memory' middle, Runs env action memory world value memory' middle ∧
        Runs env (rest value) memory' middle result left after := by
  refine Program.reaches_bind.trans ⟨?_, ?_⟩
  · rintro ⟨⟨value, memory'⟩, middle, first, second⟩
    exact ⟨value, memory', middle, first, second⟩
  · rintro ⟨value, memory', middle, first, second⟩
    exact ⟨⟨value, memory'⟩, middle, first, second⟩

@[simp] theorem runs_get {result : Memory} :
    Runs env get memory world result left after ↔
      result = memory ∧ left = memory ∧ after = world :=
  runs_pure

@[simp] theorem runs_modify {change : Memory → Memory} {result : PUnit} :
    Runs env (modify change) memory world result left after ↔
      left = change memory ∧ after = world := by
  constructor
  · intro ran
    cases ran
    exact ⟨rfl, rfl⟩
  · rintro ⟨rfl, rfl⟩
    exact .here

@[simp] theorem runs_ask {request : Call} {reply : Reply request} :
    Runs env (ask request) memory world reply left after ↔
      env.answers world request reply after ∧ left = memory := by
  constructor
  · intro ran
    cases ran with
    | step answered later =>
        cases later
        exact ⟨answered, rfl⟩
  · rintro ⟨answered, rfl⟩
    exact .step answered .here

end Action

section Recording

variable {Call : Type u} {Reply : Call → Type v} {α : Type x}

/-- One request with the reply it got. -/
abbrev Exchange (Call : Type u) (Reply : Call → Type v) := (request : Call) × Reply request

/-- Surroundings of which only the admitted exchanges are known, and the world
that remembers what was asked and answered. -/
def Environment.recording (admits : Exchange Call Reply → Prop)
    (permits : List (Exchange Call Reply) → Call → Prop) :
    Environment Call Reply (List (Exchange Call Reply)) where
  permits := permits
  answers past request reply after := admits ⟨request, reply⟩ ∧ after = past ++ [⟨request, reply⟩]

/-- `program.Follows events rest`: `rest` is left after exactly these exchanges. -/
inductive Program.Follows :
    Program Call Reply α → List (Exchange Call Reply) → Program Call Reply α → Prop where
  | here {program : Program Call Reply α} : Follows program [] program
  | step {request : Call} {next : Reply request → Program Call Reply α} {reply : Reply request}
      {events : List (Exchange Call Reply)} {rest : Program Call Reply α}
      (later : Follows (next reply) events rest) :
      Follows (.call request next) (⟨request, reply⟩ :: events) rest

/-- The program makes this request after exactly these exchanges. -/
def Program.Issues (program : Program Call Reply α) (events : List (Exchange Call Reply))
    (request : Call) : Prop :=
  ∃ next, program.Follows events (.call request next)

section

variable {admits : Exchange Call Reply → Prop} {permits : List (Exchange Call Reply) → Call → Prop}
  {program rest : Program Call Reply α} {events : List (Exchange Call Reply)}

theorem Program.Follows.reaches (path : program.Follows events rest)
    (admitted : ∀ event ∈ events, admits event) (past : List (Exchange Call Reply)) :
    program.Reaches (.recording admits permits) past rest (past ++ events) := by
  induction path generalizing past with
  | here => simpa using Reaches.here
  | @step request next reply events rest later ih =>
      have tail := ih (fun event member => admitted event (by simp [member]))
        (past ++ [⟨request, reply⟩])
      rw [List.append_assoc, List.singleton_append] at tail
      exact .step ⟨admitted _ (by simp), rfl⟩ tail

/-- What the judgement permits after every admitted exchange is all a program ever
issues. -/
theorem Program.Safe.issues {post : α → List (Exchange Call Reply) → Prop} {request : Call}
    (safe : program.Safe (.recording admits permits) post [])
    (issued : program.Issues events request) (admitted : ∀ event ∈ events, admits event) :
    permits events request := by
  obtain ⟨next, path⟩ := issued
  have permitted := safe.request (path.reaches admitted [])
  rw [List.nil_append] at permitted
  exact permitted

end

end Recording

section Replay

variable {Call : Type u} {Reply : Call → Type v} {World : Type w} {α : Type x}

/-- One way of answering every request. -/
abbrev Handler (Call : Type u) (Reply : Call → Type v) (World : Type w) :=
  World → (request : Call) → Reply request × World

def Program.replay (handler : Handler Call Reply World) : Program Call Reply α → World → α × World
  | .done value, world => (value, world)
  | .call request next, world =>
      (next (handler world request).1).replay handler (handler world request).2

/-- A replay is one of the executions. -/
theorem Program.replay_reaches {env : Environment Call Reply World}
    {handler : Handler Call Reply World}
    (admissible : ∀ world request,
      env.answers world request (handler world request).1 (handler world request).2)
    (program : Program Call Reply α) (world : World) :
    program.Reaches env world (.done (program.replay handler world).1)
      (program.replay handler world).2 := by
  induction program generalizing world with
  | done value => exact .here
  | call request next ih => exact .step (admissible world request) (ih _ _)

/-- The surroundings that answer in this one way. -/
def Environment.handled (handler : Handler Call Reply World) : Environment Call Reply World where
  permits _ _ := True
  answers world request reply after := handler world request = (reply, after)

theorem Program.Safe.replayed {handler : Handler Call Reply World} {program : Program Call Reply α}
    {post : α → World → Prop} {world : World} (safe : program.Safe (.handled handler) post world) :
    post (program.replay handler world).1 (program.replay handler world).2 :=
  safe.result (program.replay_reaches (fun _ _ => rfl) world)

/-- Answer a program's requests as long as they go through: what is left of it, and
the world it left. -/
def Program.advance (handler : Handler Call Reply World) (goes : World → Call → Bool) :
    Program Call Reply α → World → Program Call Reply α × World
  | .done value, world => (.done value, world)
  | .call request next, world =>
      if goes world request then
        (next (handler world request).1).advance handler goes (handler world request).2
      else (.call request next, world)

/-- A replay is an execution among surroundings that see only part of its world. -/
theorem Program.advance_viewed {View : Type y} {env : Environment Call Reply View}
    {handler : Handler Call Reply World} {goes : World → Call → Bool} (view : World → View)
    (admissible : ∀ world request, goes world request = true →
      env.answers (view world) request (handler world request).1 (view (handler world request).2))
    (program : Program Call Reply α) (world : World) :
    program.Reaches env (view world) (program.advance handler goes world).1
      (view (program.advance handler goes world).2) := by
  induction program generalizing world with
  | done value => exact .here
  | call request next ih =>
      rw [advance]
      split
      · exact .step (admissible world request ‹_›) (ih _ _)
      · exact .here

theorem Program.advance_reaches {env : Environment Call Reply World}
    {handler : Handler Call Reply World} {goes : World → Call → Bool}
    (admissible : ∀ world request, goes world request = true →
      env.answers world request (handler world request).1 (handler world request).2)
    (program : Program Call Reply α) (world : World) :
    program.Reaches env world (program.advance handler goes world).1
      (program.advance handler goes world).2 :=
  program.advance_viewed id admissible world

/-- The request a program is about to make. -/
def Program.asks : Program Call Reply α → Option Call
  | .done _ => none
  | .call request _ => some request

theorem Program.of_asks {program : Program Call Reply α} {request : Call}
    (asks : program.asks = some request) : ∃ next, program = .call request next := by
  cases program with
  | done value => cases asks
  | call first next =>
      cases asks
      exact ⟨next, rfl⟩

/-- Whether a program has ended. -/
def Program.rests : Program Call Reply α → Bool
  | .done _ => true
  | .call _ _ => false

theorem Program.of_rests {program : Program Call Reply α} (rests : program.rests = true) :
    ∃ value, program = .done value := by
  cases program with
  | done value => exact ⟨value, rfl⟩
  | call request next => cases rests

/-- What a program that has ended returns. -/
def Program.outcome : Program Call Reply α → Option α
  | .done value => some value
  | .call _ _ => none

theorem Program.of_outcome {program : Program Call Reply α} {value : α}
    (ended : program.outcome = some value) : program = .done value := by
  cases program with
  | done result =>
      cases ended
      rfl
  | call request next => cases ended

/-- Replay a program until it makes a request of a kind: what was asked and
answered before, and that request. -/
def Program.replayUntil (handler : Handler Call Reply World) (stop : Call → Bool) :
    Program Call Reply α → World → List (Exchange Call Reply) × Option Call
  | .done _, _ => ([], none)
  | .call request next, world =>
      if stop request then ([], some request)
      else
        let (reply, after) := handler world request
        let (events, stopped) := (next reply).replayUntil handler stop after
        (⟨request, reply⟩ :: events, stopped)

theorem Program.replayUntil_issues (handler : Handler Call Reply World) (stop : Call → Bool)
    (program : Program Call Reply α) (world : World) {request : Call}
    (stopped : (program.replayUntil handler stop world).2 = some request) :
    program.Issues (program.replayUntil handler stop world).1 request := by
  induction program generalizing world with
  | done value => cases stopped
  | call first next ih =>
      rw [replayUntil] at stopped ⊢
      split at stopped
      · rename_i found
        rw [if_pos found]
        cases stopped
        exact ⟨next, .here⟩
      · rename_i missed
        rw [if_neg missed]
        obtain ⟨rest, path⟩ := ih _ _ stopped
        exact ⟨rest, .step path⟩

/-- A replay that nothing stops, exchange by exchange. -/
theorem Program.replay_follows (handler : Handler Call Reply World) (program : Program Call Reply α)
    (world : World) :
    program.Follows (program.replayUntil handler (fun _ => false) world).1
      (.done (program.replay handler world).1) := by
  induction program generalizing world with
  | done value => exact .here
  | call request next ih => exact .step (ih _ _)

end Replay

end SriovMacSync.Interaction
