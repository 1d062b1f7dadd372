import SriovMacSync.Interaction.Execution
import SriovMacSync.Netlink.Messages

namespace SriovMacSync.Netlink

open Data Interaction Interaction.Action

/-! # A dump

A dump is answered by datagrams of the kernel's own size, and the socket may still
hold answers to what was asked before.  Every attempt asks under a number of its own. -/

def nlmsgNoop : UInt16 := 1
def nlmsgErrorKind : UInt16 := 2
def nlmsgDone : UInt16 := 3

def nlmFDumpIntr : UInt16 := 0x10

/-- The largest datagram a buffer is made for. -/
def ceiling : Nat := 64 * 1024 * 1024

def attempts : Nat := 8

inductive IoError where
  | os (code : Nat)
  | wouldBlock
  | timedOut (text : String)
  | other (text : String)
deriving DecidableEq, Repr

/-- One datagram off the socket: its sender's port, zero for the kernel, and its
bytes.  `MSG_TRUNC` tells its real length whatever the buffer holds of it. -/
structure Datagram where
  port : UInt32
  bytes : List UInt8
deriving DecidableEq, Repr

inductive SocketCall where
  /-- the request, the number written over its bytes eight to eleven -/
  | send (number : UInt32) (request : List UInt8)
  /-- a read that no signal cut short -/
  | recvFrom (capacity : Nat) (wait : Bool)
  /-- a deadline, and how many looks at the clock come before it -/
  | deadline
  /-- reads until nothing is queued -/
  | drain
deriving DecidableEq, Repr

@[reducible] def SocketReply : SocketCall → Type
  | .send _ _ => Except IoError Nat
  | .recvFrom _ _ => Except IoError Datagram
  | .deadline => Nat
  | .drain => Unit

structure Socket where
  /-- the number of the last request -/
  seq : UInt32
  /-- the size of the buffer -/
  capacity : Nat
deriving DecidableEq, Repr

abbrev Asking (α : Type) := Action Socket SocketCall SocketReply α

abbrev ask (request : SocketCall) : Asking (SocketReply request) := Action.ask request

/-- The status code at the front of an `NLMSG_ERROR` or `NLMSG_DONE` payload, as an
error when it is one. -/
def nlmsgError (payload : List UInt8) : Option IoError :=
  if payload.length < 4 then none
  else
    let code := field payload 0 4
    if code = 0 then none
    else if code < 2 ^ 31 then some (.os code)
    else some (.os (min (2 ^ 32 - code) (2 ^ 31 - 1)))

inductive DumpEnd where
  | done
  | interrupted
  | tooBig (need : Nat)
deriving DecidableEq, Repr

namespace Socket

def send (number : UInt32) (request : List UInt8) : Asking (Except IoError Unit) := do
  let sent : Except IoError Nat ← ask (.send number request)
  match sent with
  | .error error => return .error error
  | .ok count =>
      if count ≠ request.length then
        return .error (.other "netlink request went out incomplete")
      else
        return .ok ()

/-- Read a datagram of the kernel's.  A bounded number of others is dropped on the
way, without waiting for more. -/
def recv (wait : Bool) : Nat → Asking (Except IoError (List UInt8))
  | 0 => return .error .wouldBlock
  | spoofs + 1 => do
      let capacity := (← get).capacity
      let got : Except IoError Datagram ← ask (.recvFrom capacity wait)
      match got with
      | .error error => return .error error
      | .ok datagram =>
          if datagram.port ≠ 0 then recv false spoofs
          else return .ok datagram.bytes

section

variable {T : Type} (parse : List UInt8 → List T → List T) (want : UInt16) (seq : UInt32)

/-- The messages of one datagram, up to the one that ends the dump. -/
def walk : List Message → List T → Option (Except IoError DumpEnd) × List T
  | [], out => (none, out)
  | msg :: rest, out =>
      if msg.seq ≠ seq then walk rest out
      else if msg.flags &&& nlmFDumpIntr ≠ 0 then (some (.ok .interrupted), out)
      else if msg.kind = nlmsgDone then
        match nlmsgError msg.payload with
        | some error => (some (.error error), out)
        | none => (some (.ok .done), out)
      else if msg.kind = nlmsgErrorKind then
        (some (.error ((nlmsgError msg.payload).getD
          (.other "the dump ended in a malformed error message"))), out)
      else if msg.kind = nlmsgNoop then walk rest out
      else if msg.kind = want then walk rest (parse msg.payload out)
      else walk rest out

/-- The answers of one attempt, as long as the deadline has not passed. -/
def runDump : Nat → List T → Asking (Except IoError DumpEnd × List T)
  | 0, out => return (.error (.timedOut "no answer from the kernel in time"), out)
  | looks + 1, out => do
      let capacity := (← get).capacity
      let got ← recv true 64
      match got with
      | .error .wouldBlock => runDump looks out
      | .error error => return (.error error, out)
      | .ok datagram =>
          if capacity < datagram.length then
            return (.ok (.tooBig datagram.length), out)
          else
            match walk parse want seq (messages datagram) out with
            | (some ended, out) => return (ended, out)
            | (none, out) => runDump looks out

variable (request : List UInt8) (what : String)

/-- Ask until a dump comes back whole.  Each attempt starts from nothing. -/
def dumpAttempts : Nat → Asking (Except IoError (List T))
  | 0 => do
      let capacity := (← get).capacity
      return .error (.other s!"{what} dump did not come back whole in {attempts} attempts (buffer now {capacity} bytes)")
  | left + 1 => do
      modify fun socket => { socket with seq := socket.seq + 1 }
      let number := (← get).seq
      let asked ← send number request
      match asked with
      | .error error => return .error error
      | .ok () =>
          let looks : Nat ← ask .deadline
          let (ended, out) ← runDump parse want number looks []
          match ended with
          | .ok .done => return .ok out
          | .ok .interrupted =>
              let _ ← ask .drain
              dumpAttempts left
          | .ok (.tooBig need) =>
              let _ ← ask .drain
              if ceiling < need then
                return .error (.other s!"{what} dump wants {need} bytes in one datagram, beyond the {ceiling} this is willing to allocate")
              else
                modify fun socket =>
                  { socket with capacity := min need.nextPowerOfTwo ceiling }
                dumpAttempts left
          | .error error =>
              let _ ← ask .drain
              return .error error

def dumpInto : Asking (Except IoError (List T)) :=
  dumpAttempts parse want request what attempts

end

end Socket

section Answers

variable {T : Type} (parse : List UInt8 → List T → List T) (want : UInt16) (seq : UInt32)

/-- The kernel's datagrams among what a run asked and was answered. -/
def kernelDatagrams (events : List (Exchange SocketCall SocketReply)) : List (List UInt8) :=
  events.filterMap fun
    | ⟨.recvFrom _ _, .ok datagram⟩ => if datagram.port = 0 then some datagram.bytes else none
    | _ => none

/-- The numbers a run asked under. -/
def numbers (events : List (Exchange SocketCall SocketReply)) : List UInt32 :=
  events.filterMap fun
    | ⟨.send number _, _⟩ => some number
    | _ => none

/-- What was said to the request of a number. -/
def answersTo (datagrams : List (List UInt8)) : List Message :=
  (datagrams.flatMap messages).filter (·.seq = seq)

/-- A message that neither ends a dump nor spoils it. -/
structure Message.Clean (msg : Message) : Prop where
  steady : msg.flags &&& nlmFDumpIntr = 0
  noError : msg.kind ≠ nlmsgErrorKind
  notDone : msg.kind ≠ nlmsgDone

/-- The end of a dump the kernel saw through. -/
structure Message.Completes (msg : Message) : Prop where
  steady : msg.flags &&& nlmFDumpIntr = 0
  done : msg.kind = nlmsgDone
  noCode : nlmsgError msg.payload = none

/-- The parse of the messages of the wanted type, one after the other. -/
def collect (msgs : List Message) (out : List T) : List T :=
  ((msgs.filter (·.kind = want)).map (·.payload)).foldl (fun out payload => parse payload out) out

/-- `out` is what stands before the end of a dump that nothing spoilt. -/
def Whole (answers : List Message) (start out : List T) : Prop :=
  ∃ body last rest, answers = body ++ last :: rest ∧ (∀ msg ∈ body, msg.Clean) ∧
    last.Completes ∧ out = collect parse want body start

end Answers

section Walking

variable {T : Type} {parse : List UInt8 → List T → List T} {want : UInt16} {seq : UInt32}

theorem collect_append (msgs more : List Message) (out : List T) :
    collect parse want (msgs ++ more) out = collect parse want more (collect parse want msgs out) := by
  simp [collect]

theorem Whole.prepend {msgs answers : List Message} {start out : List T}
    (clean : ∀ msg ∈ msgs, msg.Clean)
    (whole : Whole parse want answers (collect parse want msgs start) out) :
    Whole parse want (msgs ++ answers) start out := by
  obtain ⟨body, last, rest, rfl, bodyClean, completes, rfl⟩ := whole
  refine ⟨msgs ++ body, last, rest, by simp, ?_, completes, (collect_append ..).symm⟩
  intro msg member
  exact (List.mem_append.mp member).elim (clean msg) (bodyClean msg)

/-- What one answer to the request does: it is collected, it completes the dump, or
it ends it some other way. -/
theorem walk_cons (apart : want ≠ nlmsgNoop) {msg : Message} (ours : msg.seq = seq)
    (rest : List Message) (start : List T) :
    msg.Clean ∧ Socket.walk parse want seq (msg :: rest) start =
        Socket.walk parse want seq rest (collect parse want [msg] start) ∨
      msg.Completes ∧ Socket.walk parse want seq (msg :: rest) start =
        (some (.ok .done), start) ∨
      ∃ ended, ended ≠ .ok .done ∧
        Socket.walk parse want seq (msg :: rest) start = (some ended, start) := by
  rw [Socket.walk, if_neg (not_not.mpr ours)]
  split
  · exact .inr (.inr ⟨.ok .interrupted, by simp, rfl⟩)
  · rename_i steady
    rw [not_not] at steady
    split
    · rename_i done
      cases code : nlmsgError msg.payload with
      | some error => exact .inr (.inr ⟨.error error, by simp, rfl⟩)
      | none => exact .inr (.inl ⟨⟨steady, done, code⟩, rfl⟩)
    · rename_i notDone
      split
      · exact .inr (.inr ⟨.error _, by simp, rfl⟩)
      · rename_i noError
        refine .inl ⟨⟨steady, noError, notDone⟩, ?_⟩
        split
        · rename_i noop
          have unwanted : msg.kind ≠ want := fun wanted => apart (wanted ▸ noop)
          simp [collect, unwanted]
        · split
          · rename_i wanted
            simp [collect, wanted]
          · rename_i unwanted
            simp [collect, unwanted]

theorem walk_foreign {msg : Message} (other : msg.seq ≠ seq) (rest : List Message)
    (start : List T) :
    Socket.walk parse want seq (msg :: rest) start = Socket.walk parse want seq rest start := by
  rw [Socket.walk, if_pos other]

/-- Where a datagram leaves the dump going on, all it said to the request is clean. -/
theorem walk_goesOn (apart : want ≠ nlmsgNoop) {msgs : List Message} {start out : List T}
    (walked : Socket.walk parse want seq msgs start = (none, out)) :
    (∀ msg ∈ msgs.filter (·.seq = seq), msg.Clean) ∧
      out = collect parse want (msgs.filter (·.seq = seq)) start := by
  induction msgs generalizing start with
  | nil =>
      cases walked
      exact ⟨nofun, rfl⟩
  | cons msg rest ih =>
      by_cases ours : msg.seq = seq
      · rw [List.filter_cons_of_pos (by simpa using ours)]
        rcases walk_cons apart ours rest start with ⟨clean, same⟩ | ⟨-, same⟩ | ⟨ended, -, same⟩
        · rw [same] at walked
          obtain ⟨others, rfl⟩ := ih walked
          refine ⟨fun other member => ?_, (collect_append [msg] _ start).symm⟩
          rcases List.mem_cons.mp member with rfl | member
          · exact clean
          · exact others other member
        · rw [same] at walked
          cases walked
        · rw [same] at walked
          cases walked
      · rw [List.filter_cons_of_neg (by simpa using ours)]
        exact ih (walk_foreign ours rest start ▸ walked)

/-- Where a datagram completes the dump, nothing before its end spoilt it. -/
theorem walk_done (apart : want ≠ nlmsgNoop) {msgs : List Message} {start out : List T}
    (walked : Socket.walk parse want seq msgs start = (some (.ok .done), out)) :
    Whole parse want (msgs.filter (·.seq = seq)) start out := by
  induction msgs generalizing start with
  | nil => cases walked
  | cons msg rest ih =>
      by_cases ours : msg.seq = seq
      · rw [List.filter_cons_of_pos (by simpa using ours)]
        rcases walk_cons apart ours rest start with
          ⟨clean, same⟩ | ⟨completes, same⟩ | ⟨ended, failed, same⟩
        · rw [same] at walked
          have alone : ∀ other ∈ [msg], other.Clean := by simpa using clean
          exact (ih walked).prepend alone
        · rw [same] at walked
          cases walked
          exact ⟨[], msg, _, rfl, nofun, completes, rfl⟩
        · rw [same] at walked
          cases walked
          exact absurd rfl failed
      · rw [List.filter_cons_of_neg (by simpa using ours)]
        exact ih (walk_foreign ours rest start ▸ walked)

end Walking

section Runs

variable {T : Type} {parse : List UInt8 → List T → List T} {want : UInt16} {seq : UInt32}
  {socket : Socket} {past : List (Exchange SocketCall SocketReply)}

/-- Every way a run of the socket may be answered, with a record of it. -/
abbrev anyAnswers : Environment SocketCall SocketReply (List (Exchange SocketCall SocketReply)) :=
  .recording (fun _ => True) fun _ _ => True

/-- A step that asks under no number of its own, and what the kernel said meanwhile. -/
def Reads (past after : List (Exchange SocketCall SocketReply)) (said : List (List UInt8)) :
    Prop :=
  ∃ events, after = past ++ events ∧ numbers events = [] ∧ kernelDatagrams events = said

theorem Reads.trans {middle after : List (Exchange SocketCall SocketReply)}
    {said more : List (List UInt8)} (first : Reads past middle said)
    (second : Reads middle after more) : Reads past after (said ++ more) := by
  obtain ⟨events, rfl, asked, rfl⟩ := first
  obtain ⟨others, rfl, askedMore, rfl⟩ := second
  refine ⟨events ++ others, by simp, ?_, by simp [kernelDatagrams]⟩
  rw [numbers, List.filterMap_append]
  exact List.append_eq_nil_iff.mpr ⟨asked, askedMore⟩

theorem recv_spec (wait : Bool) (spoofs : Nat) :
    Safe anyAnswers (Socket.recv wait spoofs) (fun got left after =>
      left = socket ∧ Reads past after got.toOption.toList) socket past := by
  induction spoofs generalizing wait past with
  | zero => exact ⟨rfl, [], by simp, rfl, rfl⟩
  | succ spoofs ih =>
      refine safe_bind.mpr (safe_get.mpr (safe_bind.mpr (safe_ask.mpr ⟨trivial, ?_⟩)))
      rintro got _ ⟨-, rfl⟩
      cases got with
      | error error => exact ⟨rfl, _, rfl, rfl, rfl⟩
      | ok datagram =>
          change Safe anyAnswers (if datagram.port ≠ 0 then _ else _) _ socket _
          split
          · rename_i foreign
            refine ih false |>.mono ?_
            rintro got left after ⟨rfl, later⟩
            have skipped : Reads past (past ++ [⟨.recvFrom left.capacity wait, .ok datagram⟩]) [] :=
              ⟨_, rfl, rfl, by simp [kernelDatagrams, foreign]⟩
            exact ⟨rfl, skipped.trans later⟩
          · rename_i kernel
            rw [not_not] at kernel
            exact ⟨rfl, _, rfl, rfl, by simp [kernelDatagrams, kernel, Except.toOption]⟩

theorem answersTo_append (said more : List (List UInt8)) :
    answersTo seq (said ++ more) = answersTo seq said ++ answersTo seq more := by
  simp [answersTo]

/-- An attempt that completes was answered whole. -/
theorem runDump_spec (apart : want ≠ nlmsgNoop) (looks : Nat) (start : List T) :
    Safe anyAnswers (Socket.runDump parse want seq looks start) (fun result left after =>
      left = socket ∧ ∃ said, Reads past after said ∧
        (result.1 = .ok .done → Whole parse want (answersTo seq said) start result.2))
      socket past := by
  induction looks generalizing start past with
  | zero => exact ⟨rfl, [], ⟨[], by simp, rfl, rfl⟩, nofun⟩
  | succ looks ih =>
      refine safe_bind.mpr (safe_get.mpr (safe_bind.mpr ((recv_spec true 64).mono ?_)))
      rintro got left middle ⟨rfl, reads⟩
      cases got with
      | error error =>
          cases error with
          | wouldBlock =>
              refine (ih start).mono ?_
              rintro result left after ⟨rfl, said, later, whole⟩
              exact ⟨rfl, said, reads.trans later, whole⟩
          | os code => exact ⟨rfl, [], reads, nofun⟩
          | timedOut text => exact ⟨rfl, [], reads, nofun⟩
          | other text => exact ⟨rfl, [], reads, nofun⟩
      | ok datagram =>
          change Safe anyAnswers (if left.capacity < datagram.length then _ else _) _ left middle
          split
          · exact ⟨rfl, _, reads, nofun⟩
          · cases walked : Socket.walk parse want seq (messages datagram) start with
            | mk ended out =>
                have single : answersTo seq [datagram] =
                    (messages datagram).filter (·.seq = seq) := by simp [answersTo]
                cases ended with
                | some ended =>
                    refine ⟨rfl, [datagram], reads, fun done => ?_⟩
                    obtain rfl : ended = .ok .done := done
                    rw [single]
                    exact walk_done apart walked
                | none =>
                    obtain ⟨clean, rfl⟩ := walk_goesOn apart walked
                    refine (ih _).mono ?_
                    rintro result left after ⟨rfl, said, later, whole⟩
                    refine ⟨rfl, [datagram] ++ said, reads.trans later, fun done => ?_⟩
                    rw [answersTo_append, single]
                    exact (whole done).prepend clean

theorem send_spec (number : UInt32) (request : List UInt8) :
    Safe anyAnswers (Socket.send number request) (fun _ left after =>
      left = socket ∧ ∃ sent, after = past ++ [⟨.send number request, sent⟩]) socket past := by
  refine safe_bind.mpr (safe_ask.mpr ⟨trivial, ?_⟩)
  rintro sent _ ⟨-, rfl⟩
  cases sent with
  | error error => exact ⟨rfl, _, rfl⟩
  | ok count =>
      change Safe anyAnswers (if count ≠ request.length then _ else _) _ socket _
      split <;> exact ⟨rfl, _, rfl⟩

theorem drain_spec : Safe anyAnswers (ask .drain) (fun _ left after =>
    left = socket ∧ Reads past after []) socket past := by
  refine safe_ask.mpr ⟨trivial, ?_⟩
  rintro _ _ ⟨-, rfl⟩
  exact ⟨rfl, _, rfl, rfl, rfl⟩

/-- An attempt that was answered whole, after others under numbers of theirs. -/
def Attempted (parse : List UInt8 → List T → List T) (want : UInt16) (request : List UInt8)
    (earlier : List UInt32) (past after : List (Exchange SocketCall SocketReply))
    (number : UInt32) (out : List T) : Prop :=
  ∃ before sent reads, after = past ++ (before ++ ⟨.send number request, sent⟩ :: reads) ∧
    numbers before = earlier ∧ numbers reads = [] ∧
    Whole parse want (answersTo number (kernelDatagrams reads)) [] out

variable {request : List UInt8} {what : String}

/-- Behind an attempt that came to nothing. -/
theorem Attempted.behind {earlier : List UInt32} {number first : UInt32}
    {sent : SocketReply (.send first request)} {said : List (List UInt8)} {out : List T}
    {middle after : List (Exchange SocketCall SocketReply)}
    (tried : Reads (past ++ [⟨.send first request, sent⟩]) middle said)
    (later : Attempted parse want request earlier middle after number out) :
    Attempted parse want request (first :: earlier) past after number out := by
  obtain ⟨events, rfl, silent, -⟩ := tried
  obtain ⟨before, sent', reads, rfl, asked, quiet, whole⟩ := later
  refine ⟨⟨.send first request, sent⟩ :: (events ++ before), sent', reads, by simp, ?_, quiet,
    whole⟩
  have rest : numbers (events ++ before) = earlier := by
    rw [← asked, numbers, List.filterMap_append]
    rw [numbers] at silent
    rw [silent, List.nil_append, numbers]
  rw [← rest]
  rfl

/-- The number of the attempt after so many others. -/
def numberAfter (seq : UInt32) (count : Nat) : UInt32 := seq + UInt32.ofNat (count + 1)

theorem numberAfter_succ (seq : UInt32) (count : Nat) :
    numberAfter (seq + 1) count = numberAfter seq (count + 1) := by
  rw [numberAfter, numberAfter, UInt32.ofNat_add (count + 1) 1, UInt32.add_comm _ (UInt32.ofNat 1),
    ← UInt32.add_assoc]
  rfl

theorem dumpAttempts_spec (apart : want ≠ nlmsgNoop) (left : Nat) :
    Safe anyAnswers (Socket.dumpAttempts parse want request what left) (fun result _ after =>
      ∀ out, result = .ok out → ∃ count < left,
        Attempted parse want request ((List.range count).map (numberAfter socket.seq)) past after
          (numberAfter socket.seq count) out) socket past := by
  induction left generalizing socket past with
  | zero => exact safe_bind.mpr (safe_get.mpr nofun)
  | succ left ih =>
      refine safe_bind.mpr (safe_modify.mpr (safe_bind.mpr (safe_get.mpr (safe_bind.mpr
        ((send_spec _ request).mono ?_)))))
      rintro asked now _ ⟨rfl, sent, rfl⟩
      cases asked with
      | error error => exact nofun
      | ok _ =>
          refine safe_bind.mpr (safe_ask.mpr ⟨trivial, ?_⟩)
          rintro looks _ ⟨-, rfl⟩
          refine safe_bind.mpr ((runDump_spec apart looks []).mono ?_)
          rintro ⟨ended, out⟩ now middle ⟨rfl, said, reads, whole⟩
          have tried : Reads (past ++ [⟨.send (socket.seq + 1) request, sent⟩]) middle said := by
            have waited : Reads (past ++ [⟨.send (socket.seq + 1) request, sent⟩])
                (past ++ [⟨.send (socket.seq + 1) request, sent⟩] ++ [⟨.deadline, looks⟩]) [] :=
              ⟨_, rfl, rfl, rfl⟩
            exact waited.trans reads
          -- another attempt, behind this one
          have again {capacity : Nat} {next : List (Exchange SocketCall SocketReply)}
              (drained : Reads middle next []) :
              Safe anyAnswers (Socket.dumpAttempts parse want request what left)
                (fun result _ after => ∀ out, result = .ok out → ∃ count < left + 1,
                  Attempted parse want request ((List.range count).map (numberAfter socket.seq))
                    past after (numberAfter socket.seq count) out)
                ⟨socket.seq + 1, capacity⟩ next := by
            refine ih.mono ?_
            intro result _ after later out got
            obtain ⟨count, within, attempted⟩ := later out got
            refine ⟨count + 1, by omega, ?_⟩
            rw [List.range_succ_eq_map, List.map_cons, List.map_map]
            have renumbered : numberAfter socket.seq ∘ Nat.succ = numberAfter (socket.seq + 1) := by
              funext earlier
              exact (numberAfter_succ socket.seq earlier).symm
            rw [renumbered, ← numberAfter_succ]
            exact attempted.behind (tried.trans drained)
          cases ended with
          | ok ended =>
              cases ended with
              | done =>
                  rintro _ ⟨⟩
                  obtain ⟨events, rfl, silent, rfl⟩ := tried
                  exact ⟨0, by omega, [], sent, events, List.append_assoc .., rfl, silent, whole rfl⟩
              | interrupted =>
                  refine safe_bind.mpr (drain_spec.mono ?_)
                  rintro _ now next ⟨rfl, drained⟩
                  exact again drained
              | tooBig need =>
                  refine safe_bind.mpr (drain_spec.mono ?_)
                  rintro _ now next ⟨rfl, drained⟩
                  change Safe anyAnswers (if ceiling < need then _ else _) _ _ next
                  split
                  · exact nofun
                  · exact safe_bind.mpr (safe_modify.mpr (again drained))
          | error error =>
              refine safe_bind.mpr (drain_spec.mono ?_)
              rintro _ now next ⟨rfl, drained⟩
              exact nofun

end Runs

variable {T : Type} {parse : List UInt8 → List T → List T} {want : UInt16}

/-- A dump is whole or an error: what it returns is the parse of one attempt's answers
up to their end, and nothing spoilt them. -/
theorem dump_is_whole (apart : want ≠ nlmsgNoop) {request : List UInt8} {what : String}
    {socket left : Socket} {events : List (Exchange SocketCall SocketReply)} {out : List T}
    (ran : (Socket.dumpInto parse want request what socket).Follows events (.done (.ok out, left))) :
    ∃ earlier number sent reads, events = earlier ++ ⟨.send number request, sent⟩ :: reads ∧
      (numbers earlier).length < attempts ∧ number ∉ numbers earlier ∧ numbers reads = [] ∧
      ∃ body last rest,
        answersTo number (kernelDatagrams reads) = body ++ last :: rest ∧
        (∀ msg ∈ body, msg.Clean) ∧ last.Completes ∧ out = collect parse want body [] := by
  have path : Runs anyAnswers (Socket.dumpInto parse want request what) socket [] (.ok out) left
      events := ran.reaches (fun _ _ => trivial) []
  obtain ⟨count, within, earlier, sent, reads, rfl, asked, silent, whole⟩ :=
    (dumpAttempts_spec apart attempts).runs path out rfl
  refine ⟨earlier, _, sent, reads, rfl, by simpa [asked] using within, ?_, silent, whole⟩
  rw [asked, List.mem_map]
  rintro ⟨other, member, same⟩
  rw [List.mem_range] at member
  have few : attempts + 1 < UInt32.size := by decide
  have equal := congrArg UInt32.toNat ((UInt32.add_right_inj _).mp same)
  rw [UInt32.toNat_ofNat_of_lt' (by omega), UInt32.toNat_ofNat_of_lt' (by omega)] at equal
  omega

section Examples

/-- A message of four bytes of body, its length in front. -/
def wordMessage (kind flags number word : UInt8) : List UInt8 :=
  [20, 0, 0, 0, kind, 0, flags, 0, number, 0, 0, 0, 0, 0, 0, 0, word, 0, 0, 0]

/-- A kernel that has so many datagrams queued. -/
def queued : Handler SocketCall SocketReply (List (List UInt8))
  | queue, .send _ request => (.ok request.length, queue)
  | queue, .deadline => (20, queue)
  | queue, .drain => ((), queue)
  | [], .recvFrom .. => (.error .wouldBlock, [])
  | bytes :: queue, .recvFrom .. => (.ok ⟨0, bytes⟩, queue)

/-- An interrupted attempt, its leftover end, and a whole one. -/
def interruptedQueue : List (List UInt8) :=
  [wordMessage 16 0x10 2 9, wordMessage 3 0 2 0 ++ wordMessage 16 0 3 7, wordMessage 3 0 3 0]

def dumpWords : Asking (Except IoError (List (List UInt8))) :=
  Socket.dumpInto (fun payload out => out ++ [payload]) rtmNewLink [] "link"

def retriedEvents : List (Exchange SocketCall SocketReply) :=
  ((dumpWords ⟨1, 64⟩).replayUntil queued (fun _ => false) interruptedQueue).1

theorem dump_is_whole_retried :
    ∃ earlier number sent reads, retriedEvents = earlier ++ ⟨.send number [], sent⟩ :: reads ∧
      (numbers earlier).length < attempts ∧ number ∉ numbers earlier ∧ numbers reads = [] ∧
      ∃ body last rest,
        answersTo number (kernelDatagrams reads) = body ++ last :: rest ∧
        (∀ msg ∈ body, msg.Clean) ∧ last.Completes ∧
        [[7, 0, 0, 0]] = collect (fun payload out => out ++ [payload]) rtmNewLink body [] := by
  have ran := (dumpWords ⟨1, 64⟩).replay_follows queued interruptedQueue
  have whole : ((dumpWords ⟨1, 64⟩).replay queued interruptedQueue).1 =
      (.ok [[7, 0, 0, 0]], ⟨3, 64⟩) := by
    decide +kernel
  rw [whole] at ran
  exact dump_is_whole (by decide) ran

end Examples

end SriovMacSync.Netlink
