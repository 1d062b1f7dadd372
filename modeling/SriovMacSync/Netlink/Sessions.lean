import SriovMacSync.Netlink.Acknowledged

namespace SriovMacSync.Netlink

open Data Interaction Interaction.Action

/-! # The life of a socket

Writes, questions and dumps follow one another on a socket, each under a number of its own
as long as the numbers do not come round.  Some are given up with an answer still to come. -/

section Steps

variable {socket : Socket} {wire : Wire}

/-- A socket in step with its wire. -/
structure InStep (socket : Socket) (wire : Wire) : Prop where
  current : socket.seq = wire.last
  sound : wire.Sound

theorem toNat_succ {number : UInt32} (room : number.toNat + 1 < 2 ^ 32) :
    (number + 1).toNat = number.toNat + 1 := by
  rw [UInt32.toNat_add]
  exact Nat.mod_eq_of_lt room

/-- What is known of a write that was answered. -/
inductive Answered (order : Order) (wire after : Wire) : Except IoError Unit → Prop where
  /-- the kernel did not get it -/
  | unsent {error : IoError} (apart : Apart error) (log : after.log = wire.log) :
      Answered order wire after (.error error)
  /-- the answer is what came of it -/
  | told {entry : Entry} (log : after.log = wire.log ++ [entry]) (named : entry.order = order) :
      Answered order wire after (answerOf entry.outcome)
  /-- no answer was understood -/
  | untold {error : IoError} {entry : Entry} (apart : Apart error) (log : after.log = wire.log ++ [entry])
      (named : entry.order = order) : Answered order wire after (.error error)

theorem setSelfFdb_wired (step : InStep socket wire) (room : wire.last.toNat + 1 < 2 ^ 32) {index : Index}
    (valid : Valid index) (mac : Mac) (add : Bool) :
    Safe wired (Socket.setSelfFdb index mac add) (fun answer left after =>
      InStep left after ∧ after.last.toNat = wire.last.toNat + 1 ∧ Answered ⟨index, mac, add⟩ wire after answer)
      socket wire := by
  have next : (socket.seq + 1).toNat = wire.last.toNat + 1 := by
    rw [step.current]
    exact toNat_succ room
  unfold Socket.setSelfFdb
  rw [safe_bind, safe_modify, safe_bind, safe_get, safe_bind]
  refine (send_wired (.inr next)).mono ?_
  intro sent left after known
  obtain ⟨rfl, middle, waited, sent'⟩ := known
  have ascending : middle.last.toNat ≤ (socket.seq + 1).toNat := by
    rw [waited.last]
    omega
  have sound := sent'.sound (waited.sound step.sound) ascending
  cases sent with
  | error error =>
      cases sent' with
      | failed apart => exact ⟨⟨rfl, sound⟩, next, .unsent apart waited.log⟩
  | ok =>
      obtain ⟨msg, read, ordered⟩ := setRequest_read valid mac add (socket.seq + 1)
      cases sent' with
      | question unordered =>
          have none := unordered msg (by rw [read]; exact List.mem_singleton_self _)
          rw [none] at ordered
          cases ordered
      | @order msg' order outcome lists queued read' ordered' carried acknowledged =>
          obtain rfl : msg = msg' := List.singleton_inj.mp (read.symm.trans read')
          obtain rfl : _ = order := Option.some.inj (ordered.symm.trans ordered')
          have fresh : ∀ number : UInt32, number.toNat ≤ wire.last.toNat → number ≠ socket.seq + 1 := by
            intro number earlier same
            rw [same] at earlier
            omega
          rw [safe_bind]
          refine safe_ask.mpr ⟨trivial, ?_⟩
          intro looks waiting answered
          obtain ⟨later, meanwhile, rfl⟩ := answered
          have own : Own waiting ⟨socket.seq + 1, ⟨index, mac, add⟩, outcome, middle.lists, lists, carried⟩ := by
            refine Own.waited ⟨List.mem_append_right _ (List.mem_singleton_self _), ?_, ?_⟩ meanwhile.waited
            · intro asked
              rw [waited.questions] at asked
              exact fresh _ (step.sound.questions _ asked) rfl
            · intro other listed same
              rcases List.mem_append.mp listed with earlier | last
              · rw [waited.log] at earlier
                exact absurd same (fresh _ (step.sound.log other earlier))
              · exact List.mem_singleton.mp last
          refine (awaitAck_wired (meanwhile.waited.sound sound) own looks).mono ?_
          intro answer left after known
          obtain ⟨rfl, quiet, answered⟩ := known
          have kept := meanwhile.waited.trans quiet
          have log : after.log = wire.log ++ [⟨socket.seq + 1, ⟨index, mac, add⟩, outcome, middle.lists, lists, carried⟩] := by
            rw [kept.log, waited.log]
          refine ⟨⟨kept.last.symm, kept.sound sound⟩, by rw [kept.last]; exact next, ?_⟩
          rcases answered with rfl | ⟨error, rfl, apart⟩
          · exact .told log rfl
          · exact .untold apart log rfl

end Steps

section Questions

variable {socket : Socket} {wire : Wire}

/-- What the kernel said under a number, as this kind of question reads it. -/
def Says (wire : Wire) (want : UInt16) (seq : UInt32) (answer : Except IoError (Option (List UInt8))) : Prop :=
  ∃ datagram, (seq, datagram) ∈ wire.told ∧ answerIn want seq (messages datagram) = some answer

theorem Says.waited {want : UInt16} {seq : UInt32} {answer : Except IoError (Option (List UInt8))} {after : Wire}
    (heard : Says wire want seq answer) (waited : Waited wire after) : Says after want seq answer := by
  obtain ⟨datagram, told, read⟩ := heard
  exact ⟨datagram, waited.told told, read⟩

theorem answerIn_foreign {want : UInt16} {seq : UInt32} {msgs : List Message}
    (foreign : ∀ msg ∈ msgs, msg.seq ≠ seq) : answerIn want seq msgs = none := by
  induction msgs with
  | nil => rfl
  | cons msg rest ih =>
      rw [answerIn, if_pos (foreign msg List.mem_cons_self)]
      exact ih fun other member => foreign other (List.mem_cons_of_mem _ member)

/-- An answer that is queued is to its question. -/
theorem answerIn_queued {want : UInt16} {seq : UInt32} {answer : Except IoError (Option (List UInt8))}
    {datagram : List UInt8} (sound : wire.Sound) (queued : datagram ∈ wire.queue)
    (read : answerIn want seq (messages datagram) = some answer) : Says wire want seq answer := by
  obtain ⟨number, said⟩ := sound.queued datagram queued
  by_cases same : number = seq
  · exact ⟨datagram, same ▸ said, read⟩
  · rw [answerIn_foreign fun msg member other => same ((sound.about _ said msg member).symm.trans other)] at read
    cases read

/-- What an attempt at a question gives: an answer to it, a datagram too big for the buffer,
or a failure of the socket. -/
def Gave (wire : Wire) (want : UInt16) (seq : UInt32) : Except IoError OneEnd → Prop
  | .ok (.answered held) => Says wire want seq (.ok held)
  | .ok (.tooBig _) => True
  | .error error => Apart error ∨ Says wire want seq (.error error)

theorem requestOneInto_wired (sound : wire.Sound) (seq : UInt32) (want : UInt16) (looks : Nat) :
    Safe wired (Socket.requestOneInto seq want looks) (fun ended left after =>
      left = socket ∧ Waited wire after ∧ Gave after want seq ended) socket wire := by
  induction looks generalizing wire with
  | zero => exact ⟨rfl, .refl, .inl (apart_timedOut _)⟩
  | succ looks ih =>
      refine safe_bind.mpr (safe_get.mpr (safe_bind.mpr ((recvInto_wired _ true 64).mono ?_)))
      intro got left after known
      obtain ⟨rfl, waited, read, failed⟩ := known
      have again := (ih (waited.sound sound)).mono fun ended left later known =>
        (⟨known.1, waited.trans known.2.1, known.2.2⟩ : left = _ ∧ Waited wire later ∧ _)
      cases got with
      | error error =>
          cases error with
          | wouldBlock => exact again
          | os code => exact ⟨rfl, waited, .inl (failed _ rfl)⟩
          | timedOut text => exact ⟨rfl, waited, .inl (apart_timedOut text)⟩
          | other text => exact ⟨rfl, waited, .inl (apart_other text)⟩
      | ok datagram =>
          obtain ⟨middle, first, queued, rest⟩ := read datagram rfl
          simp only []
          split
          · rw [safe_bind]
            refine safe_ask.mpr ⟨trivial, ?_⟩
            intro _ drained answered
            obtain ⟨later, meanwhile, rfl⟩ := answered
            exact ⟨rfl, (waited.trans meanwhile.waited).trans waited_drained, trivial⟩
          · cases said : answerIn want seq (messages datagram) with
            | none => exact again
            | some answer =>
                have heard := (answerIn_queued (first.sound sound) queued said).waited rest
                cases answer with
                | error error => exact ⟨rfl, waited, .inr heard⟩
                | ok held => exact ⟨rfl, waited, heard⟩

/-- An answer the kernel gave, or a failure of the socket. -/
def Heard (wire : Wire) (want : UInt16) (seq : UInt32) (answer : Except IoError (Option (List UInt8))) : Prop :=
  Says wire want seq answer ∨ ∃ error, answer = .error error ∧ Apart error

/-- What a question leaves as it was. -/
structure Asked (wire : Wire) (number : UInt32) (after : Wire) : Prop where
  sound : after.Sound
  log : after.log = wire.log
  last : after.last = number
  told : wire.told ⊆ after.told

theorem Asked.waited {middle after : Wire} {number : UInt32} (asked : Asked wire number middle)
    (waited : Waited middle after) : Asked wire number after :=
  ⟨waited.sound asked.sound, waited.log.trans asked.log, waited.last.trans asked.last,
    List.Subset.trans asked.told waited.told⟩

theorem Asked.trans {middle after : Wire} {first second : UInt32} (asked : Asked wire first middle)
    (again : Asked middle second after) : Asked wire second after :=
  ⟨again.sound, again.log.trans asked.log, again.last, List.Subset.trans asked.told again.told⟩

/-- A question is never carried out as an order. -/
theorem Sent.asked {number : UInt32} {request : List UInt8} {reply : Except IoError Nat} {after : Wire}
    (sent : Sent wire number request reply after) (sound : wire.Sound) (asks : NoWrite request)
    (ascending : wire.last.toNat ≤ number.toNat) : Asked wire number after := by
  refine ⟨sent.sound sound ascending, ?_, ?_, ?_⟩
  · cases sent with
    | failed => rfl
    | question => rfl
    | order read ordered =>
        have none := asks _ _ (by rw [read]; exact List.mem_singleton_self _)
        rw [none] at ordered
        cases ordered
  · cases sent <;> rfl
  · cases sent <;> simp

/-- Handing a question to the kernel. -/
theorem sendQuestion_wired (sound : wire.Sound) {number : UInt32} {request : List UInt8} (asks : NoWrite request)
    (ascending : number = wire.last ∨ number.toNat = wire.last.toNat + 1) :
    Safe wired (Socket.send number request) (fun sent left after => left = socket ∧
      Asked wire number after ∧ ∀ error, sent = .error error → Apart error) socket wire := by
  refine (send_wired ascending).mono ?_
  intro sent left after known
  obtain ⟨same, middle, waited, sent'⟩ := known
  have later : middle.last.toNat ≤ number.toNat := by
    rw [waited.last]
    rcases ascending with rfl | next <;> omega
  have asked := sent'.asked (waited.sound sound) asks later
  refine ⟨same, ⟨asked.sound, asked.log.trans waited.log, asked.last, List.Subset.trans waited.told asked.told⟩, ?_⟩
  intro error failed
  rw [failed] at sent'
  cases sent' with
  | failed apart => exact apart

theorem requestOneGrown_wired (sound : wire.Sound) {request : List UInt8} (asks : NoWrite request) {seq : UInt32}
    (ascending : seq = wire.last ∨ seq.toNat = wire.last.toNat + 1) (want : UInt16) (left : Nat)
    (asked : left ≠ 0 ∨ seq = wire.last) :
    Safe wired (Socket.requestOneGrown request seq want left) (fun answer kept after =>
      kept.seq = socket.seq ∧ Asked wire seq after ∧ Heard after want seq answer) socket wire := by
  induction left generalizing socket wire with
  | zero =>
      have last := asked.resolve_left (by simp)
      exact ⟨rfl, ⟨sound, rfl, last.symm, List.Subset.refl _⟩, .inr ⟨_, rfl, apart_other _⟩⟩
  | succ left ih =>
      unfold Socket.requestOneGrown
      rw [safe_bind]
      refine (sendQuestion_wired sound asks ascending).mono ?_
      intro sent kept after known
      obtain ⟨rfl, asked, apart⟩ := known
      cases sent with
      | error error => exact ⟨rfl, asked, .inr ⟨error, rfl, apart error rfl⟩⟩
      | ok =>
          dsimp only
          rw [safe_bind]
          refine safe_ask.mpr ⟨trivial, ?_⟩
          intro looks waiting answered
          obtain ⟨later, meanwhile, rfl⟩ := answered
          have asked := asked.waited meanwhile.waited
          rw [safe_bind]
          refine (requestOneInto_wired asked.sound seq want looks).mono ?_
          intro ended kept after known
          obtain ⟨rfl, waited, gave⟩ := known
          have asked := asked.waited waited
          cases ended with
          | error error =>
              refine ⟨rfl, asked, ?_⟩
              rcases gave with apart | said
              · exact .inr ⟨error, rfl, apart⟩
              · exact .inl said
          | ok ended =>
              cases ended with
              | answered held => exact ⟨rfl, asked, .inl gave⟩
              | tooBig need =>
                  dsimp only
                  split
                  · exact ⟨rfl, asked, .inr ⟨_, rfl, apart_other _⟩⟩
                  · rw [safe_bind, safe_modify]
                    refine (ih asked.sound (.inl asked.last.symm) (.inr asked.last.symm)).mono ?_
                    intro answer kept after known
                    exact ⟨known.1, asked.trans known.2.1, known.2.2⟩

/-- What an answer says about the virtual functions. -/
def vfsOf : Except IoError (Option (List UInt8)) → Except IoError (List VfInfo)
  | .ok (some payload) => .ok (collectVfInfo payload [])
  | .ok none => .ok []
  | .error error => if error = .os enodev then .ok [] else .error error

theorem vfInfoOf_wired (step : InStep socket wire) (room : wire.last.toNat + 1 < 2 ^ 32) (index : Index) :
    Safe wired (Socket.vfInfoOf index) (fun told left after => InStep left after ∧
      Asked wire (socket.seq + 1) after ∧
        ∃ answer, Heard after rtmNewLink (socket.seq + 1) answer ∧ told = vfsOf answer) socket wire := by
  have next : (socket.seq + 1).toNat = wire.last.toNat + 1 := by
    rw [step.current]
    exact toNat_succ room
  unfold Socket.vfInfoOf
  rw [safe_bind, safe_modify, safe_bind, safe_get, safe_bind, Socket.takeBuf, safe_modify, safe_bind]
  refine (requestOneGrown_wired step.sound (vfRequest_asks index _) (.inr next) rtmNewLink attempts
    (.inl (by decide))).mono ?_
  intro answer left after known
  obtain ⟨kept, asked, heard⟩ := known
  have done : InStep left after := ⟨kept.trans asked.last.symm, asked.sound⟩
  cases answer with
  | error error =>
      refine ⟨done, asked, .error error, heard, ?_⟩
      rfl
  | ok held =>
      cases held with
      | none => exact ⟨done, asked, .ok none, heard, rfl⟩
      | some payload => exact ⟨done, asked, .ok (some payload), heard, rfl⟩

end Questions

section Dumps

variable {socket : Socket} {wire : Wire}

/-- A read for a dump is a read into the socket's own buffer. -/
theorem safe_recv {env : Environment SocketCall SocketReply Wire} {wait : Bool} {spoofs : Nat}
    {post : Except IoError (List UInt8) → Socket → Wire → Prop} :
    Safe env (Socket.recv wait spoofs) post socket wire ↔
      Safe env (Socket.recvInto socket.capacity wait spoofs) post socket wire := by
  induction spoofs generalizing wait wire with
  | zero => rfl
  | succ spoofs ih =>
      unfold Socket.recv Socket.recvInto
      rw [safe_bind, safe_get, safe_bind, safe_bind, safe_ask, safe_ask]
      refine and_congr Iff.rfl (forall_congr' fun got => forall_congr' fun after => imp_congr Iff.rfl ?_)
      cases got with
      | error error => rfl
      | ok datagram =>
          dsimp only
          split
          · exact ih
          · rfl

variable {T : Type} (parse : List UInt8 → List T → List T) (want : UInt16)

theorem runDump_wired (seq : UInt32) (looks : Nat) (out : List T) :
    Safe wired (Socket.runDump parse want seq looks out) (fun _ left after => left = socket ∧ Waited wire after)
      socket wire := by
  induction looks generalizing wire out with
  | zero => exact ⟨rfl, .refl⟩
  | succ looks ih =>
      refine safe_bind.mpr (safe_get.mpr (safe_bind.mpr (safe_recv.mpr ((recvInto_wired _ true 64).mono ?_))))
      intro got left after known
      obtain ⟨rfl, waited, _, _⟩ := known
      have again : ∀ out, Safe wired (Socket.runDump parse want seq looks out)
          (fun _ kept later => kept = left ∧ Waited wire later) left after := by
        intro out
        refine (ih out).mono ?_
        intro _ kept later known
        exact ⟨known.1, waited.trans known.2⟩
      cases got with
      | error error =>
          cases error with
          | wouldBlock => exact again out
          | os code => exact ⟨rfl, waited⟩
          | timedOut text => exact ⟨rfl, waited⟩
          | other text => exact ⟨rfl, waited⟩
      | ok datagram =>
          dsimp only
          split
          · exact ⟨rfl, waited⟩
          · generalize Socket.walk parse want seq (messages datagram) out = walked
            obtain ⟨ended, out⟩ := walked
            cases ended with
            | none => exact again out
            | some ended => exact ⟨rfl, waited⟩

theorem drain_wired : Safe wired (ask .drain) (fun _ left after => left = socket ∧ Waited wire after)
    socket wire := by
  refine safe_ask.mpr ⟨trivial, ?_⟩
  intro _ drained answered
  obtain ⟨later, meanwhile, rfl⟩ := answered
  exact ⟨rfl, meanwhile.waited.trans waited_drained⟩

/-- A dump is a run of questions. -/
theorem dumpAttempts_wired (step : InStep socket wire) {request : List UInt8} (asks : NoWrite request)
    (what : String) (left : Nat) (room : wire.last.toNat + left < 2 ^ 32) :
    Safe wired (Socket.dumpAttempts parse want request what left) (fun _ kept after => InStep kept after ∧
      after.last.toNat ≤ wire.last.toNat + left ∧ Asked wire after.last after) socket wire := by
  induction left generalizing socket wire with
  | zero => exact ⟨step, le_rfl, step.sound, rfl, rfl, List.Subset.refl _⟩
  | succ left ih =>
      have next : (socket.seq + 1).toNat = wire.last.toNat + 1 := by
        rw [step.current]
        exact toNat_succ (by omega)
      have ended : ∀ {kept : Socket} {after : Wire}, kept.seq = socket.seq + 1 →
          Asked wire (socket.seq + 1) after → InStep kept after ∧
            after.last.toNat ≤ wire.last.toNat + (left + 1) ∧ Asked wire after.last after := by
        intro kept after current asked
        refine ⟨⟨current.trans asked.last.symm, asked.sound⟩, ?_, asked.last ▸ asked⟩
        rw [asked.last, next]
        omega
      have again : ∀ {kept : Socket} {after : Wire}, kept.seq = socket.seq + 1 →
          Asked wire (socket.seq + 1) after →
            Safe wired (Socket.dumpAttempts parse want request what left) (fun _ kept after => InStep kept after ∧
              after.last.toNat ≤ wire.last.toNat + (left + 1) ∧ Asked wire after.last after) kept after := by
        intro kept after current asked
        have room' : after.last.toNat + left < 2 ^ 32 := by
          rw [asked.last, next]
          omega
        refine (ih ⟨current.trans asked.last.symm, asked.sound⟩ room').mono ?_
        intro _ later last known
        refine ⟨known.1, known.2.1.trans ?_, asked.trans known.2.2⟩
        rw [asked.last, next]
        omega
      unfold Socket.dumpAttempts
      rw [safe_bind, safe_modify, safe_bind, safe_get, safe_bind]
      refine (sendQuestion_wired step.sound asks (.inr next)).mono ?_
      intro sent kept after known
      obtain ⟨rfl, asked, _⟩ := known
      cases sent with
      | error error => exact ended rfl asked
      | ok =>
          dsimp only
          rw [safe_bind]
          refine safe_ask.mpr ⟨trivial, ?_⟩
          intro looks waiting answered
          obtain ⟨later, meanwhile, rfl⟩ := answered
          have asked := asked.waited meanwhile.waited
          rw [safe_bind]
          refine (runDump_wired parse want _ looks []).mono ?_
          intro ran kept after known
          obtain ⟨rfl, waited⟩ := known
          have asked := asked.waited waited
          obtain ⟨outcome, out⟩ := ran
          cases outcome with
          | error error =>
              refine safe_bind.mpr (drain_wired.mono ?_)
              intro _ kept after known
              obtain ⟨rfl, drained⟩ := known
              exact ended rfl (asked.waited drained)
          | ok outcome =>
              cases outcome with
              | done => exact ended rfl asked
              | interrupted =>
                  refine safe_bind.mpr (drain_wired.mono ?_)
                  intro _ kept after known
                  obtain ⟨rfl, drained⟩ := known
                  exact again rfl (asked.waited drained)
              | tooBig need =>
                  refine safe_bind.mpr (drain_wired.mono ?_)
                  intro _ kept after known
                  obtain ⟨rfl, drained⟩ := known
                  split
                  · exact ended rfl (asked.waited drained)
                  · rw [safe_bind, safe_modify]
                    exact again rfl (asked.waited drained)

end Dumps

end SriovMacSync.Netlink
