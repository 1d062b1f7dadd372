import SriovMacSync.Netlink.Orders

namespace SriovMacSync.Netlink

open Data Interaction Interaction.Action

/-! # An answer is to its own request

A filter write that is answered with success was carried out by the kernel, under this
number and during this call, whatever else is queued on the socket.  One that is answered
with a code was refused with it. -/

section Sound

variable {wire after : Wire}

/-- Whatever is queued was said about a number that was used, and what was said about an
order acknowledges it. -/
structure Wire.Sound (wire : Wire) : Prop where
  queued : ∀ datagram ∈ wire.queue, ∃ number, (number, datagram) ∈ wire.told
  about : ∀ said ∈ wire.told, About said
  answers : ∀ said ∈ wire.told, said.1 ∈ wire.questions ∨
    ∃ entry ∈ wire.log, entry.number = said.1 ∧ Acknowledges said.1 entry.outcome said.2
  questions : ∀ number ∈ wire.questions, number.toNat ≤ wire.last.toNat
  log : ∀ entry ∈ wire.log, entry.number.toNat ≤ wire.last.toNat

/-- What a socket that only looks and waits leaves as it was. -/
structure Waited (wire after : Wire) : Prop where
  sound : wire.Sound → after.Sound
  log : after.log = wire.log
  last : after.last = wire.last
  questions : after.questions = wire.questions
  told : wire.told ⊆ after.told

theorem Waited.refl : Waited wire wire := ⟨id, rfl, rfl, rfl, List.Subset.refl _⟩

theorem Waited.trans {middle : Wire} (first : Waited wire middle) (second : Waited middle after) :
    Waited wire after :=
  ⟨second.sound ∘ first.sound, second.log.trans first.log, second.last.trans first.last,
    second.questions.trans first.questions, List.Subset.trans first.told second.told⟩

theorem Meanwhile.waited (meanwhile : Meanwhile wire after) : Waited wire after := by
  obtain ⟨more, queue, told, about⟩ := meanwhile.more
  refine ⟨fun sound => ?_, meanwhile.log, meanwhile.last, meanwhile.questions, by simp [told]⟩
  refine ⟨?_, ?_, ?_, ?_, ?_⟩
  · intro datagram member
    rw [queue, List.mem_append] at member
    rw [told]
    rcases member with earlier | later
    · obtain ⟨number, said⟩ := sound.queued datagram earlier
      exact ⟨number, List.mem_append_left _ said⟩
    · obtain ⟨said, listed, rfl⟩ := List.mem_map.mp later
      exact ⟨said.1, List.mem_append_right _ listed⟩
  · intro said member
    rw [told, List.mem_append] at member
    rcases member with earlier | later
    · exact sound.about said earlier
    · exact (about said later).2
  · intro said member
    rw [told, List.mem_append] at member
    rw [meanwhile.questions, meanwhile.log]
    rcases member with earlier | later
    · exact sound.answers said earlier
    · exact .inl (about said later).1
  · rw [meanwhile.questions, meanwhile.last]
    exact sound.questions
  · rw [meanwhile.log, meanwhile.last]
    exact sound.log

theorem Received.waited {got : Except IoError Datagram} (received : Received wire got after) :
    Waited wire after := by
  cases received with
  | kernel queued =>
      refine ⟨fun sound => ?_, rfl, rfl, rfl, List.Subset.refl _⟩
      refine { sound with queued := fun datagram member => sound.queued datagram ?_ }
      rw [queued]
      exact List.mem_cons_of_mem _ member
  | foreign => exact .refl
  | failed => exact .refl

theorem waited_drained : Waited wire { wire with queue := [] } :=
  ⟨fun sound => { sound with queued := fun _ member => absurd member List.not_mem_nil }, rfl, rfl, rfl,
    List.Subset.refl _⟩

/-- What a wire on which a request was sent is like. -/
theorem Sent.sound {number : UInt32} {request : List UInt8} {reply : Except IoError Nat}
    (sent : Sent wire number request reply after) (sound : wire.Sound)
    (ascending : wire.last.toNat ≤ number.toNat) : after.Sound := by
  have asked : ∀ other ∈ wire.questions, other.toNat ≤ number.toNat :=
    fun other member => (sound.questions other member).trans ascending
  have logged : ∀ entry ∈ wire.log, entry.number.toNat ≤ number.toNat :=
    fun entry member => (sound.log entry member).trans ascending
  cases sent with
  | failed => exact ⟨sound.queued, sound.about, sound.answers, asked, logged⟩
  | @order msg order outcome lists queued read ordered carried acknowledged =>
      have answered : ∀ datagram ∈ queued, Acknowledges number outcome datagram := by
        intro datagram member
        rcases acknowledged with rfl | ⟨only, rfl, acks⟩
        · exact absurd member List.not_mem_nil
        · rwa [List.mem_singleton.mp member]
      refine ⟨?_, ?_, ?_, asked, ?_⟩
      · intro datagram member
        rcases List.mem_append.mp member with earlier | later
        · obtain ⟨other, said⟩ := sound.queued datagram earlier
          exact ⟨other, List.mem_append_left _ said⟩
        · exact ⟨number, List.mem_append_right _ (List.mem_map_of_mem later)⟩
      · intro said member
        rcases List.mem_append.mp member with earlier | later
        · exact sound.about said earlier
        · obtain ⟨datagram, listed, rfl⟩ := List.mem_map.mp later
          obtain ⟨flags, echo, short, rfl⟩ := answered datagram listed
          intro msg read
          rw [messages_encodeMessages (by simp [Message.Fits, nlmsgHdr]; omega)] at read
          rw [List.mem_singleton.mp read]
      · intro said member
        rcases List.mem_append.mp member with earlier | later
        · rcases sound.answers said earlier with question | ⟨entry, listed, same⟩
          · exact .inl question
          · exact .inr ⟨entry, List.mem_append_left _ listed, same⟩
        · obtain ⟨datagram, listed, rfl⟩ := List.mem_map.mp later
          exact .inr ⟨⟨number, order, outcome, wire.lists, lists, carried⟩, by simp, rfl,
            answered datagram listed⟩
      · intro entry member
        rcases List.mem_append.mp member with earlier | later
        · exact logged entry earlier
        · rw [List.mem_singleton.mp later]
  | @question queued unordered about =>
      refine ⟨?_, ?_, ?_, ?_, logged⟩
      · intro datagram member
        rcases List.mem_append.mp member with earlier | later
        · obtain ⟨other, said⟩ := sound.queued datagram earlier
          exact ⟨other, List.mem_append_left _ said⟩
        · exact ⟨number, List.mem_append_right _ (List.mem_map_of_mem later)⟩
      · intro said member
        rcases List.mem_append.mp member with earlier | later
        · exact sound.about said earlier
        · obtain ⟨datagram, listed, rfl⟩ := List.mem_map.mp later
          exact about datagram listed
      · intro said member
        rcases List.mem_append.mp member with earlier | later
        · rcases sound.answers said earlier with question | entry
          · exact .inl (Finset.mem_insert_of_mem question)
          · exact .inr entry
        · obtain ⟨datagram, listed, rfl⟩ := List.mem_map.mp later
          exact .inl (Finset.mem_insert_self number wire.questions)
      · intro other member
        rcases Finset.mem_insert.mp member with rfl | earlier
        · exact le_rfl
        · exact asked other earlier

end Sound

section Acks

/-- What an acknowledged outcome is to the program. -/
def errorOf : Except Nat Unit → Option IoError
  | .ok () => none
  | .error code => some (.os code)

def answerOf (outcome : Except Nat Unit) : Except IoError Unit :=
  match errorOf outcome with
  | none => .ok ()
  | some error => .error error

theorem nlmsgError_codeOf {order : Order} {before lists : Lists} {outcome : Except Nat Unit}
    (carried : Carried order before outcome lists) (echo : List UInt8) :
    nlmsgError (bytesOf 4 (codeOf outcome) ++ echo) = errorOf outcome := by
  have long : ¬ (bytesOf 4 (codeOf outcome) ++ echo).length < 4 := by simp
  rw [nlmsgError, if_neg long]
  cases carried with
  | added => rw [field_bytesOf (by decide)]; rfl
  | removed => rw [field_bytesOf (by decide)]; rfl
  | @refused code positive small =>
      have value : codeOf (.error code) = 2 ^ 32 - code := rfl
      rw [value, field_bytesOf (by omega)]
      dsimp only
      rw [if_neg (by omega), if_neg (by omega), Nat.min_eq_left (by omega),
        show 2 ^ 32 - (2 ^ 32 - code) = code by omega]
      rfl

/-- The acknowledgement of an order says what came of it. -/
theorem ackIn_acknowledges {entry : Entry} {number : UInt32} {datagram : List UInt8}
    (acks : Acknowledges number entry.outcome datagram) :
    ackIn number (messages (datagram.take Socket.ackBuffer)) = some (answerOf entry.outcome) := by
  obtain ⟨flags, echo, short, rfl⟩ := acks
  have small : (encodeMessages
      [⟨nlmsgErrorKind, flags, number, bytesOf 4 (codeOf entry.outcome) ++ echo⟩]).length ≤
        Socket.ackBuffer := by
    rw [encodeMessages, List.flatMap_singleton, length_padded, Message.length_record]
    simp only [List.length_append, length_bytesOf, nlmsgHdr, align4, Socket.ackBuffer]
    omega
  rw [List.take_of_length_le small, messages_encodeMessages (by simp [Message.Fits, nlmsgHdr]; omega),
    ackIn, if_neg (by simp), if_pos rfl, if_neg (by simp), nlmsgError_codeOf entry.carried, answerOf]
  cases errorOf entry.outcome <;> rfl

theorem ackIn_foreign {number : UInt32} {msgs : List Message} (foreign : ∀ msg ∈ msgs, msg.seq ≠ number) :
    ackIn number msgs = none := by
  induction msgs with
  | nil => rfl
  | cons msg rest ih =>
      rw [ackIn, if_pos (foreign msg List.mem_cons_self)]
      exact ih fun other member => foreign other (List.mem_cons_of_mem _ member)

/-- An order no other entry of the log has the number of, and no question. -/
structure Own (wire : Wire) (entry : Entry) : Prop where
  listed : entry ∈ wire.log
  unasked : entry.number ∉ wire.questions
  alone : ∀ other ∈ wire.log, other.number = entry.number → other = entry

/-- Whatever is queued answers an order as it was answered, or is about something else. -/
theorem ackIn_queued {wire : Wire} {entry : Entry} {datagram : List UInt8} (sound : wire.Sound)
    (own : Own wire entry) (queued : datagram ∈ wire.queue) :
    ackIn entry.number (messages (datagram.take Socket.ackBuffer)) = none ∨
      ackIn entry.number (messages (datagram.take Socket.ackBuffer)) = some (answerOf entry.outcome) := by
  obtain ⟨number, said⟩ := sound.queued datagram queued
  by_cases same : number = entry.number
  · rw [same] at said
    rcases sound.answers _ said with question | ⟨other, listed, named, acks⟩
    · exact absurd question own.unasked
    · rw [own.alone other listed named] at acks
      exact .inr (ackIn_acknowledges acks)
  · refine .inl (ackIn_foreign fun msg member => ?_)
    rw [sound.about _ said msg ((messages_take_before datagram _).mem member)]
    exact same

theorem Own.waited {wire after : Wire} {entry : Entry} (own : Own wire entry) (waited : Waited wire after) :
    Own after entry where
  listed := by rw [waited.log]; exact own.listed
  unasked := by rw [waited.questions]; exact own.unasked
  alone := by rw [waited.log]; exact own.alone

end Acks

section Sockets

variable {socket : Socket} {wire : Wire}

theorem apart_other (text : String) : Apart (.other text) := by simp [Apart]

theorem apart_timedOut (text : String) : Apart (.timedOut text) := by simp [Apart]

theorem apart_wouldBlock : Apart .wouldBlock := by simp [Apart]

theorem recvInto_wired (capacity : Nat) (wait : Bool) (spoofs : Nat) :
    Safe wired (Socket.recvInto capacity wait spoofs) (fun got left after =>
      left = socket ∧ Waited wire after ∧
        (∀ bytes, got = .ok bytes → ∃ middle, Waited wire middle ∧ bytes ∈ middle.queue ∧ Waited middle after) ∧
        ∀ error, got = .error error → Apart error) socket wire := by
  induction spoofs generalizing wait wire with
  | zero =>
      refine ⟨rfl, .refl, fun _ got => (by cases got), fun error got => ?_⟩
      cases got
      exact apart_wouldBlock
  | succ spoofs ih =>
      refine safe_bind.mpr (safe_ask.mpr ⟨trivial, ?_⟩)
      intro got after answered
      obtain ⟨later, meanwhile, received⟩ := answered
      have waited := meanwhile.waited.trans received.waited
      cases received with
      | @kernel bytes rest queued =>
          refine ⟨rfl, waited, ?_, fun _ got => (by cases got)⟩
          intro read got
          cases got
          exact ⟨later, meanwhile.waited, by rw [queued]; exact List.mem_cons_self, (Received.kernel queued).waited⟩
      | @foreign datagram port =>
          simp only [if_pos port]
          refine (ih false).mono ?_
          intro got left after known
          obtain ⟨same, more, read, failed⟩ := known
          refine ⟨same, waited.trans more, ?_, failed⟩
          intro bytes ok
          obtain ⟨middle, first, queued⟩ := read bytes ok
          exact ⟨middle, waited.trans first, queued⟩
      | failed apart =>
          refine ⟨rfl, waited, fun _ got => (by cases got), fun error got => ?_⟩
          cases got
          exact apart

theorem awaitAck_wired {entry : Entry} (sound : wire.Sound) (own : Own wire entry) (looks : Nat) :
    Safe wired (Socket.awaitAck entry.number looks) (fun answer left after =>
      left = socket ∧ Waited wire after ∧
        (answer = answerOf entry.outcome ∨ ∃ error, answer = .error error ∧ Apart error)) socket wire := by
  induction looks generalizing wire with
  | zero => exact ⟨rfl, .refl, .inr ⟨_, rfl, apart_timedOut _⟩⟩
  | succ looks ih =>
      refine safe_bind.mpr ((recvInto_wired _ true 64).mono ?_)
      intro got left after known
      obtain ⟨rfl, waited, read, failed⟩ := known
      have again := (ih (waited.sound sound) (own.waited waited)).mono fun answer left later known =>
        (⟨known.1, waited.trans known.2.1, known.2.2⟩ : left = _ ∧ Waited wire later ∧ _)
      cases got with
      | error error =>
          cases error with
          | wouldBlock => exact again
          | os code => exact ⟨rfl, waited, .inr ⟨_, rfl, failed _ rfl⟩⟩
          | timedOut text => exact ⟨rfl, waited, .inr ⟨_, rfl, apart_timedOut text⟩⟩
          | other text => exact ⟨rfl, waited, .inr ⟨_, rfl, apart_other text⟩⟩
      | ok datagram =>
          obtain ⟨middle, first, queued, _⟩ := read datagram rfl
          rcases ackIn_queued (first.sound sound) (own.waited first) queued with none | acked
          · simp only [none]
            exact again
          · simp only [acked]
            exact ⟨rfl, waited, .inl rfl⟩

/-- What handing a request to the kernel comes to. -/
theorem send_wired {number : UInt32} {request : List UInt8}
    (ascending : number = wire.last ∨ number.toNat = wire.last.toNat + 1) :
    Safe wired (Socket.send number request) (fun sent left after => left = socket ∧
      ∃ middle, Waited wire middle ∧ Sent middle number request (sent.map fun _ => request.length) after)
      socket wire := by
  refine safe_bind.mpr (safe_ask.mpr ⟨ascending, ?_⟩)
  intro reply after answered
  obtain ⟨middle, meanwhile, sent⟩ := answered
  cases sent with
  | failed apart => exact ⟨rfl, middle, meanwhile.waited, .failed apart⟩
  | order read ordered carried acknowledged =>
      simp only [ne_eq, not_true_eq_false, if_false]
      exact ⟨rfl, middle, meanwhile.waited, .order read ordered carried acknowledged⟩
  | question unordered about =>
      simp only [ne_eq, not_true_eq_false, if_false]
      exact ⟨rfl, middle, meanwhile.waited, .question unordered about⟩

end Sockets

end SriovMacSync.Netlink
