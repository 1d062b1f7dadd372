import Mathlib.Data.List.ReduceOption
import SriovMacSync.Netlink.Sessions

namespace SriovMacSync.Netlink

open Data Interaction Interaction.Action

/-! # What a socket was told, over its whole life

Every write that was answered came to what its answer says, once, and every question was
answered with what the kernel said to it, whatever was given up before. -/

variable {socket left : Socket} {wire after : Wire}

/-- The life of a socket: the writes it was used for, each with its answer, among questions
and dumps.  The numbers do not come round. -/
inductive Life : List (Order × Except IoError Unit) → Socket → Wire → Prop where
  | opened (lists : Lists) : Life [] ⟨1, 0⟩ { lists, last := 1 }
  | wrote {writes : List (Order × Except IoError Unit)} {socket left : Socket} {wire after : Wire}
      {index : Index} {mac : Mac} {add : Bool} {answer : Except IoError Unit}
      (life : Life writes socket wire) (room : wire.last.toNat + 1 < 2 ^ 32) (valid : Valid index)
      (ran : Runs wired (Socket.setSelfFdb index mac add) socket wire answer left after) :
      Life (writes ++ [(⟨index, mac, add⟩, answer)]) left after
  | asked {writes : List (Order × Except IoError Unit)} {socket left : Socket} {wire after : Wire}
      {index : Index} {told : Except IoError (List VfInfo)}
      (life : Life writes socket wire) (room : wire.last.toNat + 1 < 2 ^ 32)
      (ran : Runs wired (Socket.vfInfoOf index) socket wire told left after) : Life writes left after
  | dumped {writes : List (Order × Except IoError Unit)} {socket left : Socket} {wire after : Wire}
      {T : Type} {parse : List UInt8 → List T → List T} {want : UInt16} {request : List UInt8}
      {what : String} {out : Except IoError (List T)}
      (life : Life writes socket wire) (room : wire.last.toNat + attempts < 2 ^ 32)
      (asks : request = linkDumpRequest ∨ request = fdbRequest ∨ ∃ index, request = fdbOfRequest index)
      (ran : Runs wired (Socket.dump parse want request what) socket wire out left after) :
      Life writes left after

/-- What a write's answer says of what the kernel made of it. -/
def Truly (write : Order × Except IoError Unit) : Option Entry → Prop
  /- the kernel never got it, and the answer is none of its codes -/
  | none => ∃ error, write.2 = .error error ∧ Apart error
  | some entry => entry.order = write.1 ∧
      (write.2 = answerOf entry.outcome ∨ ∃ error, write.2 = .error error ∧ Apart error)

theorem dump_wired {T : Type} (parse : List UInt8 → List T → List T) (want : UInt16) {request : List UInt8}
    (what : String) (step : InStep socket wire) (asks : NoWrite request)
    (room : wire.last.toNat + attempts < 2 ^ 32) :
    Safe wired (Socket.dump parse want request what) (fun _ left after =>
      InStep left after ∧ after.log = wire.log) socket wire := by
  unfold Socket.dump
  rw [safe_bind, Socket.takeBuf, safe_modify]
  have step : InStep { socket with capacity := max socket.capacity (64 * 1024) } wire := ⟨step.current, step.sound⟩
  refine (dumpAttempts_wired parse want step asks what attempts room).mono ?_
  intro _ left after known
  exact ⟨known.1, known.2.2.log⟩

theorem dumpRequest_asks {request : List UInt8}
    (which : request = linkDumpRequest ∨ request = fdbRequest ∨ ∃ index, request = fdbOfRequest index) :
    NoWrite request := by
  rcases which with rfl | rfl | ⟨index, rfl⟩
  · exact linkDumpRequest_asks
  · exact fdbRequest_asks
  · exact fdbOfRequest_asks index

theorem Life.inStep {writes : List (Order × Except IoError Unit)} (life : Life writes socket wire) :
    InStep socket wire := by
  induction life with
  | opened lists =>
      refine ⟨rfl, ⟨?_, ?_, ?_, ?_, ?_⟩⟩ <;> simp
  | wrote _ room valid ran ih => exact ((setSelfFdb_wired ih room valid _ _).runs ran).1
  | asked _ room ran ih => exact ((vfInfoOf_wired ih room _).runs ran).1
  | dumped _ room asks ran ih => exact ((dump_wired _ _ _ ih (dumpRequest_asks asks) room).runs ran).1

/-- Each write of a socket's life has at most one entry in the kernel's log and each entry
is of one write, in their order, and every answer is true of its own. -/
theorem writes_answered_truly {writes : List (Order × Except IoError Unit)} (life : Life writes socket wire) :
    ∃ entries : List (Option Entry), wire.log = entries.reduceOption ∧ List.Forall₂ Truly writes entries := by
  induction life with
  | opened => exact ⟨[], rfl, .nil⟩
  | wrote life room valid ran ih =>
      obtain ⟨entries, log, truly⟩ := ih
      have answered := ((setSelfFdb_wired life.inStep room valid _ _).runs ran).2.2
      cases answered with
      | unsent apart same =>
          refine ⟨entries ++ [none], ?_, List.rel_append truly (.cons ⟨_, rfl, apart⟩ .nil)⟩
          rw [same, log, List.reduceOption_append]
          simp
      | @told entry grown named =>
          refine ⟨entries ++ [some entry], ?_, List.rel_append truly (.cons ⟨named, .inl rfl⟩ .nil)⟩
          rw [grown, log, List.reduceOption_append]
          simp
      | @untold error entry apart grown named =>
          refine ⟨entries ++ [some entry], ?_,
            List.rel_append truly (.cons ⟨named, .inr ⟨error, rfl, apart⟩⟩ .nil)⟩
          rw [grown, log, List.reduceOption_append]
          simp
  | asked life room ran ih =>
      rw [((vfInfoOf_wired life.inStep room _).runs ran).2.1.log]
      exact ih
  | dumped life room asks ran ih =>
      rw [((dump_wired _ _ _ life.inStep (dumpRequest_asks asks) room).runs ran).2]
      exact ih

section Late

/-! A write is given up before its acknowledgement comes; the next one finds both. -/

def earlyOrder : Order := ⟨3, ⟨2, 0, 0, 0, 0, 1⟩, true⟩
def lateOrder : Order := ⟨3, ⟨2, 0, 0, 0, 0, 2⟩, true⟩

def carryOut (order : Order) (lists : Lists) : Lists :=
  Function.update lists order.index (insert order.mac (lists order.index))

def noLists : Lists := fun _ => ∅

def earlyEntry : Entry :=
  ⟨2, earlyOrder, .ok (), noLists, carryOut earlyOrder noLists, .added rfl (by simp [noLists])⟩

def lateEntry : Entry :=
  ⟨3, lateOrder, .ok (), carryOut earlyOrder noLists, carryOut lateOrder (carryOut earlyOrder noLists),
    .added rfl (by simp [carryOut, noLists, earlyOrder, lateOrder])⟩

def ackOf (number : UInt32) : List UInt8 := encodeMessages [⟨nlmsgErrorKind, 0, number, bytesOf 4 0⟩]

def earlyWire : Wire where
  lists := carryOut earlyOrder noLists
  queue := [ackOf 2]
  log := [earlyEntry]
  last := 2
  told := [(2, ackOf 2)]

/-- Both acknowledgements, of which the first is still to be read. -/
def crossedWire (queue : List (List UInt8)) : Wire where
  lists := lateEntry.after
  queue
  log := [earlyEntry, lateEntry]
  last := 3
  told := [(2, ackOf 2), (3, ackOf 3)]

theorem meanwhile_still (wire : Wire) : Meanwhile wire wire := ⟨rfl, rfl, rfl, [], by simp, by simp, by simp⟩

theorem acknowledges_ackOf (number : UInt32) : Acknowledges number (.ok ()) (ackOf number) :=
  ⟨0, [], by simp, rfl⟩

theorem runs_sent {number : UInt32} {request : List UInt8} {socket : Socket} {wire after : Wire}
    (ascending : Sent wire number request (.ok request.length) after) :
    Runs wired (Socket.send number request) socket wire (.ok ()) socket after := by
  refine runs_bind.mpr ⟨.ok request.length, socket, after, runs_ask.mpr ⟨⟨wire, meanwhile_still wire, ascending⟩, rfl⟩, ?_⟩
  simp

theorem valid_three : Valid 3 := ⟨by decide, by decide⟩

def freshWire : Wire where
  lists := noLists
  last := 1

theorem runs_setSelfFdb {index : Index} {mac : Mac} {add : Bool} {capacity : Nat} {number : UInt32}
    {left : Socket} {wire middle after : Wire} {answer : Except IoError Unit} (looks : Nat)
    (sent : Sent wire (number + 1) (setRequest index mac add (number + 1)) (.ok (setRequest index mac add (number + 1)).length) middle)
    (ran : Runs wired (Socket.awaitAck (number + 1) looks) ⟨number + 1, capacity⟩ middle answer left after) :
    Runs wired (Socket.setSelfFdb index mac add) ⟨number, capacity⟩ wire answer left after := by
  refine runs_bind.mpr ⟨PUnit.unit, ⟨number + 1, capacity⟩, wire, runs_modify.mpr ⟨rfl, rfl⟩, ?_⟩
  refine runs_bind.mpr ⟨_, _, _, runs_get.mpr ⟨rfl, rfl, rfl⟩, ?_⟩
  refine runs_bind.mpr ⟨_, _, _, runs_sent sent, ?_⟩
  exact runs_bind.mpr ⟨looks, _, _, runs_ask.mpr ⟨⟨_, meanwhile_still _, rfl⟩, rfl⟩, ran⟩

theorem early_given_up : Runs wired (Socket.setSelfFdb 3 earlyOrder.mac true) ⟨1, 0⟩ freshWire
    (.error (.timedOut "no answer from the kernel in time")) ⟨2, 0⟩ earlyWire := by
  obtain ⟨msg, read, ordered⟩ := setRequest_read valid_three earlyOrder.mac true 2
  have sent : Sent freshWire 2 (setRequest 3 earlyOrder.mac true 2) (.ok _) earlyWire :=
    @Sent.order freshWire 2 _ msg earlyOrder (.ok ()) _ [ackOf 2] read ordered earlyEntry.carried
      (.inr ⟨ackOf 2, rfl, acknowledges_ackOf 2⟩)
  exact runs_setSelfFdb 0 sent (runs_pure.mpr ⟨rfl, rfl, rfl⟩)

theorem runs_read {wire : Wire} {bytes : List UInt8} {rest : List (List UInt8)} (queued : wire.queue = bytes :: rest)
    {socket : Socket} {capacity : Nat} :
    Runs wired (Socket.recvInto capacity true 64) socket wire (.ok bytes) socket { wire with queue := rest } := by
  refine runs_bind.mpr ⟨.ok ⟨0, bytes⟩, _, _, runs_ask.mpr ⟨⟨wire, meanwhile_still wire, .kernel queued⟩, rfl⟩, ?_⟩
  exact runs_pure.mpr ⟨rfl, rfl, rfl⟩

/-- A look for an acknowledgement: one that was read ends it, anything else is passed over. -/
theorem runs_awaitAck {wire after : Wire} {bytes : List UInt8} {rest : List (List UInt8)} {socket left : Socket}
    {number : UInt32} {looks : Nat} {answer : Except IoError Unit} (queued : wire.queue = bytes :: rest)
    (looked : (ackIn number (messages (bytes.take Socket.ackBuffer)) = none ∧
        Runs wired (Socket.awaitAck number looks) socket { wire with queue := rest } answer left after) ∨
      ackIn number (messages (bytes.take Socket.ackBuffer)) = some answer ∧ left = socket ∧
        after = { wire with queue := rest }) :
    Runs wired (Socket.awaitAck number (looks + 1)) socket wire answer left after := by
  refine runs_bind.mpr ⟨_, _, _, runs_read queued, ?_⟩
  rcases looked with ⟨foreign, ran⟩ | ⟨own, rfl, rfl⟩
  · simp only [foreign]
    exact ran
  · simp only [own]
    exact runs_pure.mpr ⟨rfl, rfl, rfl⟩

theorem late_answered : Runs wired (Socket.setSelfFdb 3 lateOrder.mac true) ⟨2, 0⟩ earlyWire (.ok ()) ⟨3, 0⟩
    (crossedWire []) := by
  obtain ⟨msg, read, ordered⟩ := setRequest_read valid_three lateOrder.mac true 3
  have sent : Sent earlyWire 3 (setRequest 3 lateOrder.mac true 3) (.ok _) (crossedWire [ackOf 2, ackOf 3]) :=
    @Sent.order earlyWire 3 _ msg lateOrder (.ok ()) _ [ackOf 3] read ordered lateEntry.carried
      (.inr ⟨ackOf 3, rfl, acknowledges_ackOf 3⟩)
  have foreign : ackIn 3 (messages ((ackOf 2).take Socket.ackBuffer)) = none := by
    apply ackIn_foreign
    intro msg member
    have listed := (messages_take_before (ackOf 2) Socket.ackBuffer).mem member
    rw [ackOf, messages_encodeMessages (by simp [Message.Fits, nlmsgHdr])] at listed
    rw [List.mem_singleton.mp listed]
    decide
  have own : ackIn 3 (messages ((ackOf 3).take Socket.ackBuffer)) = some (.ok ()) :=
    @ackIn_acknowledges lateEntry 3 (ackOf 3) (acknowledges_ackOf 3)
  refine runs_setSelfFdb 2 sent ?_
  exact runs_awaitAck rfl (.inl ⟨foreign, runs_awaitAck rfl (.inr ⟨own, rfl, rfl⟩)⟩)

theorem lateLife : Life [(earlyOrder, .error (.timedOut "no answer from the kernel in time")), (lateOrder, .ok ())]
    ⟨3, 0⟩ (crossedWire []) :=
  .wrote (.wrote (.opened noLists) (by decide) valid_three early_given_up) (by decide) valid_three late_answered

theorem writes_answered_truly_late : ∃ entries : List (Option Entry),
    (crossedWire []).log = entries.reduceOption ∧ List.Forall₂ Truly
      [(earlyOrder, .error (.timedOut "no answer from the kernel in time")), (lateOrder, .ok ())] entries :=
  writes_answered_truly lateLife

end Late

section Unanswered

/-! A question is given up before its answer comes; the next one finds both. -/

/-- A link's message with nothing in it about virtual functions. -/
def linkOf (number : UInt32) : List UInt8 :=
  encodeMessages [⟨rtmNewLink, 0, number, putIfinfomsg afUnspec 3⟩]

def askedWire (last : UInt32) (questions : Finset UInt32) (queue : List (List UInt8))
    (told : List (UInt32 × List UInt8)) : Wire :=
  { lists := noLists, queue, last, questions, told }

theorem messages_linkOf (number : UInt32) :
    messages (linkOf number) = [⟨rtmNewLink, 0, number, putIfinfomsg afUnspec 3⟩] := by
  rw [linkOf, messages_encodeMessages]
  intro msg member
  rw [List.mem_singleton.mp member]
  simp [Message.Fits, nlmsgHdr, putIfinfomsg]

theorem about_linkOf (number : UInt32) : About (number, linkOf number) := by
  intro msg member
  rw [messages_linkOf] at member
  rw [List.mem_singleton.mp member]

theorem length_linkOf (number : UInt32) : (linkOf number).length = 32 := by
  rw [linkOf, encodeMessages, List.flatMap_singleton, length_padded, Message.length_record]
  simp [putIfinfomsg, nlmsgHdr, align4]

/-- A question whose first attempt is the last. -/
theorem runs_vfInfoOf {index : Index} {capacity : Nat} {number : UInt32} {wire middle after : Wire}
    {ended : Except IoError (Option (List UInt8))} (looks : Nat)
    (sent : Sent wire (number + 1) (vfRequest index (number + 1)) (.ok (vfRequest index (number + 1)).length) middle)
    (ran : Runs wired (Socket.requestOneInto (number + 1) rtmNewLink looks)
      ⟨number + 1, max capacity (64 * 1024)⟩ middle (ended.map .answered) ⟨number + 1, max capacity (64 * 1024)⟩ after) :
    Runs wired (Socket.vfInfoOf index) ⟨number, capacity⟩ wire (vfsOf ended)
      ⟨number + 1, max capacity (64 * 1024)⟩ after := by
  refine runs_bind.mpr ⟨PUnit.unit, ⟨number + 1, capacity⟩, wire, runs_modify.mpr ⟨rfl, rfl⟩, ?_⟩
  refine runs_bind.mpr ⟨_, _, _, runs_get.mpr ⟨rfl, rfl, rfl⟩, ?_⟩
  refine runs_bind.mpr ⟨PUnit.unit, _, wire, runs_modify.mpr ⟨rfl, rfl⟩, ?_⟩
  refine runs_bind.mpr ⟨ended, ⟨number + 1, max capacity (64 * 1024)⟩, after, ?_, ?_⟩
  · refine runs_bind.mpr ⟨_, _, _, runs_sent sent, ?_⟩
    refine runs_bind.mpr ⟨looks, _, _, runs_ask.mpr ⟨⟨_, meanwhile_still _, rfl⟩, rfl⟩, ?_⟩
    refine runs_bind.mpr ⟨_, _, _, ran, ?_⟩
    cases ended <;> exact runs_pure.mpr ⟨rfl, rfl, rfl⟩
  · cases ended with
    | error error => exact runs_pure.mpr ⟨rfl, rfl, rfl⟩
    | ok held => cases held <;> exact runs_pure.mpr ⟨rfl, rfl, rfl⟩

theorem sentQuestion {wire : Wire} {number : UInt32} (index : Index) :
    Sent wire number (vfRequest index number) (.ok (vfRequest index number).length)
      { wire with
        last := number
        queue := wire.queue ++ [linkOf number]
        questions := insert number wire.questions
        told := wire.told ++ [(number, linkOf number)] } :=
  .question (vfRequest_asks index number number) (by simpa using about_linkOf number)

theorem runs_requestOneInto {wire after : Wire} {bytes : List UInt8} {rest : List (List UInt8)}
    {socket left : Socket} {number : UInt32} {looks : Nat} {answer : Except IoError OneEnd}
    (queued : wire.queue = bytes :: rest) (roomy : bytes.length ≤ socket.capacity)
    (looked : (answerIn rtmNewLink number (messages bytes) = none ∧
        Runs wired (Socket.requestOneInto number rtmNewLink looks) socket { wire with queue := rest } answer left after) ∨
      ∃ held, answerIn rtmNewLink number (messages bytes) = some held ∧ answer = held.map .answered ∧
        left = socket ∧ after = { wire with queue := rest }) :
    Runs wired (Socket.requestOneInto number rtmNewLink (looks + 1)) socket wire answer left after := by
  refine runs_bind.mpr ⟨_, _, _, runs_get.mpr ⟨rfl, rfl, rfl⟩, runs_bind.mpr ⟨_, _, _, runs_read queued, ?_⟩⟩
  dsimp only
  rw [if_neg (by omega)]
  rcases looked with ⟨foreign, ran⟩ | ⟨held, own, rfl, rfl, rfl⟩
  · simp only [foreign]
    exact ran
  · simp only [own]
    exact runs_pure.mpr ⟨rfl, rfl, rfl⟩

theorem early_unanswered : Runs wired (Socket.vfInfoOf 7) ⟨1, 0⟩ freshWire
    (.error (.timedOut "no answer from the kernel in time")) ⟨2, 64 * 1024⟩
    (askedWire 2 {2} [linkOf 2] [(2, linkOf 2)]) :=
  @runs_vfInfoOf 7 0 1 freshWire _ _ (.error (.timedOut "no answer from the kernel in time")) 0
    (sentQuestion 7) (runs_pure.mpr ⟨rfl, rfl, rfl⟩)

def askedTwice (queue : List (List UInt8)) : Wire :=
  askedWire 3 {3, 2} queue [(2, linkOf 2), (3, linkOf 3)]

theorem late_told : Runs wired (Socket.vfInfoOf 3) ⟨2, 64 * 1024⟩ (askedWire 2 {2} [linkOf 2] [(2, linkOf 2)])
    (vfsOf (.ok (some (putIfinfomsg afUnspec 3)))) ⟨3, 64 * 1024⟩ (askedTwice []) := by
  have foreign : answerIn rtmNewLink 3 (messages (linkOf 2)) = none := by
    rw [messages_linkOf]
    decide
  have own : answerIn rtmNewLink 3 (messages (linkOf 3)) = some (.ok (some (putIfinfomsg afUnspec 3))) := by
    rw [messages_linkOf]
    decide
  have roomy : ∀ number, (linkOf number).length ≤ 64 * 1024 := by
    intro number
    rw [length_linkOf]
    omega
  exact @runs_vfInfoOf 3 (64 * 1024) 2 _ (askedTwice [linkOf 2, linkOf 3]) _ (.ok (some (putIfinfomsg afUnspec 3))) 2
    (sentQuestion 3) (runs_requestOneInto rfl (roomy 2) (.inl ⟨foreign, runs_requestOneInto rfl (roomy 3) (.inr ⟨_, own, rfl, rfl, rfl⟩)⟩))

end Unanswered

end SriovMacSync.Netlink
