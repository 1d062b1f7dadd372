import Mathlib.Data.Finset.Basic
import SriovMacSync.Netlink.Requests

namespace SriovMacSync.Netlink

open Data Interaction Interaction.Action

/-! # The kernel at the other end of a socket

What it reads out of a request, what it does to a filter list, and what it queues for the
socket.  What it says is about a request that was made, under its number; an answer may get
lost, other processes write to the lists, and local processes send what they like. -/

def eexist : Nat := 17
def enoent : Nat := 2

/-- What a request wants done to a filter list. -/
structure Order where
  index : Index
  mac : Mac
  add : Bool
deriving DecidableEq, Repr

/-- A write to an interface's own list, as the kernel reads it. -/
def readOrder (msg : Message) : Option Order :=
  if (msg.kind = rtmNewNeigh ∨ msg.kind = rtmDelNeigh) ∧ msg.payload.head? = some afBridge ∧
      ndmsgLen ≤ msg.payload.length ∧ msg.payload.getD 10 0 &&& ntfSelf ≠ 0 then
    match indexAt msg.payload 4, ((attrs (msg.payload.drop ndmsgLen)).lookup ndaLladdr).bind macOf with
    | some index, some mac => some ⟨index, mac, msg.kind = rtmNewNeigh⟩
    | _, _ => none
  else none

/-- The filter list of each interface. -/
abbrev Lists := Index → Finset Mac

/-- What comes of an order: it is carried out, or refused with a code.  An address that is
there already is refused with a code of its own, as is one that is not. -/
inductive Carried (order : Order) (lists : Lists) : Except Nat Unit → Lists → Prop where
  | added (adds : order.add = true) (absent : order.mac ∉ lists order.index) :
      Carried order lists (.ok ())
        (Function.update lists order.index (insert order.mac (lists order.index)))
  | removed (removes : order.add = false) (there : order.mac ∈ lists order.index) :
      Carried order lists (.ok ())
        (Function.update lists order.index ((lists order.index).erase order.mac))
  | refused {code : Nat} (positive : 0 < code) (small : code < 2 ^ 31)
      (present : code = eexist → order.add = true ∧ order.mac ∈ lists order.index)
      (absent : code = enoent → order.add = false ∧ order.mac ∉ lists order.index) :
      Carried order lists (.error code) lists

/-- An order as the kernel came by it, with what it made of the lists. -/
structure Entry where
  number : UInt32
  order : Order
  outcome : Except Nat Unit
  before : Lists
  after : Lists
  carried : Carried order before outcome after

/-- What lies between a socket and the kernel. -/
structure Wire where
  lists : Lists
  /-- the kernel's datagrams the socket has not read -/
  queue : List (List UInt8) := []
  /-- the orders the kernel got -/
  log : List Entry := []
  /-- the number of the last request -/
  last : UInt32
  /-- the numbers of the questions asked -/
  questions : Finset UInt32 := ∅
  /-- everything the kernel said, with the number it was about -/
  told : List (UInt32 × List UInt8) := []

/-- The number is written over the bytes eight to eleven. -/
def numbered (number : UInt32) (request : List UInt8) : List UInt8 :=
  request.take 8 ++ bytesOf 4 number.toNat ++ request.drop 12

/-- The code at the front of an acknowledgement. -/
def codeOf : Except Nat Unit → Nat
  | .ok () => 0
  | .error code => 2 ^ 32 - code

/-- A datagram that acknowledges a number: the code, and what the kernel echoes. -/
def Acknowledges (number : UInt32) (outcome : Except Nat Unit) (datagram : List UInt8) : Prop :=
  ∃ flags echo, echo.length ≤ 8172 ∧ datagram = encodeMessages
    [{ kind := nlmsgErrorKind, flags, seq := number, payload := bytesOf 4 (codeOf outcome) ++ echo }]

/-- A socket fails with none of the codes that are answers. -/
def Apart (error : IoError) : Prop :=
  error ≠ .os eexist ∧ error ≠ .os enoent ∧ error ≠ .os enodev

/-- Every message in what was said is about its number. -/
def About (said : UInt32 × List UInt8) : Prop := ∀ msg ∈ messages said.2, msg.seq = said.1

/-- What may go on while a socket does nothing: others write, and questions are answered on. -/
structure Meanwhile (wire after : Wire) : Prop where
  log : after.log = wire.log
  last : after.last = wire.last
  questions : after.questions = wire.questions
  more : ∃ more, after.queue = wire.queue ++ more.map (·.2) ∧ after.told = wire.told ++ more ∧
    ∀ said ∈ more, said.1 ∈ wire.questions ∧ About said

/-- What comes of a request that was handed to the kernel. -/
inductive Sent (wire : Wire) (number : UInt32) (request : List UInt8) : Except IoError Nat → Wire → Prop where
  /-- it did not go out -/
  | failed {error : IoError} (apart : Apart error) :
      Sent wire number request (.error error) { wire with last := number }
  | order {msg : Message} {order : Order} {outcome : Except Nat Unit} {lists : Lists} {queued : List (List UInt8)}
      (read : messages (numbered number request) = [msg]) (ordered : readOrder msg = some order)
      (carried : Carried order wire.lists outcome lists)
      -- the acknowledgement goes by itself, or gets lost
      (acknowledged : queued = [] ∨ ∃ datagram, queued = [datagram] ∧ Acknowledges number outcome datagram) :
      Sent wire number request (.ok request.length)
        { wire with
          lists, last := number
          queue := wire.queue ++ queued
          log := wire.log ++ [⟨number, order, outcome, wire.lists, lists, carried⟩]
          told := wire.told ++ queued.map (number, ·) }
  | question {queued : List (List UInt8)}
      (unordered : ∀ msg ∈ messages (numbered number request), readOrder msg = none)
      (about : ∀ datagram ∈ queued, About (number, datagram)) :
      Sent wire number request (.ok request.length)
        { wire with
          last := number
          queue := wire.queue ++ queued
          questions := insert number wire.questions
          told := wire.told ++ queued.map (number, ·) }

/-- What a look at the queue gives. -/
inductive Received (wire : Wire) : Except IoError Datagram → Wire → Prop where
  | kernel {bytes : List UInt8} {rest : List (List UInt8)} (queued : wire.queue = bytes :: rest) :
      Received wire (.ok ⟨0, bytes⟩) { wire with queue := rest }
  | foreign {datagram : Datagram} (port : datagram.port ≠ 0) : Received wire (.ok datagram) wire
  | failed {error : IoError} (apart : Apart error) :
      Received wire (.error error) wire

/-- A socket's requests go by ascending numbers; the last may be repeated. -/
def wired : Environment SocketCall SocketReply Wire where
  permits wire request :=
    match request with
    | .send number _ => number = wire.last ∨ number.toNat = wire.last.toNat + 1
    | .recvFrom .. | .deadline | .drain => True
  answers wire request reply after :=
    ∃ later, Meanwhile wire later ∧
      match request with
      | .send number bytes => Sent later number bytes reply after
      | .recvFrom .. => Received later reply after
      | .deadline => after = later
      | .drain => after = { later with queue := [] }

end SriovMacSync.Netlink
