import SriovMacSync.Netlink.Dump
import SriovMacSync.Netlink.VfInfo

namespace SriovMacSync.Netlink

open Data Interaction Interaction.Action

/-! # Requests with one answer

An address goes into a filter list or out of it by a request the kernel acknowledges, and
a question about one interface has a single answer.  Every request is told from the others
by its number. -/

def rtmGetLink : UInt16 := 18
def rtmGetNeigh : UInt16 := 30

def nlmFRequest : UInt16 := 0x001
def nlmFAck : UInt16 := 0x004
def nlmFExcl : UInt16 := 0x200
def nlmFCreate : UInt16 := 0x400
def nlmFDump : UInt16 := 0x300

def afUnspec : UInt8 := 0

def iflaExtMask : UInt16 := 29
def rtextFilterVf : UInt32 := 1
def rtextFilterSkipStats : UInt32 := (1 : UInt32) <<< 3

def enodev : Nat := 19

/-- An attribute that states its own length. -/
def attrBytes (kind : UInt16) (value : List UInt8) : List UInt8 := (putAttr [] kind value).getD []

def putIfinfomsg (family : UInt8) (index : Index) : List UInt8 :=
  [family, 0] ++ bytesOf 2 0 ++ bytesOf 4 index.toNat ++ bytesOf 4 0 ++ bytesOf 4 0

/-- The request that puts an address into an interface's own list, or takes it out. -/
def setRequest (ifindex : Index) (mac : Mac) (add : Bool) (seq : UInt32) : List UInt8 :=
  let len := nlmsgHdr + ndmsgLen + rtattrHdr + 6 + 2
  let (kind, flags) :=
    if add then (rtmNewNeigh, nlmFRequest ||| nlmFAck ||| nlmFCreate ||| nlmFExcl)
    else (rtmDelNeigh, nlmFRequest ||| nlmFAck)
  putNlmsghdr [] (UInt32.ofNat len) kind flags seq ++
    ([afBridge, 0] ++ bytesOf 2 0 ++ bytesOf 4 ifindex.toNat ++ bytesOf 2 nudPermanent.toNat ++
      [ntfSelf, 0]) ++ attrBytes ndaLladdr mac.octets

def vfRequest (index : Index) (seq : UInt32) : List UInt8 :=
  let len := nlmsgHdr + ifinfomsgLen + rtattrHdr + 4
  putNlmsghdr [] (UInt32.ofNat len) rtmGetLink nlmFRequest seq ++ putIfinfomsg afUnspec index ++
    attrBytes iflaExtMask (bytesOf 4 (rtextFilterVf ||| rtextFilterSkipStats).toNat)

/-- Every interface, without statistics. -/
def linkDumpRequest : List UInt8 :=
  let len := nlmsgHdr + ifinfomsgLen + rtattrHdr + 4
  putNlmsghdr [] (UInt32.ofNat len) rtmGetLink (nlmFRequest ||| nlmFDump) 0 ++ putIfinfomsg afUnspec 0 ++
    attrBytes iflaExtMask (bytesOf 4 rtextFilterSkipStats.toNat)

def fdbRequest : List UInt8 :=
  putNlmsghdr [] (UInt32.ofNat (nlmsgHdr + ndmsgLen)) rtmGetNeigh (nlmFRequest ||| nlmFDump) 0 ++
    ([afBridge, 0] ++ bytesOf 2 0 ++ bytesOf 4 0 ++ bytesOf 2 0 ++ [0, 0])

/-- The entries of one interface are asked for with a link's header. -/
def fdbOfRequest (ifindex : Index) : List UInt8 :=
  putNlmsghdr [] (UInt32.ofNat (nlmsgHdr + ifinfomsgLen)) rtmGetNeigh (nlmFRequest ||| nlmFDump) 0 ++
    putIfinfomsg afBridge ifindex

/-- The first acknowledgement of a number among these messages.  Too short to carry a code
is none. -/
def ackIn (seq : UInt32) : List Message → Option (Except IoError Unit)
  | [] => none
  | msg :: rest =>
      if msg.seq ≠ seq then ackIn seq rest
      else if msg.kind = nlmsgErrorKind then
        if msg.payload.length < 4 then
          some (.error (.other "a malformed acknowledgement, too short to carry a code"))
        else
          match nlmsgError msg.payload with
          | some error => some (.error error)
          | none => some (.ok ())
      else ackIn seq rest

/-- The first message of a number that answers a question for `want`, and what it holds. -/
def answerIn (want : UInt16) (seq : UInt32) : List Message → Option (Except IoError (Option (List UInt8)))
  | [] => none
  | msg :: rest =>
      if msg.seq ≠ seq then answerIn want seq rest
      else if msg.kind = nlmsgErrorKind ∨ msg.kind = nlmsgDone then
        match nlmsgError msg.payload with
        | some error => some (.error error)
        | none => some (.ok none)
      else if msg.kind = nlmsgNoop then answerIn want seq rest
      else if msg.kind = want then some (.ok (some msg.payload))
      else answerIn want seq rest

/-- How one attempt at a question about one interface ended. -/
inductive OneEnd where
  /-- with what the answer held, if it held anything -/
  | answered (held : Option (List UInt8))
  | tooBig (need : Nat)
deriving DecidableEq, Repr

namespace Socket

/-- The kept buffer, at least so many bytes. -/
def takeBuf (want : Nat) : Asking PUnit :=
  modify fun socket => { socket with capacity := max socket.capacity want }

/-- `recv` into a buffer of this size. -/
def recvInto (capacity : Nat) (wait : Bool) : Nat → Asking (Except IoError (List UInt8))
  | 0 => return .error .wouldBlock
  | spoofs + 1 => do
      let got : Except IoError Datagram ← ask (.recvFrom capacity wait)
      match got with
      | .error error => return .error error
      | .ok datagram =>
          if datagram.port ≠ 0 then recvInto capacity false spoofs
          else return .ok datagram.bytes

/-- The size of the buffer an acknowledgement is read into. -/
def ackBuffer : Nat := 8192

/-- Wait for the acknowledgement of a number, as long as the deadline has not passed. -/
def awaitAck (seq : UInt32) : Nat → Asking (Except IoError Unit)
  | 0 => return .error (.timedOut "no answer from the kernel in time")
  | looks + 1 => do
      let got ← recvInto ackBuffer true 64
      match got with
      | .error .wouldBlock => awaitAck seq looks
      | .error error => return .error error
      | .ok datagram =>
          match ackIn seq (messages (datagram.take ackBuffer)) with
          | some answer => return answer
          | none => awaitAck seq looks

/-- Add an address to an interface's own unicast filter list, or remove it. -/
def setSelfFdb (ifindex : Index) (mac : Mac) (add : Bool) : Asking (Except IoError Unit) := do
  modify fun socket => { socket with seq := socket.seq + 1 }
  let seq := (← get).seq
  let asked ← send seq (setRequest ifindex mac add seq)
  match asked with
  | .error error => return .error error
  | .ok () =>
      let looks : Nat ← ask .deadline
      awaitAck seq looks

/-- One attempt at a question, as long as the deadline has not passed. -/
def requestOneInto (seq : UInt32) (want : UInt16) : Nat → Asking (Except IoError OneEnd)
  | 0 => return .error (.timedOut "no answer from the kernel in time")
  | looks + 1 => do
      let capacity := (← get).capacity
      let got ← recvInto capacity true 64
      match got with
      | .error .wouldBlock => requestOneInto seq want looks
      | .error error => return .error error
      | .ok datagram =>
          if capacity < datagram.length then
            let _ ← ask .drain
            return .ok (.tooBig datagram.length)
          else
            match answerIn want seq (messages datagram) with
            | some answer => return answer.map .answered
            | none => requestOneInto seq want looks

/-- A question is asked again, under its own number, until its answer fits the buffer. -/
def requestOneGrown (request : List UInt8) (seq : UInt32) (want : UInt16) :
    Nat → Asking (Except IoError (Option (List UInt8)))
  | 0 => return .error (.other s!"an answer did not fit in {attempts} attempts of a growing buffer")
  | left + 1 => do
      let asked ← send seq request
      match asked with
      | .error error => return .error error
      | .ok () =>
          let looks : Nat ← ask .deadline
          let ended ← requestOneInto seq want looks
          match ended with
          | .error error => return .error error
          | .ok (.answered held) => return .ok held
          | .ok (.tooBig need) =>
              if ceiling < need then
                return .error (.other s!"an answer wants {need} bytes in one datagram, beyond the {ceiling} this is willing to allocate")
              else
                modify fun socket => { socket with capacity := min need.nextPowerOfTwo ceiling }
                requestOneGrown request seq want left

/-- Everything a physical function says about its virtual functions.  A gone interface is an
empty answer. -/
def vfInfoOf (index : Index) : Asking (Except IoError (List VfInfo)) := do
  modify fun socket => { socket with seq := socket.seq + 1 }
  let seq := (← get).seq
  takeBuf (64 * 1024)
  let answer ← requestOneGrown (vfRequest index seq) seq rtmNewLink attempts
  match answer with
  | .ok (some payload) => return .ok (collectVfInfo payload [])
  | .ok none => return .ok []
  | .error error => return if error = .os enodev then .ok [] else .error error

/-- A dump into the kept buffer, one datagram of the kernel's near enough to begin with. -/
def dump {T : Type} (parse : List UInt8 → List T → List T) (want : UInt16) (request : List UInt8)
    (what : String) : Asking (Except IoError (List T)) := do
  takeBuf (64 * 1024)
  dumpInto parse want request what

def collectFdb (payload : List UInt8) (out : List FdbEntry) : List FdbEntry :=
  out ++ (parseFdb payload).toList

/-- Every forwarding entry on the host. -/
def dumpFdb : Asking (Except IoError (List FdbEntry)) :=
  dump collectFdb rtmNewNeigh fdbRequest "forwarding database"

/-- The entries of one interface: those learnt on it and those of its own list. -/
def dumpFdbOf (ifindex : Index) : Asking (Except IoError (List FdbEntry)) :=
  dump collectFdb rtmNewNeigh (fdbOfRequest ifindex) "forwarding database"

/-- The addresses of the virtual functions of these interfaces, one question each. -/
def vfMacsOf : List Index → Asking (Except IoError (List (Index × Mac)))
  | [] => return .ok []
  | index :: rest => do
      let told ← vfInfoOf index
      match told with
      | .error error => return .error error
      | .ok vfs =>
          let more ← vfMacsOf rest
          return more.map (vfs.map (fun vf => (vf.pf, vf.mac)) ++ ·)

end Socket

end SriovMacSync.Netlink
