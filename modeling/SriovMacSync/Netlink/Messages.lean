import SriovMacSync.Data.Bytes
import SriovMacSync.Netlink.Fdb

namespace SriovMacSync.Netlink

open Data

/-! What the kernel says: messages in a datagram, attributes in a message, and
what a notification is about. -/

def rtmNewLink : UInt16 := 16
def rtmDelLink : UInt16 := 17
def rtmNewNeigh : UInt16 := 28
def rtmDelNeigh : UInt16 := 29

def afBridge : UInt8 := 7

def ndaLladdr : UInt16 := 2
def ndaMaster : UInt16 := 9

def nlmsgHdr : Nat := 16
def ndmsgLen : Nat := 12
def ifinfomsgLen : Nat := 16
def rtattrHdr : Nat := 4

structure Message where
  kind : UInt16
  flags : UInt16
  seq : UInt32
  payload : List UInt8
deriving DecidableEq, Repr

/-- The messages in a buffer.  A trailing fragment is dropped, not parsed. -/
def messages (buf : List UInt8) : List Message :=
  if buf.length < nlmsgHdr then []
  else
    let len := field buf 0 4
    if len < nlmsgHdr ∨ buf.length < len then []
    else
      { kind := UInt16.ofNat (field buf 4 2)
        flags := UInt16.ofNat (field buf 6 2)
        seq := UInt32.ofNat (field buf 8 4)
        payload := (buf.take len).drop nlmsgHdr } :: messages (buf.drop (align4 len))
termination_by buf.length
decreasing_by
  have longer := le_align4 (field buf 0 4)
  rw [List.length_drop]
  unfold nlmsgHdr at *
  omega

theorem messages_of_short {buf : List UInt8} (short : buf.length < nlmsgHdr) : messages buf = [] := by
  rw [messages, if_pos short]

/-- A buffer with no room for a second header holds one message at most. -/
theorem messages_alone {buf : List UInt8}
    (alone : buf.length < align4 (field buf 0 4) + nlmsgHdr) :
    messages buf = [] ∨ messages buf = [{
      kind := UInt16.ofNat (field buf 4 2)
      flags := UInt16.ofNat (field buf 6 2)
      seq := UInt32.ofNat (field buf 8 4)
      payload := (buf.take (field buf 0 4)).drop nlmsgHdr }] := by
  have behind : messages (buf.drop (align4 (field buf 0 4))) = [] := by
    apply messages_of_short
    rw [List.length_drop]
    unfold nlmsgHdr at *
    omega
  rw [messages]
  split
  · exact .inl rfl
  · dsimp only
    split
    · exact .inl rfl
    · exact .inr (by rw [behind])

/-- The attributes of a message body.  The top two bits of a type are flags. -/
def attrs (buf : List UInt8) : List (UInt16 × List UInt8) :=
  if buf.length < rtattrHdr then []
  else
    let len := field buf 0 2
    if len < rtattrHdr ∨ buf.length < len then []
    else
      (UInt16.ofNat (field buf 2 2) &&& 0x3fff, (buf.take len).drop rtattrHdr) ::
        attrs (buf.drop (align4 len))
termination_by buf.length
decreasing_by
  have longer := le_align4 (field buf 0 2)
  rw [List.length_drop]
  unfold rtattrHdr at *
  omega

/-- The kernel's index is signed and positive; anything else is no interface. -/
def indexAt (payload : List UInt8) (offset : Nat) : Option Index :=
  let index := field payload offset 4
  if index = 0 ∨ 2 ^ 31 ≤ index then none else some (UInt32.ofNat index)

def macOf : List UInt8 → Option Mac
  | [a, b, c, d, e, f] => some ⟨a, b, c, d, e, f⟩
  | _ => none

def parseFdb (payload : List UInt8) : Option FdbEntry := do
  if payload.length < ndmsgLen then none
  else
    let ifindex ← indexAt payload 4
    let (mac, master) := (attrs (payload.drop ndmsgLen)).foldl (fun found (kind, value) =>
      if kind = ndaLladdr ∧ value.length = 6 then (macOf value, found.2)
      else if kind = ndaMaster ∧ value.length = 4 then
        (found.1, some (UInt32.ofNat (littleEndian value)))
      else found) (none, none)
    let mac ← mac
    return {
      ifindex, master, mac
      state := UInt16.ofNat (field payload 8 2)
      flags := payload.getD 10 0 }

/-- A batch of notifications. -/
structure Events where
  fdb : List Event := []
  linksChanged : Bool := false
  /-- which interfaces the link messages were about -/
  changedLinks : List Index := []
deriving DecidableEq, Repr

def collectEvent (out : Events) (msg : Message) : Events :=
  if msg.kind = rtmNewLink ∨ msg.kind = rtmDelLink then
    let changed := if ifinfomsgLen ≤ msg.payload.length then indexAt msg.payload 4 else none
    { out with linksChanged := true, changedLinks := out.changedLinks ++ changed.toList }
  else if msg.kind ≠ rtmNewNeigh ∧ msg.kind ≠ rtmDelNeigh then out
  else if msg.payload.head? ≠ some afBridge then out
  else
    match parseFdb msg.payload with
    | some entry =>
        let kind := if msg.kind = rtmNewNeigh then .newNeigh else .delNeigh
        { out with fdb := out.fdb ++ [(kind, entry)] }
    | none => out

def collectEvents (out : Events) (datagram : List UInt8) : Events :=
  (messages datagram).foldl collectEvent out

end SriovMacSync.Netlink
