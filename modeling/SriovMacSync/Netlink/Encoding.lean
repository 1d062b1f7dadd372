import SriovMacSync.Data.Records
import SriovMacSync.Netlink.Messages

namespace SriovMacSync.Netlink

open Data

/-! # Encoding

Messages and attributes as they are written, and what the walks read of it. -/

def nlaFNested : UInt16 := 0x8000
def nlaFNetByteorder : UInt16 := 0x4000

def putNlmsghdr (buf : List UInt8) (len : UInt32) (kind flags : UInt16) (seq : UInt32) :
    List UInt8 :=
  buf ++ bytesOf 4 len.toNat ++ bytesOf 2 kind.toNat ++ bytesOf 2 flags.toNat ++
    bytesOf 4 seq.toNat ++ bytesOf 4 0

/-- An attribute's length is sixteen bits, and one that cannot state its own is refused. -/
def putAttr (buf : List UInt8) (kind : UInt16) (value : List UInt8) : Option (List UInt8) :=
  let len := rtattrHdr + value.length
  if len ≤ 65535 then
    let buf := buf ++ bytesOf 2 len ++ bytesOf 2 kind.toNat ++ value
    some (buf ++ List.replicate (align4 len - len) 0)
  else none

/-- The two walks take the same kind of record. -/
def messageLayout : Layout := ⟨nlmsgHdr, 4, by decide, by decide⟩
def attrLayout : Layout := ⟨rtattrHdr, 2, by decide, by decide⟩

def Message.ofRecord (record : List UInt8) : Message where
  kind := UInt16.ofNat (field record 4 2)
  flags := UInt16.ofNat (field record 6 2)
  seq := UInt32.ofNat (field record 8 4)
  payload := record.drop nlmsgHdr

def attrOfRecord (record : List UInt8) : UInt16 × List UInt8 :=
  (UInt16.ofNat (field record 2 2) &&& 0x3fff, record.drop rtattrHdr)

theorem messages_eq (buf : List UInt8) :
    messages buf = (messageLayout.records buf).map Message.ofRecord := by
  induction buf using messages.induct with
  | case1 buf short =>
      have empty : messageLayout.records buf = [] := Layout.records_nil_of_short short
      rw [messages, if_pos short, empty, List.map_nil]
  | case2 buf long len refused =>
      have empty : messageLayout.records buf = [] := Layout.records_nil_of_refused refused
      rw [messages, if_neg long, empty]
      exact if_pos refused
  | case3 buf long len taken ih =>
      have walked : messageLayout.records buf = buf.take len ::
          messageLayout.records (buf.drop (align4 len)) := Layout.records_of_taken taken
      have headed : 16 ≤ len := by
        simp only [nlmsgHdr] at taken
        omega
      rw [messages, if_neg long, walked, List.map_cons, ← ih, Message.ofRecord,
        field_take (by omega), field_take (by omega), field_take (by omega)]
      exact if_neg taken

theorem attrs_eq (buf : List UInt8) : attrs buf = (attrLayout.records buf).map attrOfRecord := by
  induction buf using attrs.induct with
  | case1 buf short =>
      have empty : attrLayout.records buf = [] := Layout.records_nil_of_short short
      rw [attrs, if_pos short, empty, List.map_nil]
  | case2 buf long len refused =>
      have empty : attrLayout.records buf = [] := Layout.records_nil_of_refused refused
      rw [attrs, if_neg long, empty]
      exact if_pos refused
  | case3 buf long len taken ih =>
      have walked : attrLayout.records buf = buf.take len ::
          attrLayout.records (buf.drop (align4 len)) := Layout.records_of_taken taken
      have headed : 4 ≤ len := by
        simp only [rtattrHdr] at taken
        omega
      rw [attrs, if_neg long, walked, List.map_cons, ← ih, attrOfRecord, field_take (by omega)]
      exact if_neg taken

section Written

/-- A message as it is written, without its padding. -/
def Message.record (msg : Message) : List UInt8 :=
  putNlmsghdr [] (UInt32.ofNat (nlmsgHdr + msg.payload.length)) msg.kind msg.flags msg.seq ++
    msg.payload

/-- A message whose length thirty-two bits can state. -/
def Message.Fits (msg : Message) : Prop := nlmsgHdr + msg.payload.length < 2 ^ 32

def encodeMessages (msgs : List Message) : List UInt8 :=
  msgs.flatMap fun msg => padded msg.record

theorem Message.length_record (msg : Message) :
    msg.record.length = nlmsgHdr + msg.payload.length := by
  simp [record, putNlmsghdr, nlmsgHdr]
  omega

theorem Message.holds_record {msg : Message} (fits : msg.Fits) :
    messageLayout.Holds msg.record := by
  constructor
  · rw [length_record]
    exact Nat.le_add_right _ _
  · have stated : (UInt32.ofNat (nlmsgHdr + msg.payload.length)).toNat =
        nlmsgHdr + msg.payload.length := by
      rw [UInt32.toNat_ofNat', Nat.mod_eq_of_lt fits]
    rw [length_record, record, putNlmsghdr, stated]
    simp only [List.nil_append, List.append_assoc]
    exact field_bytesOf (by rw [Message.Fits] at fits; simpa using fits)

theorem Message.ofRecord_record (msg : Message) : ofRecord msg.record = msg := by
  have kind : field msg.record 4 2 = littleEndian (bytesOf 2 msg.kind.toNat) := rfl
  have flags : field msg.record 6 2 = littleEndian (bytesOf 2 msg.flags.toNat) := rfl
  have seq : field msg.record 8 4 = littleEndian (bytesOf 4 msg.seq.toNat) := rfl
  have payload : msg.record.drop nlmsgHdr = msg.payload := rfl
  rw [ofRecord, kind, flags, seq, payload, littleEndian_bytesOf msg.kind.toNat_lt,
    littleEndian_bytesOf msg.flags.toNat_lt, littleEndian_bytesOf msg.seq.toNat_lt]
  simp

/-- An attribute with a type below the two flag bits and a length sixteen bits can
state. -/
structure Attr where
  kind : UInt16
  nested : Bool
  netByteorder : Bool
  value : List UInt8
  typed : kind.toNat < 2 ^ 14
  fits : rtattrHdr + value.length < 2 ^ 16

namespace Attr

/-- The type with its flags. -/
def wireKind (attr : Attr) : UInt16 :=
  attr.kind ||| (if attr.nested then nlaFNested else 0) |||
    (if attr.netByteorder then nlaFNetByteorder else 0)

def record (attr : Attr) : List UInt8 :=
  bytesOf 2 (rtattrHdr + attr.value.length) ++ bytesOf 2 attr.wireKind.toNat ++ attr.value

/-- What the walk makes of it. -/
def item (attr : Attr) : UInt16 × List UInt8 := (attr.kind, attr.value)

end Attr

def encodeAttrs (list : List Attr) : List UInt8 := list.flatMap fun attr => padded attr.record

/-- One attribute after the other. -/
def putAttrs (buf : List UInt8) (list : List Attr) : Option (List UInt8) :=
  list.foldlM (fun buf attr => putAttr buf attr.wireKind attr.value) buf

namespace Attr

theorem length_record (attr : Attr) : attr.record.length = rtattrHdr + attr.value.length := by
  simp [record, rtattrHdr]
  omega

theorem putAttr_eq (buf : List UInt8) (attr : Attr) :
    putAttr buf attr.wireKind attr.value = some (buf ++ padded attr.record) := by
  have fits := attr.fits
  rw [putAttr]
  dsimp only
  rw [if_pos (by omega), padded, length_record, record]
  simp

theorem holds_record (attr : Attr) : attrLayout.Holds attr.record := by
  constructor
  · rw [length_record]
    exact Nat.le_add_right _ _
  · rw [length_record, record, List.append_assoc]
    exact field_bytesOf attr.fits

theorem wireKind_masked (attr : Attr) : attr.wireKind &&& 0x3fff = attr.kind := by
  have low : attr.kind.toBitVec &&& 0x3fff#16 = attr.kind.toBitVec := by
    apply BitVec.eq_of_toNat_eq
    rw [BitVec.toNat_and]
    exact (Nat.and_two_pow_sub_one_eq_mod _ 14).trans (Nat.mod_eq_of_lt attr.typed)
  have masked (flag : UInt16) (clear : flag.toBitVec &&& 0x3fff#16 = 0#16) (kind : UInt16) :
      (kind ||| flag) &&& 0x3fff = kind &&& 0x3fff := by
    apply UInt16.toBitVec_inj.mp
    simp [clear, BitVec.and_or_distrib_right]
  rw [wireKind, masked, masked]
  · exact UInt16.toBitVec_inj.mp low
  · split <;> rfl
  · split <;> rfl

theorem attrOfRecord_record (attr : Attr) : attrOfRecord attr.record = attr.item := by
  have kind : field attr.record 2 2 = littleEndian (bytesOf 2 attr.wireKind.toNat) := rfl
  have value : attr.record.drop rtattrHdr = attr.value := rfl
  rw [attrOfRecord, kind, value, littleEndian_bytesOf attr.wireKind.toNat_lt, UInt16.ofNat_toNat,
    wireKind_masked, item]

end Attr

theorem putAttrs_eq (buf : List UInt8) (list : List Attr) :
    putAttrs buf list = some (buf ++ encodeAttrs list) := by
  induction list generalizing buf with
  | nil => simp [putAttrs, encodeAttrs]
  | cons attr rest ih =>
      have later := ih (buf ++ padded attr.record)
      rw [putAttrs] at later
      rw [putAttrs, List.foldlM_cons, Attr.putAttr_eq]
      simp only [Option.bind_eq_bind, Option.bind_some, later, encodeAttrs, List.flatMap_cons,
        List.append_assoc]

end Written

section RoundTrip

/-- A prefix of messages behind one another holds those that lie wholly within it. -/
theorem messages_take {msgs : List Message} (fits : ∀ msg ∈ msgs, msg.Fits) (count : Nat) :
    messages ((encodeMessages msgs).take count) =
      ((placed Message.record 0 msgs).filter fun place =>
        place.1 + place.2.record.length ≤ count).map Prod.snd := by
  have holds : ∀ msg ∈ msgs, messageLayout.Holds msg.record := fun msg member =>
    Message.holds_record (fits msg member)
  rw [messages_eq, encodeMessages, @Layout.records_take messageLayout _ _ _ 0 holds, List.map_map]
  congr 1
  funext place
  exact place.2.ofRecord_record

theorem messages_encodeMessages {msgs : List Message} (fits : ∀ msg ∈ msgs, msg.Fits) :
    messages (encodeMessages msgs) = msgs := by
  have holds : ∀ msg ∈ msgs, messageLayout.Holds msg.record := fun msg member =>
    Message.holds_record (fits msg member)
  rw [messages_eq, encodeMessages, Layout.records_written holds, List.map_map]
  exact List.map_id'' Message.ofRecord_record msgs

/-- A prefix of attributes behind one another holds those that lie wholly within it. -/
theorem attrs_take (list : List Attr) (count : Nat) :
    attrs ((encodeAttrs list).take count) =
      ((placed Attr.record 0 list).filter fun place =>
        place.1 + place.2.record.length ≤ count).map fun place => place.2.item := by
  have holds : ∀ attr ∈ list, attrLayout.Holds attr.record := fun attr _ => attr.holds_record
  rw [attrs_eq, encodeAttrs, @Layout.records_take attrLayout _ _ _ 0 holds, List.map_map]
  congr 1
  funext place
  exact place.2.attrOfRecord_record

theorem attrs_encodeAttrs (list : List Attr) : attrs (encodeAttrs list) = list.map Attr.item := by
  rw [attrs_eq, encodeAttrs, Layout.records_written fun attr _ => attr.holds_record, List.map_map]
  exact List.map_congr_left fun attr _ => attr.attrOfRecord_record

end RoundTrip

end SriovMacSync.Netlink
