import SriovMacSync.Netlink.Kernel

namespace SriovMacSync.Netlink

open Data Interaction Interaction.Action

/-! # What the kernel reads out of the requests

A filter write is read as the write it is, and no question is read as one. -/

section Bytes

/-- A message that lies wholly in the buffer is read. -/
theorem messages_of_taken {buf : List UInt8} (stated : nlmsgHdr ≤ field buf 0 4)
    (whole : field buf 0 4 ≤ buf.length) :
    messages buf = {
      kind := UInt16.ofNat (field buf 4 2)
      flags := UInt16.ofNat (field buf 6 2)
      seq := UInt32.ofNat (field buf 8 4)
      payload := (buf.take (field buf 0 4)).drop nlmsgHdr } ::
        messages (buf.drop (align4 (field buf 0 4))) := by
  rw [messages, if_neg (by omega)]
  dsimp only
  rw [if_neg (by omega)]

/-- What is read of the front of a buffer is at the front of what is read of all of it. -/
theorem messages_take_before (buf : List UInt8) (count : Nat) :
    messages (buf.take count) <+: messages buf := by
  induction buf using messages.induct generalizing count with
  | case1 buf short =>
      rw [messages_of_short (by rw [List.length_take]; omega)]
      exact List.nil_prefix
  | case2 buf long len refused =>
      rw [messages]
      split
      · exact List.nil_prefix
      · rename_i roomy
        rw [List.length_take, nlmsgHdr] at roomy
        have same : field (buf.take count) 0 4 = len := field_take (by omega)
        dsimp only
        rw [same, List.length_take, if_pos (by omega)]
        exact List.nil_prefix
  | case3 buf long len taken ih =>
      rw [messages]
      split
      · exact List.nil_prefix
      · rename_i roomy
        rw [List.length_take, nlmsgHdr] at roomy
        have same : field (buf.take count) 0 4 = len := field_take (by omega)
        dsimp only
        rw [same]
        split
        · exact List.nil_prefix
        · rename_i whole
          rw [List.length_take] at whole
          rw [messages_of_taken (show nlmsgHdr ≤ len by omega) (show len ≤ buf.length by omega),
            field_take (by omega), field_take (by omega), field_take (by omega), List.take_take,
            Nat.min_eq_left (by omega), show (buf.take count).drop (align4 len) =
              (buf.drop (align4 len)).take (count - align4 len) from List.drop_take ..]
          exact (List.prefix_cons_inj _).mpr (ih _)

/-- A message on its own, under the number that was written over it. -/
theorem messages_numbered {msg : Message} (fits : msg.Fits) (whole : msg.payload.length % 4 = 0)
    (number : UInt32) : messages (numbered number msg.record) = [{ msg with seq := number }] := by
  have written : numbered number msg.record = { msg with seq := number }.record := rfl
  have alone : encodeMessages [{ msg with seq := number }] = { msg with seq := number }.record := by
    rw [encodeMessages, List.flatMap_singleton, padded, Message.length_record]
    have unpadded : align4 (nlmsgHdr + msg.payload.length) = nlmsgHdr + msg.payload.length := by
      rw [align4, nlmsgHdr]
      omega
    simp [unpadded]
  rw [written, ← alone]
  apply messages_encodeMessages
  intro other member
  rw [List.mem_singleton.mp member]
  exact fits

theorem attrBytes_eq (attr : Attr) (plain : attr.wireKind = attr.kind) :
    attrBytes attr.kind attr.value = encodeAttrs [attr] := by
  have put := attr.putAttr_eq []
  rw [plain] at put
  rw [attrBytes, put, encodeAttrs]
  simp

end Bytes

section Requests

/-- An interface's number, as the kernel gives them out. -/
def Valid (index : Index) : Prop := index ≠ 0 ∧ index.toNat < 2 ^ 31

def lladdr (mac : Mac) : Attr where
  kind := ndaLladdr
  nested := false
  netByteorder := false
  value := mac.octets
  typed := by decide
  fits := by simp [rtattrHdr, Mac.octets]

/-- A filter write as a message. -/
def setMessage (ifindex : Index) (mac : Mac) (add : Bool) (seq : UInt32) : Message where
  kind := if add then rtmNewNeigh else rtmDelNeigh
  flags := if add then nlmFRequest ||| nlmFAck ||| nlmFCreate ||| nlmFExcl else nlmFRequest ||| nlmFAck
  seq
  payload := ([afBridge, 0] ++ bytesOf 2 0 ++ bytesOf 4 ifindex.toNat ++ bytesOf 2 nudPermanent.toNat ++
    [ntfSelf, 0]) ++ encodeAttrs [lladdr mac]

theorem length_lladdr (mac : Mac) : (encodeAttrs [lladdr mac]).length = 12 := by
  rw [encodeAttrs, List.flatMap_singleton, length_padded, Attr.length_record]
  simp [lladdr, rtattrHdr, Mac.octets, align4]

theorem length_setMessage (ifindex : Index) (mac : Mac) (add : Bool) (seq : UInt32) :
    (setMessage ifindex mac add seq).payload.length = 24 := by
  simp [setMessage, length_lladdr]

theorem setRequest_eq (ifindex : Index) (mac : Mac) (add : Bool) (seq : UInt32) :
    setRequest ifindex mac add seq = (setMessage ifindex mac add seq).record := by
  have written : attrBytes ndaLladdr mac.octets = encodeAttrs [lladdr mac] :=
    attrBytes_eq (lladdr mac) (by simp [Attr.wireKind, lladdr])
  rw [Message.record, length_setMessage, setRequest, written]
  cases add <;> simp [setMessage, nlmsgHdr, ndmsgLen, rtattrHdr]

/-- The kernel reads out of a filter write what was to be written. -/
theorem setRequest_read {ifindex : Index} (valid : Valid ifindex) (mac : Mac) (add : Bool) (seq : UInt32) :
    ∃ msg, messages (numbered seq (setRequest ifindex mac add seq)) = [msg] ∧
      readOrder msg = some ⟨ifindex, mac, add⟩ := by
  have length := length_setMessage ifindex mac add seq
  refine ⟨setMessage ifindex mac add seq, ?_, ?_⟩
  · rw [setRequest_eq, messages_numbered (by rw [Message.Fits, length]; decide) (by rw [length])]
    rfl
  · have index : indexAt (setMessage ifindex mac add seq).payload 4 = some ifindex := by
      have nonzero : ifindex.toNat ≠ 0 := fun zero => valid.1 (UInt32.toNat_inj.mp zero)
      have small := valid.2
      have at4 : field (setMessage ifindex mac add seq).payload 4 4 =
          littleEndian (bytesOf 4 ifindex.toNat) := rfl
      rw [indexAt, at4, littleEndian_bytesOf ifindex.toNat_lt, if_neg (by omega), UInt32.ofNat_toNat]
    have behind : (setMessage ifindex mac add seq).payload.drop ndmsgLen = encodeAttrs [lladdr mac] := rfl
    have address : ((attrs (encodeAttrs [lladdr mac])).lookup ndaLladdr).bind macOf = some mac := by
      rw [attrs_encodeAttrs]
      rfl
    have formed : ((setMessage ifindex mac add seq).kind = rtmNewNeigh ∨
        (setMessage ifindex mac add seq).kind = rtmDelNeigh) ∧
        (setMessage ifindex mac add seq).payload.head? = some afBridge ∧
        ndmsgLen ≤ (setMessage ifindex mac add seq).payload.length ∧
        (setMessage ifindex mac add seq).payload.getD 10 0 &&& ntfSelf ≠ 0 := by
      refine ⟨?_, rfl, by rw [length]; decide, ?_⟩
      · cases add
        · exact .inr rfl
        · exact .inl rfl
      · have flags : (setMessage ifindex mac add seq).payload.getD 10 0 = ntfSelf := rfl
        rw [flags]
        decide
    rw [readOrder, if_pos formed, index, behind, address]
    cases add <;> rfl

/-- A request that is no filter write. -/
def NoWrite (request : List UInt8) : Prop :=
  ∀ number, ∀ msg ∈ messages (numbered number request), readOrder msg = none

theorem asks_record {msg : Message} (fits : msg.Fits) (whole : msg.payload.length % 4 = 0)
    (apart : msg.kind ≠ rtmNewNeigh ∧ msg.kind ≠ rtmDelNeigh) : NoWrite msg.record := by
  intro number read member
  rw [messages_numbered fits whole, List.mem_singleton] at member
  rw [member, readOrder, if_neg (by simp [apart])]

def extMask (mask : UInt32) : Attr where
  kind := iflaExtMask
  nested := false
  netByteorder := false
  value := bytesOf 4 mask.toNat
  typed := by decide
  fits := by simp [rtattrHdr]

/-- A question about an interface, as a message. -/
def linkMessage (flags : UInt16) (index : Index) (mask seq : UInt32) : Message where
  kind := rtmGetLink
  flags
  seq
  payload := putIfinfomsg afUnspec index ++ encodeAttrs [extMask mask]

theorem length_linkMessage (flags : UInt16) (index : Index) (mask seq : UInt32) :
    (linkMessage flags index mask seq).payload.length = 24 := by
  have written : (encodeAttrs [extMask mask]).length = 8 := by
    rw [encodeAttrs, List.flatMap_singleton, length_padded, Attr.length_record]
    simp [extMask, rtattrHdr, align4]
  simp [linkMessage, putIfinfomsg, written]

theorem asks_link (flags : UInt16) (index : Index) (mask seq : UInt32) :
    NoWrite (linkMessage flags index mask seq).record := by
  have length := length_linkMessage flags index mask seq
  exact asks_record (by rw [Message.Fits, length]; decide) (by rw [length]) (by simp [linkMessage]; decide)

theorem vfRequest_asks (index : Index) (seq : UInt32) : NoWrite (vfRequest index seq) := by
  have written : attrBytes iflaExtMask (bytesOf 4 (rtextFilterVf ||| rtextFilterSkipStats).toNat) =
      encodeAttrs [extMask (rtextFilterVf ||| rtextFilterSkipStats)] := attrBytes_eq (extMask _) (by simp [Attr.wireKind, extMask])
  have same : vfRequest index seq =
      (linkMessage nlmFRequest index (rtextFilterVf ||| rtextFilterSkipStats) seq).record := by
    rw [Message.record, length_linkMessage, vfRequest, written]
    simp [linkMessage, nlmsgHdr, ifinfomsgLen, rtattrHdr]
  rw [same]
  exact asks_link _ _ _ _

theorem linkDumpRequest_asks : NoWrite linkDumpRequest := by
  have written : attrBytes iflaExtMask (bytesOf 4 rtextFilterSkipStats.toNat) =
      encodeAttrs [extMask rtextFilterSkipStats] := attrBytes_eq (extMask _) (by simp [Attr.wireKind, extMask])
  have same : linkDumpRequest = (linkMessage (nlmFRequest ||| nlmFDump) 0 rtextFilterSkipStats 0).record := by
    rw [Message.record, length_linkMessage, linkDumpRequest, written]
    simp [linkMessage, nlmsgHdr, ifinfomsgLen, rtattrHdr]
  rw [same]
  exact asks_link _ _ _ _

/-- A question about the forwarding table, as a message. -/
def fdbMessage (payload : List UInt8) : Message := ⟨rtmGetNeigh, nlmFRequest ||| nlmFDump, 0, payload⟩

theorem asks_fdb {payload : List UInt8} (fits : payload.length ≤ 16) (whole : payload.length % 4 = 0) :
    NoWrite (fdbMessage payload).record :=
  asks_record (by simp only [Message.Fits, fdbMessage, nlmsgHdr]; omega) whole (by simp [fdbMessage]; decide)

theorem fdbRequest_asks : NoWrite fdbRequest := by
  have same : fdbRequest =
      (fdbMessage ([afBridge, 0] ++ bytesOf 2 0 ++ bytesOf 4 0 ++ bytesOf 2 0 ++ [0, 0])).record := by
    simp [fdbRequest, Message.record, fdbMessage, nlmsgHdr, ndmsgLen]
  rw [same]
  exact asks_fdb (by simp) (by simp)

theorem fdbOfRequest_asks (ifindex : Index) : NoWrite (fdbOfRequest ifindex) := by
  have length : (putIfinfomsg afBridge ifindex).length = 16 := by simp [putIfinfomsg]
  have same : fdbOfRequest ifindex = (fdbMessage (putIfinfomsg afBridge ifindex)).record := by
    simp [fdbOfRequest, Message.record, fdbMessage, length, nlmsgHdr, ifinfomsgLen]
  rw [same]
  exact asks_fdb (by omega) (by omega)

end Requests

end SriovMacSync.Netlink
