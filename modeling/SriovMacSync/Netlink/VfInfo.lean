import SriovMacSync.Netlink.Encoding

namespace SriovMacSync.Netlink

open Data

/-! # Virtual functions

What a physical function's link message says about its virtual functions, three
levels of attributes deep. -/

def iflaVfinfoList : UInt16 := 22
def iflaVfInfo : UInt16 := 1
def iflaVfMac : UInt16 := 1
def iflaVfTrust : UInt16 := 9

def vfMacOff : Nat := 4
def vfMacLen : Nat := 6

structure VfInfo where
  /-- the physical function's interface index -/
  pf : Index
  vf : UInt32
  mac : Mac
  /-- `none` from a kernel that does not report trust -/
  trusted : Option Bool
deriving DecidableEq, Repr

def attrU32 (value : List UInt8) : Option UInt32 :=
  if value.length < 4 then none else some (UInt32.ofNat (field value 0 4))

/-- What one attribute of a function's nest adds to what is known of it. -/
def vfAttr (pf : Index) (known : Option VfInfo × Option Bool) (attr : UInt16 × List UInt8) :
    Option VfInfo × Option Bool :=
  let found :=
    if attr.1 = iflaVfMac ∧ vfMacOff + vfMacLen ≤ attr.2.length then
      (macOf ((attr.2.drop vfMacOff).take vfMacLen)).map fun mac =>
        { pf, vf := (attrU32 attr.2).getD 0, mac, trusted := none }
    else known.1
  let trusted :=
    if attr.1 = iflaVfTrust ∧ 8 ≤ attr.2.length then
      (attrU32 (attr.2.drop 4)).map fun setting => decide (setting ≠ 0)
    else known.2
  (found, trusted)

/-- A nest without an address is not a function. -/
def vfOfNest (pf : Index) (vfInfo : List UInt8) : Option VfInfo :=
  let (found, trusted) := (attrs vfInfo).foldl (vfAttr pf) (none, none)
  found.map fun vf => { vf with trusted }

def collectVfInfo (payload : List UInt8) (out : List VfInfo) : List VfInfo :=
  if payload.length < ifinfomsgLen then out
  else
    match indexAt payload 4 with
    | none => out
    | some pf =>
        (attrs (payload.drop ifinfomsgLen)).foldl (fun out (kind, value) =>
          if kind ≠ iflaVfinfoList then out
          else (attrs value).foldl (fun out (vfKind, vfInfo) =>
            if vfKind ≠ iflaVfInfo then out else out ++ (vfOfNest pf vfInfo).toList) out) out

section Encoding

/-- `struct ifinfomsg`. -/
structure Ifinfomsg where
  family : UInt8
  pad : UInt8
  type : UInt16
  index : UInt32
  flags : UInt32
  change : UInt32
  positive : index ≠ 0 ∧ index.toNat < 2 ^ 31

def Ifinfomsg.bytes (head : Ifinfomsg) : List UInt8 :=
  [head.family, head.pad] ++ bytesOf 2 head.type.toNat ++ bytesOf 4 head.index.toNat ++
    bytesOf 4 head.flags.toNat ++ bytesOf 4 head.change.toNat

/-- A virtual function as the kernel tells of it. -/
structure Vf where
  number : UInt32
  mac : Mac
  /-- the setting, from a kernel that reports trust -/
  trust : Option UInt32

def Vf.info (vf : Vf) (pf : Index) : VfInfo where
  pf
  vf := vf.number
  mac := vf.mac
  trusted := vf.trust.map fun setting => decide (setting ≠ 0)

/-- The values of the attributes of one type, in their order. -/
def valuesOf (kind : UInt16) (list : List Attr) : List (List UInt8) :=
  (list.filter (·.kind = kind)).map (·.value)

/-- A nest that tells of a function: its address once and its trust at most once, among
attributes of any other types.  Behind the address the kernel's field goes on. -/
structure Vf.InNest (vf : Vf) (nest : List Attr) : Prop where
  address : ∃ rest, valuesOf iflaVfMac nest =
    [bytesOf 4 vf.number.toNat ++ vf.mac.octets ++ rest]
  trusted : valuesOf iflaVfTrust nest =
    vf.trust.toList.map fun setting => bytesOf 4 vf.number.toNat ++ bytesOf 4 setting.toNat

/-- A nest for each function in turn, among attributes of any other types. -/
def InList (vfs : List Vf) (list : List Attr) : Prop :=
  ∃ nests : List (List Attr), valuesOf iflaVfInfo list = nests.map encodeAttrs ∧
    List.Forall₂ Vf.InNest vfs nests

/-- One list of functions among a link's other attributes. -/
def InLink (vfs : List Vf) (link : List Attr) : Prop :=
  ∃ list, valuesOf iflaVfinfoList link = [encodeAttrs list] ∧ InList vfs list

end Encoding

section Decoding

variable {T : Type}

/-- A loop that passes over every attribute but those of one type sees the values of
these. -/
theorem foldl_attrs (kind : UInt16) (list : List Attr) (step : T → List UInt8 → T) (start : T) :
    (attrs (encodeAttrs list)).foldl (fun out attr =>
        if attr.1 = kind then step out attr.2 else out) start =
      (valuesOf kind list).foldl step start := by
  rw [attrs_encodeAttrs, List.foldl_map, valuesOf, List.foldl_map, List.foldl_filter]
  congr 1
  funext out attr
  by_cases same : attr.kind = kind <;> simp [Attr.item, same]

theorem foldl_vfAttr (pf : Index) (list : List (UInt16 × List UInt8))
    (known : Option VfInfo × Option Bool) :
    list.foldl (vfAttr pf) known =
      (list.foldl (fun found attr => (vfAttr pf (found, none) attr).1) known.1,
        list.foldl (fun trusted attr => (vfAttr pf (none, trusted) attr).2) known.2) := by
  induction list generalizing known with
  | nil => rfl
  | cons attr rest ih => rw [List.foldl_cons, ih]; rfl

theorem macOf_octets (mac : Mac) : macOf mac.octets = some mac := rfl

theorem field_number {number : UInt32} {rest : List UInt8} :
    UInt32.ofNat (field (bytesOf 4 number.toNat ++ rest) 0 4) = number := by
  rw [field_bytesOf number.toNat_lt, UInt32.ofNat_toNat]

theorem vfOfNest_encodeAttrs {vf : Vf} {nest : List Attr} (inNest : vf.InNest nest) (pf : Index) :
    vfOfNest pf (encodeAttrs nest) = some (vf.info pf) := by
  have found : (attrs (encodeAttrs nest)).foldl
      (fun found attr => (vfAttr pf (found, none) attr).1) none =
        some { pf, vf := vf.number, mac := vf.mac, trusted := none } := by
    obtain ⟨rest, address⟩ := inNest.address
    have step : (fun found attr => (vfAttr pf (found, none) attr).1) =
        fun found (attr : UInt16 × List UInt8) => if attr.1 = iflaVfMac then
          (vfAttr pf (found, none) (iflaVfMac, attr.2)).1 else found := by
      funext found attr
      by_cases same : attr.1 = iflaVfMac <;> simp [vfAttr, same]
    have mac : ((bytesOf 4 vf.number.toNat ++ vf.mac.octets ++ rest).drop vfMacOff).take
        vfMacLen = vf.mac.octets := rfl
    have roomy : vfMacOff + vfMacLen ≤
        (bytesOf 4 vf.number.toNat ++ vf.mac.octets ++ rest).length := by
      simp [vfMacOff, vfMacLen, Mac.octets]
      omega
    have number : attrU32 (bytesOf 4 vf.number.toNat ++ vf.mac.octets ++ rest) =
        some vf.number := by
      rw [attrU32, if_neg (by simp), List.append_assoc, field_number]
    rw [step, foldl_attrs iflaVfMac nest fun found value =>
      (vfAttr pf (found, none) (iflaVfMac, value)).1, address]
    simp only [List.foldl_cons, List.foldl_nil, vfAttr, roomy, and_self, if_true, mac, macOf_octets,
      number]
    rfl
  have trusted : (attrs (encodeAttrs nest)).foldl
      (fun trusted attr => (vfAttr pf (none, trusted) attr).2) none =
        vf.trust.map fun setting => decide (setting ≠ 0) := by
    have step : (fun trusted attr => (vfAttr pf (none, trusted) attr).2) =
        fun trusted (attr : UInt16 × List UInt8) => if attr.1 = iflaVfTrust then
          (vfAttr pf (none, trusted) (iflaVfTrust, attr.2)).2 else trusted := by
      funext trusted attr
      by_cases same : attr.1 = iflaVfTrust <;> simp [vfAttr, same]
    rw [step, foldl_attrs iflaVfTrust nest fun trusted value =>
      (vfAttr pf (none, trusted) (iflaVfTrust, value)).2, inNest.trusted]
    cases vf.trust with
    | none => rfl
    | some setting =>
        have behind : (bytesOf 4 vf.number.toNat ++ bytesOf 4 setting.toNat).drop 4 =
            bytesOf 4 setting.toNat ++ [] := by
          rw [List.append_nil]
          rfl
        simp only [Option.toList_some, List.map_cons, List.map_nil, List.foldl_cons, List.foldl_nil,
          vfAttr, behind]
        rw [if_pos ⟨trivial, by simp⟩, attrU32, if_neg (by simp), field_number]
  rw [vfOfNest, foldl_vfAttr, found, trusted]
  rfl

theorem foldl_nests {vfs : List Vf} {nests : List (List Attr)}
    (told : List.Forall₂ Vf.InNest vfs nests) (pf : Index) (out : List VfInfo) :
    (nests.map encodeAttrs).foldl (fun out vfInfo => out ++ (vfOfNest pf vfInfo).toList) out =
      out ++ vfs.map (·.info pf) := by
  induction told generalizing out with
  | nil => simp
  | cons first _ ih =>
      rw [List.map_cons, List.foldl_cons, ih, vfOfNest_encodeAttrs first]
      simp

theorem indexAt_bytes (head : Ifinfomsg) (rest : List UInt8) :
    indexAt (head.bytes ++ rest) 4 = some head.index := by
  have index : field (head.bytes ++ rest) 4 4 = littleEndian (bytesOf 4 head.index.toNat) := rfl
  have ⟨nonzero, small⟩ := head.positive
  have positive : head.index.toNat ≠ 0 := fun zero => nonzero (UInt32.toNat_inj.mp zero)
  rw [indexAt, index, littleEndian_bytesOf head.index.toNat_lt, if_neg (by omega),
    UInt32.ofNat_toNat]

/-- The list of functions comes out of a link message as it was told, each function with
the interface's index and its own trust, and nothing else does. -/
theorem collectVfInfo_complete (head : Ifinfomsg) {vfs : List Vf} {link : List Attr}
    (told : InLink vfs link) (out : List VfInfo) :
    collectVfInfo (head.bytes ++ encodeAttrs link) out = out ++ vfs.map (·.info head.index) := by
  obtain ⟨list, atLink, nests, atList, each⟩ := told
  have long : ¬ (head.bytes ++ encodeAttrs link).length < ifinfomsgLen := by
    simp [Ifinfomsg.bytes, ifinfomsgLen]
    omega
  have body : (head.bytes ++ encodeAttrs link).drop ifinfomsgLen = encodeAttrs link := rfl
  rw [collectVfInfo, if_neg long, indexAt_bytes, body]
  simp only [ne_eq, ite_not]
  rw [foldl_attrs iflaVfinfoList link fun out value => (attrs value).foldl (fun out attr =>
      if attr.1 = iflaVfInfo then out ++ (vfOfNest head.index attr.2).toList else out) out,
    atLink, List.foldl_cons, List.foldl_nil,
    foldl_attrs iflaVfInfo list fun out value => out ++ (vfOfNest head.index value).toList, atList,
    foldl_nests each]

end Decoding

section Examples

/-- An address and its trust, told with the trust first, and one without trust. -/
def trustedVf : Vf := ⟨0, ⟨2, 0, 0, 0, 0, 1⟩, some 1⟩
def plainVf : Vf := ⟨1, ⟨2, 0, 0, 0, 0, 2⟩, none⟩

def macAttr (vf : Vf) : Attr where
  kind := iflaVfMac
  nested := false
  netByteorder := true
  value := bytesOf 4 vf.number.toNat ++ vf.mac.octets ++ List.replicate 26 0
  typed := by decide
  fits := by simp [rtattrHdr, Mac.octets]

def trustAttr (vf : Vf) (setting : UInt32) : Attr where
  kind := iflaVfTrust
  nested := false
  netByteorder := false
  value := bytesOf 4 vf.number.toNat ++ bytesOf 4 setting.toNat
  typed := by decide
  fits := by simp [rtattrHdr]

/-- An attribute of a type the loops pass over at every level. -/
def otherAttr : Attr := ⟨3, true, true, [1, 2, 3], by decide, by decide⟩

def toldNests : List (List Attr) :=
  [[trustAttr trustedVf 1, otherAttr, macAttr trustedVf], [macAttr plainVf, otherAttr]]

def toldList : List Attr := [
  ⟨iflaVfInfo, true, false, encodeAttrs toldNests[0], by decide, by decide⟩,
  otherAttr,
  ⟨iflaVfInfo, false, false, encodeAttrs toldNests[1], by decide, by decide⟩]

def toldLink : List Attr := [
  otherAttr,
  ⟨iflaVfinfoList, true, false, encodeAttrs toldList, by decide, by decide +kernel⟩,
  otherAttr]

def toldHead : Ifinfomsg := ⟨0, 0, 1, 5, 0, 0, by decide⟩

theorem told_inLink : InLink [trustedVf, plainVf] toldLink := by
  refine ⟨toldList, rfl, toldNests, rfl, ?_⟩
  apply List.Forall₂.cons ⟨⟨_, rfl⟩, rfl⟩
  exact .cons ⟨⟨_, rfl⟩, rfl⟩ .nil

theorem collectVfInfo_complete_told :
    collectVfInfo (toldHead.bytes ++ encodeAttrs toldLink) [] =
      [⟨5, 0, ⟨2, 0, 0, 0, 0, 1⟩, some true⟩, ⟨5, 1, ⟨2, 0, 0, 0, 0, 2⟩, none⟩] :=
  collectVfInfo_complete toldHead told_inLink []

end Examples

end SriovMacSync.Netlink
