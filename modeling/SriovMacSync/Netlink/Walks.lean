import SriovMacSync.Netlink.Encoding

namespace SriovMacSync.Netlink

open Data

/-! # The walks

The two iterators with every sum and every slice as the machine makes them, for a
`usize` of any width from thirty-two bits on. -/

/-- What would end the process. -/
inductive Panic where
  | overflow
  | outOfRange
deriving DecidableEq, Repr

abbrev Checked (α : Type) := Except Panic α

/-- The bytes a slice can refer to: `isize::MAX` of them. -/
structure Buffer (width : Nat) where
  bytes : List UInt8
  within : bytes.length < 2 ^ (width - 1)

def plus (width left right : Nat) : Checked Nat :=
  if left + right < 2 ^ width then .ok (left + right) else .error .overflow

def checkedAdd (width left right : Nat) : Option Nat :=
  if left + right < 2 ^ width then some (left + right) else none

/-- `align4`, whose sum is made before its mask. -/
def alignUp (width count : Nat) : Checked Nat := do
  let sum ← plus width count 3
  return sum / 4 * 4

def slice (buf : List UInt8) (start stop : Nat) : Checked (List UInt8) :=
  if start ≤ stop ∧ stop ≤ buf.length then .ok ((buf.take stop).drop start)
  else .error .outOfRange

/-- An iterator: the buffer, and the offset it has come to. -/
structure Walk where
  buf : List UInt8
  off : Nat
deriving DecidableEq, Repr

/-- What an iterator yields, and from where to where the bytes it lends reach. -/
structure Lent (α : Type) where
  item : α
  start : Nat
  stop : Nat
deriving DecidableEq, Repr

section Iterators

variable (width : Nat)

/-- The number in the bytes from one place behind the offset to another. -/
def Walk.number (walk : Walk) (start stop : Nat) : Checked Nat := do
  let start ← plus width walk.off start
  let stop ← plus width walk.off stop
  let bytes ← slice walk.buf start stop
  return littleEndian bytes

/-- `Messages::next`. -/
def nextMessage (walk : Walk) : Checked (Option (Lent Message × Walk)) := do
  let head ← plus width walk.off nlmsgHdr
  if walk.buf.length < head then return none
  else
    let len ← walk.number width 0 4
    let kind ← walk.number width 4 6
    let flags ← walk.number width 6 8
    let seq ← walk.number width 8 12
    match checkedAdd width walk.off len with
    | none => return none
    | some stop =>
        if len < nlmsgHdr ∨ walk.buf.length < stop then return none
        else
          let start ← plus width walk.off nlmsgHdr
          let payload ← slice walk.buf start stop
          let step ← alignUp width len
          let off ← plus width walk.off step
          let msg : Message := {
            kind := UInt16.ofNat kind
            flags := UInt16.ofNat flags
            seq := UInt32.ofNat seq
            payload }
          return some (⟨msg, start, stop⟩, { walk with off })

/-- `Attrs::next`. -/
def nextAttr (walk : Walk) : Checked (Option (Lent (UInt16 × List UInt8) × Walk)) := do
  let head ← plus width walk.off rtattrHdr
  if walk.buf.length < head then return none
  else
    let len ← walk.number width 0 2
    let kind ← walk.number width 2 4
    if len < rtattrHdr then return none
    else
      let stop ← plus width walk.off len
      if walk.buf.length < stop then return none
      else
        let start ← plus width walk.off rtattrHdr
        let value ← slice walk.buf start stop
        let step ← alignUp width len
        let off ← plus width walk.off step
        return some (⟨(UInt16.ofNat kind &&& 0x3fff, value), start, stop⟩, { walk with off })

/-- What a `for` loop over an iterator sees, within so many steps. -/
def drain {T : Type} (next : Walk → Checked (Option (T × Walk))) :
    Nat → Walk → Checked (Option (List T))
  | 0, _ => .ok none
  | steps + 1, walk => do
      let answer ← next walk
      match answer with
      | none => return some []
      | some (item, walk) =>
          let rest ← drain next steps walk
          return rest.map (item :: ·)

end Iterators

section Steps

variable {width : Nat}

theorem plus_ok {left right : Nat} (fits : left + right < 2 ^ width) :
    plus width left right = pure (left + right) := if_pos fits

theorem alignUp_ok {count : Nat} (fits : count + 3 < 2 ^ width) :
    alignUp width count = pure (align4 count) := by
  rw [alignUp, plus_ok fits]
  rfl

theorem slice_ok {buf : List UInt8} {start stop : Nat} (ordered : start ≤ stop)
    (within : stop ≤ buf.length) : slice buf start stop = pure ((buf.take stop).drop start) :=
  if_pos ⟨ordered, within⟩

variable {walk : Walk}

theorem Walk.number_ok {start stop : Nat} (ordered : start ≤ stop)
    (within : walk.off + stop ≤ walk.buf.length) (fits : walk.buf.length < 2 ^ width) :
    walk.number width start stop = pure (field (walk.buf.drop walk.off) start (stop - start)) := by
  have read : (walk.buf.take (walk.off + stop)).drop (walk.off + start) =
      ((walk.buf.drop walk.off).drop start).take (stop - start) := by
    rw [List.drop_take, List.drop_drop]
    congr 1
    omega
  rw [Walk.number, plus_ok (by omega), plus_ok (by omega), pure_bind, pure_bind,
    slice_ok (by omega) within, pure_bind, read]
  rfl

/-- What one step does with the records that are left: it ends with them, or it yields
the first and goes on behind its padding. -/
structure Follows {T : Type} (layout : Layout) (decode : List UInt8 → T) (width : Nat)
    (next : Walk → Checked (Option (Lent T × Walk))) : Prop where
  ended : ∀ walk, walk.buf.length < 2 ^ (width - 1) → walk.off < walk.buf.length + 4 →
    (field (walk.buf.drop walk.off) 0 layout.width < layout.header ∨
      (walk.buf.drop walk.off).length < field (walk.buf.drop walk.off) 0 layout.width) →
    next walk = .ok none
  taken : ∀ walk len, walk.buf.length < 2 ^ (width - 1) → walk.off < walk.buf.length + 4 →
    field (walk.buf.drop walk.off) 0 layout.width = len → layout.header ≤ len →
    len ≤ (walk.buf.drop walk.off).length →
    next walk = .ok (some (⟨decode ((walk.buf.drop walk.off).take len),
      walk.off + layout.header, walk.off + len⟩, ⟨walk.buf, walk.off + align4 len⟩))

/-- An offset a little behind a slice leaves room for every sum of the walks. -/
theorem room (wide : 32 ≤ width) (size : walk.buf.length < 2 ^ (width - 1))
    (near : walk.off < walk.buf.length + 4) :
    walk.off + 65536 ≤ 2 ^ width ∧ walk.buf.length + 65536 ≤ 2 ^ width := by
  have doubled : 2 ^ width = 2 * 2 ^ (width - 1) := by
    rw [← Nat.pow_succ']
    congr 1
    omega
  have large : 2 ^ 31 ≤ 2 ^ (width - 1) := Nat.pow_le_pow_right (by decide) (by omega)
  omega

theorem eq_of_checkedAdd {left right sum : Nat} (added : checkedAdd width left right = some sum) :
    sum = left + right := by
  rw [checkedAdd] at added
  split at added <;> simp_all

theorem nextMessage_follows (wide : 32 ≤ width) :
    Follows messageLayout Message.ofRecord width (nextMessage width) := by
  have read {walk : Walk} (fits : walk.buf.length < 2 ^ width)
      (long : walk.off + 16 ≤ walk.buf.length) {start stop : Nat} (ordered : start ≤ stop)
      (inside : stop ≤ 12) : walk.number width start stop =
        pure (field (walk.buf.drop walk.off) start (stop - start)) :=
    Walk.number_ok ordered (by omega) fits
  constructor
  · intro walk size near refused
    obtain ⟨offRoom, bufRoom⟩ := room wide size near
    rw [List.length_drop] at refused
    change field (walk.buf.drop walk.off) 0 4 < 16 ∨
      walk.buf.length - walk.off < field (walk.buf.drop walk.off) 0 4 at refused
    simp only [nextMessage, nlmsgHdr]
    rw [plus_ok (by omega), pure_bind]
    split
    · rfl
    · rename_i long
      rw [read (by omega) (by omega) (by omega) (by omega),
        read (by omega) (by omega) (by omega) (by omega),
        read (by omega) (by omega) (by omega) (by omega),
        read (by omega) (by omega) (by omega) (by omega)]
      simp only [pure_bind, Nat.sub_zero]
      cases added : checkedAdd width walk.off (field (walk.buf.drop walk.off) 0 4) with
      | none => rfl
      | some stop =>
          have sum := eq_of_checkedAdd added
          dsimp only
          rw [if_pos (by omega)]
          rfl
  · intro walk len size near stated headed within
    obtain ⟨offRoom, bufRoom⟩ := room wide size near
    rw [List.length_drop] at within
    have longer := align4_bounds len
    change 16 ≤ len at headed
    change field (walk.buf.drop walk.off) 0 4 = len at stated
    have added : checkedAdd width walk.off len = some (walk.off + len) := if_pos (by omega)
    simp only [nextMessage, nlmsgHdr]
    rw [plus_ok (by omega), pure_bind, if_neg (by omega),
      read (by omega) (by omega) (by omega) (by omega),
      read (by omega) (by omega) (by omega) (by omega),
      read (by omega) (by omega) (by omega) (by omega),
      read (by omega) (by omega) (by omega) (by omega)]
    simp only [pure_bind, Nat.sub_zero, stated, added, Nat.reduceSub]
    rw [if_neg (by omega), slice_ok (by omega) (by omega), alignUp_ok (by omega)]
    simp only [pure_bind]
    rw [plus_ok (by omega)]
    have payload : (walk.buf.take (walk.off + len)).drop (walk.off + 16) =
        ((walk.buf.drop walk.off).take len).drop 16 := by
      rw [← List.drop_drop, List.drop_take, Nat.add_sub_cancel_left]
    simp only [pure_bind, Message.ofRecord, nlmsgHdr]
    rw [field_take (by omega), field_take (by omega), field_take (by omega), payload]
    rfl

theorem nextAttr_follows (wide : 32 ≤ width) :
    Follows attrLayout attrOfRecord width (nextAttr width) := by
  have read {walk : Walk} (fits : walk.buf.length < 2 ^ width)
      (long : walk.off + 4 ≤ walk.buf.length) {start stop : Nat} (ordered : start ≤ stop)
      (inside : stop ≤ 4) : walk.number width start stop =
        pure (field (walk.buf.drop walk.off) start (stop - start)) :=
    Walk.number_ok ordered (by omega) fits
  constructor
  · intro walk size near refused
    obtain ⟨offRoom, bufRoom⟩ := room wide size near
    rw [List.length_drop] at refused
    change field (walk.buf.drop walk.off) 0 2 < 4 ∨
      walk.buf.length - walk.off < field (walk.buf.drop walk.off) 0 2 at refused
    have small : field (walk.buf.drop walk.off) 0 2 < 65536 := field_lt
    simp only [nextAttr, rtattrHdr]
    rw [plus_ok (by omega), pure_bind]
    split
    · rfl
    · rename_i long
      rw [read (by omega) (by omega) (by omega) (by omega),
        read (by omega) (by omega) (by omega) (by omega)]
      simp only [pure_bind, Nat.sub_zero]
      split
      · rfl
      · rw [plus_ok (by omega), pure_bind, if_pos (by omega)]
        rfl
  · intro walk len size near stated headed within
    obtain ⟨offRoom, bufRoom⟩ := room wide size near
    rw [List.length_drop] at within
    have longer := align4_bounds len
    change 4 ≤ len at headed
    change field (walk.buf.drop walk.off) 0 2 = len at stated
    simp only [nextAttr, rtattrHdr]
    rw [plus_ok (by omega), pure_bind, if_neg (by omega),
      read (by omega) (by omega) (by omega) (by omega),
      read (by omega) (by omega) (by omega) (by omega)]
    simp only [pure_bind, Nat.sub_zero, stated, Nat.reduceSub]
    rw [if_neg (by omega), plus_ok (by omega), pure_bind, if_neg (by omega),
      slice_ok (by omega) (by omega), alignUp_ok (by omega)]
    simp only [pure_bind]
    rw [plus_ok (by omega)]
    have value : (walk.buf.take (walk.off + len)).drop (walk.off + 4) =
        ((walk.buf.drop walk.off).take len).drop 4 := by
      rw [← List.drop_drop, List.drop_take, Nat.add_sub_cancel_left]
    simp only [pure_bind, attrOfRecord, rtattrHdr]
    rw [field_take (by omega), value]
    rfl

end Steps

section Runs

variable {T : Type} {layout : Layout} {decode : List UInt8 → T} {width : Nat}
  {next : Walk → Checked (Option (Lent T × Walk))}

/-- What a walk yields for a record, and where it lies. -/
def lend (layout : Layout) (decode : List UInt8 → T) (place : Nat × List UInt8) : Lent T :=
  ⟨decode place.2, place.1 + layout.header, place.1 + place.2.length⟩

/-- A walk yields the records of its buffer and ends, whatever bytes they are. -/
theorem Follows.drained (follows : Follows layout decode width next) {buf : List UInt8}
    (size : buf.length < 2 ^ (width - 1)) {off steps : Nat} (near : off < buf.length + 4)
    (enough : buf.length - off < steps) :
    drain next steps ⟨buf, off⟩ =
      .ok (some ((placed id off (layout.records (buf.drop off))).map (lend layout decode))) := by
  induction steps generalizing off with
  | zero => omega
  | succ steps ih =>
      by_cases refused : field (buf.drop off) 0 layout.width < layout.header ∨
          (buf.drop off).length < field (buf.drop off) 0 layout.width
      · rw [drain, follows.ended ⟨buf, off⟩ size near refused,
          Layout.records_nil_of_refused refused]
        rfl
      · have walked := Layout.records_of_taken refused
        generalize stated : field (buf.drop off) 0 layout.width = len at *
        have filled := layout.some
        have longer := align4_bounds len
        have within : len ≤ (buf.drop off).length := by omega
        have length : ((buf.drop off).take len).length = len := by simpa using within
        have inside : len ≤ buf.length - off := by simpa using within
        have later := @ih (off + align4 len) (by omega) (by omega)
        rw [drain, follows.taken ⟨buf, off⟩ len size near stated (by omega) within, walked,
          placed, id_eq, length, List.map_cons, List.drop_drop, lend, length]
        change (do let rest ← drain next steps ⟨buf, off + align4 len⟩; _) = _
        rw [later]
        rfl

/-- The bytes lent lie in the buffer, and no two of them overlap. -/
theorem lend_apart (buf : List UInt8) :
    ((placed id 0 (layout.records buf)).map (lend layout decode)).Pairwise
        (fun lent later => lent.stop ≤ later.start) ∧
      ∀ lent ∈ (placed id 0 (layout.records buf)).map (lend layout decode),
        lent.start ≤ lent.stop ∧ lent.stop ≤ buf.length := by
  constructor
  · rw [List.pairwise_map]
    apply (placed_apart id 0 (layout.records buf)).imp
    intro place later apart
    simp only [lend, id_eq] at apart ⊢
    omega
  · intro lent member
    obtain ⟨place, placedAt, lending⟩ := List.mem_map.mp member
    have headed := (Layout.records_holds (mem_of_mem_placed placedAt)).headed
    have ⟨ends, _⟩ := Layout.placed_records placedAt
    subst lending
    simp only [lend]
    omega

/-- The bytes lent are the record's, its header left out. -/
theorem lent_bytes {buf : List UInt8} {place : Nat × List UInt8}
    (member : place ∈ placed id 0 (layout.records buf)) :
    (buf.take (place.1 + place.2.length)).drop (place.1 + layout.header) =
      place.2.drop layout.header := by
  have ⟨_, read⟩ := Layout.placed_records member
  rw [← List.drop_drop, List.drop_take, Nat.add_sub_cancel_left, ← read]

end Runs

/-- What a walk that goes right comes to: it ends, with these items, each of them lent
from its own part of the buffer. -/
def Yields {T : Type} (next : Walk → Checked (Option (Lent T × Walk)))
    (bytes : T → List UInt8) (buf : List UInt8) (items : List T) : Prop :=
  ∃ lents : List (Lent T),
    (∀ steps, buf.length < steps → drain next steps ⟨buf, 0⟩ = .ok (some lents)) ∧
    lents.map (·.item) = items ∧
    lents.Pairwise (fun lent later => lent.stop ≤ later.start) ∧
    ∀ lent ∈ lents, lent.start ≤ lent.stop ∧ lent.stop ≤ buf.length ∧
      bytes lent.item = (buf.take lent.stop).drop lent.start

theorem Follows.yields {T : Type} {layout : Layout} {decode : List UInt8 → T} {width : Nat}
    {next : Walk → Checked (Option (Lent T × Walk))} (follows : Follows layout decode width next)
    {bytes : T → List UInt8} (behind : ∀ record, bytes (decode record) = record.drop layout.header)
    {buf : List UInt8} (size : buf.length < 2 ^ (width - 1)) :
    Yields next bytes buf ((layout.records buf).map decode) := by
  have apart := @lend_apart T layout decode buf
  have drained {steps : Nat} (enough : buf.length < steps) : drain next steps ⟨buf, 0⟩ =
      .ok (some ((placed id 0 (layout.records buf)).map (lend layout decode))) :=
    @Follows.drained _ _ _ _ _ follows buf size 0 steps (by omega) (by omega)
  refine ⟨_, fun steps enough => drained enough, ?_, apart.1, ?_⟩
  · have items := congrArg (List.map decode) (map_snd_placed id 0 (layout.records buf))
    rw [List.map_map] at items
    rw [List.map_map, ← items]
    rfl
  · intro lent member
    obtain ⟨ordered, within⟩ := apart.2 lent member
    obtain ⟨place, placedAt, lending⟩ := List.mem_map.mp member
    refine ⟨ordered, within, ?_⟩
    subst lending
    simp only [lend]
    rw [behind, lent_bytes placedAt]

/-- Both walks invert their encoders, read of a prefix what lies wholly in it, and end
without a panic on every buffer there can be. -/
theorem walks_exact :
    (∀ msgs : List Message, (∀ msg ∈ msgs, msg.Fits) →
      messages (encodeMessages msgs) = msgs ∧
      ∀ count, messages ((encodeMessages msgs).take count) =
        ((placed Message.record 0 msgs).filter fun place =>
          place.1 + place.2.record.length ≤ count).map Prod.snd) ∧
    (∀ list : List Attr, putAttrs [] list = some (encodeAttrs list) ∧
      attrs (encodeAttrs list) = list.map Attr.item ∧
      ∀ count, attrs ((encodeAttrs list).take count) =
        ((placed Attr.record 0 list).filter fun place =>
          place.1 + place.2.record.length ≤ count).map fun place => place.2.item) ∧
    ∀ width, 32 ≤ width → ∀ buf : Buffer width,
      Yields (nextMessage width) (·.payload) buf.bytes (messages buf.bytes) ∧
      Yields (nextAttr width) Prod.snd buf.bytes (attrs buf.bytes) := by
  refine ⟨?_, ?_, ?_⟩
  · intro msgs fits
    exact ⟨messages_encodeMessages fits, messages_take fits⟩
  · intro list
    exact ⟨putAttrs_eq [] list, attrs_encodeAttrs list, attrs_take list⟩
  · intro width wide buf
    rw [messages_eq, attrs_eq]
    constructor
    · exact (nextMessage_follows wide).yields (fun _ => rfl) buf.within
    · exact (nextAttr_follows wide).yields (fun _ => rfl) buf.within

end SriovMacSync.Netlink
