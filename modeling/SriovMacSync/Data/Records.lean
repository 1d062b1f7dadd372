import Mathlib.Data.List.Basic
import Mathlib.Data.List.Pairwise
import SriovMacSync.Data.Bytes

namespace SriovMacSync.Data

/-! Records behind one another in a buffer.  A record states its own length at its
front, header included, and is padded to a multiple of four bytes. -/

/-- How many bytes a header has, and how many of these, at its front, are the length. -/
structure Layout where
  header : Nat
  width : Nat
  stated : width ≤ header
  some : 0 < header

/-- A number in its bytes, the least significant first. -/
def bytesOf : Nat → Nat → List UInt8
  | 0, _ => []
  | width + 1, number => UInt8.ofNat number :: bytesOf width (number / 256)

@[simp] theorem length_bytesOf (width number : Nat) : (bytesOf width number).length = width := by
  induction width generalizing number with
  | zero => rfl
  | succ width ih => simp [bytesOf, ih]

theorem littleEndian_bytesOf {width number : Nat} (fits : number < 256 ^ width) :
    littleEndian (bytesOf width number) = number := by
  induction width generalizing number with
  | zero => simp_all [bytesOf, littleEndian]
  | succ width ih =>
      have quotient : number / 256 < 256 ^ width := by
        rw [pow_succ] at fits
        omega
      rw [bytesOf, littleEndian, ih quotient, UInt8.toNat_ofNat']
      omega

section Fields

variable {bytes : List UInt8} {offset width : Nat}

/-- A field reads no byte behind itself. -/
theorem field_take {count : Nat} (within : offset + width ≤ count) :
    field (bytes.take count) offset width = field bytes offset width := by
  rw [field, field, List.drop_take, List.take_take, Nat.min_eq_left (by omega)]

theorem field_append_left {more : List UInt8} (within : offset + width ≤ bytes.length) :
    field (bytes ++ more) offset width = field bytes offset width := by
  have front : (bytes ++ more).take bytes.length = bytes := List.take_left
  rw [← field_take within, front]

theorem field_bytesOf {number : Nat} {more : List UInt8} (fits : number < 256 ^ width) :
    field (bytesOf width number ++ more) 0 width = number := by
  rw [field_append_left (by simp), field, List.drop_zero, List.take_of_length_le (by simp),
    littleEndian_bytesOf fits]

theorem field_lt : field bytes offset width < 256 ^ width := by
  have narrow : ((bytes.drop offset).take width).length ≤ width := by simp
  exact lt_of_lt_of_le (littleEndian_lt _) (Nat.pow_le_pow_right (by decide) narrow)

end Fields

theorem align4_bounds (count : Nat) : count ≤ align4 count ∧ align4 count < count + 4 := by
  unfold align4
  omega

namespace Layout

variable (layout : Layout)

/-- The records in a buffer, without their padding.  A trailing fragment is no record. -/
def records (buf : List UInt8) : List (List UInt8) :=
  if buf.length < layout.header then []
  else
    let len := field buf 0 layout.width
    if len < layout.header ∨ buf.length < len then []
    else buf.take len :: records (buf.drop (align4 len))
termination_by buf.length
decreasing_by
  have longer := le_align4 (field buf 0 layout.width)
  have filled := layout.some
  rw [List.length_drop]
  omega

/-- Bytes that are one record: a header at least, and the length it states. -/
structure Holds (record : List UInt8) : Prop where
  headed : layout.header ≤ record.length
  length : field record 0 layout.width = record.length

end Layout

/-- A record with the bytes that fill its last word. -/
def padded (record : List UInt8) : List UInt8 :=
  record ++ List.replicate (align4 record.length - record.length) 0

@[simp] theorem length_padded (record : List UInt8) :
    (padded record).length = align4 record.length := by
  have longer := le_align4 record.length
  simp [padded]
  omega

section Placing

variable {T : Type} (bytes : T → List UInt8)

/-- Items and where the record of each starts when these stand behind one another. -/
def placed : Nat → List T → List (Nat × T)
  | _, [] => []
  | start, item :: rest => (start, item) :: placed (start + align4 (bytes item).length) rest

theorem map_snd_placed (start : Nat) (items : List T) :
    (placed bytes start items).map Prod.snd = items := by
  induction items generalizing start with
  | nil => rfl
  | cons item rest ih => simp [placed, ih]

variable {bytes} {start : Nat} {items : List T} {place : Nat × T}

theorem le_of_mem_placed (member : place ∈ placed bytes start items) : start ≤ place.1 := by
  induction items generalizing start with
  | nil => cases member
  | cons item rest ih =>
      cases member with
      | head => exact le_refl _
      | tail _ later => exact le_trans (Nat.le_add_right _ _) (ih later)

theorem mem_of_mem_placed (member : place ∈ placed bytes start items) : place.2 ∈ items := by
  rw [← map_snd_placed bytes start items]
  exact List.mem_map_of_mem member

variable (bytes) in
/-- Each record ends before the next one starts. -/
theorem placed_apart (start : Nat) (items : List T) :
    (placed bytes start items).Pairwise fun place later =>
      place.1 + (bytes place.2).length ≤ later.1 := by
  induction items generalizing start with
  | nil => exact .nil
  | cons item rest ih =>
      apply List.Pairwise.cons _ (ih _)
      intro later member
      have behind := le_of_mem_placed member
      have longer := le_align4 (bytes item).length
      dsimp only
      omega

end Placing

namespace Layout

variable {layout : Layout}

theorem records_nil_of_short {buf : List UInt8} (short : buf.length < layout.header) :
    layout.records buf = [] := by
  rw [records, if_pos short]

theorem records_nil_of_refused {buf : List UInt8}
    (refused : field buf 0 layout.width < layout.header ∨ buf.length < field buf 0 layout.width) :
    layout.records buf = [] := by
  rw [records]
  simp only [refused, if_true, ite_self]

theorem records_of_taken {buf : List UInt8}
    (taken : ¬ (field buf 0 layout.width < layout.header ∨
      buf.length < field buf 0 layout.width)) :
    layout.records buf = buf.take (field buf 0 layout.width) ::
      layout.records (buf.drop (align4 (field buf 0 layout.width))) := by
  rw [records, if_neg (by omega)]
  simp only [taken, if_false]

/-- The walk of a buffer ends at once, or takes a record the buffer holds and goes on
behind its padding. -/
@[elab_as_elim] theorem records_induction {motive : List UInt8 → Prop}
    (ended : ∀ buf, layout.records buf = [] → motive buf)
    (taken : ∀ buf len, field buf 0 layout.width = len → layout.header ≤ len →
      len ≤ buf.length →
      layout.records buf = buf.take len :: layout.records (buf.drop (align4 len)) →
      motive (buf.drop (align4 len)) → motive buf)
    (buf : List UInt8) : motive buf := by
  by_cases refused : field buf 0 layout.width < layout.header ∨
      buf.length < field buf 0 layout.width
  · exact ended buf (records_nil_of_refused refused)
  · have longer := le_align4 (field buf 0 layout.width)
    have filled := layout.some
    apply taken buf _ rfl (by omega) (by omega) (records_of_taken refused)
    exact records_induction ended taken (buf.drop (align4 (field buf 0 layout.width)))
termination_by buf.length
decreasing_by
  rw [List.length_drop]
  omega

theorem records_holds {buf record : List UInt8} (member : record ∈ layout.records buf) :
    layout.Holds record := by
  induction buf using @records_induction layout with
  | ended buf empty => simp [empty] at member
  | taken buf len stated headed within walked ih =>
      rw [walked] at member
      cases List.mem_cons.mp member with
      | inl first =>
          have size : record.length = len := by
            rw [first, List.length_take]
            omega
          have narrow := layout.stated
          constructor
          · omega
          · rw [size, first, field_take (by omega), stated]
      | inr later => exact ih later

private theorem placed_records_from {buf : List UInt8} {start : Nat} {place : Nat × List UInt8}
    (member : place ∈ placed id start (layout.records buf)) :
    place.1 - start + place.2.length ≤ buf.length ∧
      place.2 = (buf.drop (place.1 - start)).take place.2.length := by
  induction buf using @records_induction layout generalizing start with
  | ended buf empty => simp [empty, placed] at member
  | taken buf len stated headed within walked ih =>
      have size : (buf.take len).length = len := by
        rw [List.length_take]
        omega
      rw [walked, placed, id_eq, size] at member
      cases List.mem_cons.mp member with
      | inl first =>
          subst first
          simp only [Nat.sub_self, Nat.zero_add, List.drop_zero]
          exact ⟨by omega, by rw [size]⟩
      | inr later =>
          have behind := le_of_mem_placed later
          have ⟨ends, read⟩ := ih later
          rw [List.length_drop] at ends
          rw [List.drop_drop] at read
          have offset : align4 len + (place.1 - (start + align4 len)) = place.1 - start := by omega
          have filled := layout.some
          have record := (records_holds (mem_of_mem_placed later)).headed
          exact ⟨by omega, by rwa [offset] at read⟩

/-- Every record is read off the buffer where it is placed, and ends within it. -/
theorem placed_records {buf : List UInt8} {place : Nat × List UInt8}
    (member : place ∈ placed id 0 (layout.records buf)) :
    place.1 + place.2.length ≤ buf.length ∧
      place.2 = (buf.drop place.1).take place.2.length := by
  simpa using placed_records_from member

/-- A record in front of anything comes out, and what stands behind its padding is
read as it would be alone. -/
theorem records_padded {record rest : List UInt8} (holds : layout.Holds record) :
    layout.records (padded record ++ rest) = record :: layout.records rest := by
  have longer := le_align4 record.length
  have headed := holds.headed
  have stated := layout.stated
  have front : padded record ++ rest = record ++ (List.replicate
      (align4 record.length - record.length) 0 ++ rest) := List.append_assoc ..
  have length : field (padded record ++ rest) 0 layout.width = record.length := by
    rw [front, field_append_left (by omega), holds.length]
  have roomy : record.length ≤ (padded record ++ rest).length := by simp; omega
  rw [records, if_neg (by omega)]
  simp only [length]
  rw [if_neg (by omega)]
  congr 1
  · rw [front, List.take_left]
  · rw [← length_padded record, List.drop_left]

/-- A prefix that ends within a record holds none. -/
theorem records_take_of_short {record rest : List UInt8} {count : Nat}
    (holds : layout.Holds record) (short : count < record.length) :
    layout.records ((padded record ++ rest).take count) = [] := by
  have stated := layout.stated
  have longer := le_align4 record.length
  rw [records]
  split
  · rfl
  · rename_i long
    have size : ((padded record ++ rest).take count).length = count := by
      simp
      omega
    have length : field ((padded record ++ rest).take count) 0 layout.width = record.length := by
      rw [size] at long
      rw [field_take (by omega), padded, List.append_assoc, field_append_left (by
        have headed := holds.headed
        omega), holds.length]
    simp only [length, size]
    rw [if_pos (by omega)]

/-- A prefix that ends within the padding holds the record. -/
theorem records_take_of_padding {record rest : List UInt8} {count : Nat}
    (holds : layout.Holds record) (whole : record.length ≤ count)
    (ends : count < align4 record.length) :
    layout.records ((padded record ++ rest).take count) = [record] := by
  have headed := holds.headed
  have stated := layout.stated
  have size : ((padded record ++ rest).take count).length = count := by
    simp
    omega
  have length : field ((padded record ++ rest).take count) 0 layout.width = record.length := by
    rw [field_take (by omega), padded, List.append_assoc, field_append_left (by omega),
      holds.length]
  rw [records, if_neg (by omega)]
  simp only [length]
  rw [if_neg (by omega)]
  congr 1
  · rw [List.take_take, Nat.min_eq_left whole, padded, List.append_assoc, List.take_left]
  · rw [records_nil_of_short]
    rw [List.length_drop, size, Nat.sub_eq_zero_of_le (by omega)]
    exact layout.some

section Written

variable {T : Type} {bytes : T → List UInt8} {items : List T}

/-- Of records behind one another, any prefix of the bytes holds those that lie
wholly within it. -/
theorem records_take {start : Nat} (holds : ∀ item ∈ items, layout.Holds (bytes item))
    (count : Nat) :
    layout.records ((items.flatMap fun item => padded (bytes item)).take count) =
      ((placed bytes start items).filter fun place =>
        place.1 - start + (bytes place.2).length ≤ count).map fun place => bytes place.2 := by
  induction items generalizing start count with
  | nil => simp [placed, records_nil_of_short, layout.some]
  | cons item rest ih =>
      have first := holds item (by simp)
      have others : ∀ other ∈ rest, layout.Holds (bytes other) := fun other member =>
        holds other (by simp [member])
      have longer := align4_bounds (bytes item).length
      have later {place : Nat × T}
          (member : place ∈ placed bytes (start + align4 (bytes item).length) rest) :
          start + align4 (bytes item).length ≤ place.1 ∧
            layout.header ≤ (bytes place.2).length :=
        ⟨le_of_mem_placed member, (others _ (mem_of_mem_placed member)).headed⟩
      have filled := layout.some
      rw [List.flatMap_cons, placed]
      by_cases short : count < (bytes item).length
      · rw [records_take_of_short first short, eq_comm, List.map_eq_nil_iff, List.filter_eq_nil_iff]
        intro place member
        cases member with
        | head => simpa using short
        | tail _ member =>
            have := later member
            simp
            omega
      by_cases ends : count < align4 (bytes item).length
      · have none : (placed bytes (start + align4 (bytes item).length) rest).filter (fun place =>
            decide (place.1 - start + (bytes place.2).length ≤ count)) = [] := by
          rw [List.filter_eq_nil_iff]
          intro place member
          have := later member
          simp
          omega
        rw [records_take_of_padding first (by omega) ends, List.filter_cons_of_pos (by simp; omega),
          none]
        rfl
      · have front : (padded (bytes item) ++ rest.flatMap fun item => padded (bytes item)).take
            count = padded (bytes item) ++ (rest.flatMap fun item => padded (bytes item)).take
              (count - align4 (bytes item).length) := by
          rw [List.take_append, List.take_of_length_le (by simp; omega), length_padded]
        rw [front, records_padded first, List.filter_cons_of_pos (by simp; omega), List.map_cons,
          @ih (start + align4 (bytes item).length) others]
        congr 2
        apply List.filter_congr
        intro place member
        have := later member
        rw [decide_eq_decide]
        omega

/-- Records behind one another come back. -/
theorem records_written (holds : ∀ item ∈ items, layout.Holds (bytes item)) :
    layout.records (items.flatMap fun item => padded (bytes item)) = items.map bytes := by
  induction items with
  | nil => simp [records_nil_of_short, layout.some]
  | cons item rest ih =>
      rw [List.flatMap_cons, records_padded (holds item (by simp)),
        ih fun other member => holds other (by simp [member])]
      rfl

end Written

end Layout

end SriovMacSync.Data
