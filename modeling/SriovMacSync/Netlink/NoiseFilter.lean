import SriovMacSync.Bpf.Machine
import SriovMacSync.Netlink.Messages

namespace SriovMacSync.Netlink

open Data Bpf

/-! The kernel-side noise filter of the subscription socket. -/

def stmt (code : UInt16) (k : UInt32) : SockFilter := { code, k }

def jump (code : UInt16) (k : UInt32) (jt jf : UInt8) : SockFilter := { code, jt, jf, k }

def accept : UInt32 := 0xffffffff

def noiseFilter : List SockFilter := [
  stmt 0x30 2,                  -- nlmsg_len, third byte
  jump 0x15 0 0 18,             -- != 0: >= 64 KiB, accept
  stmt 0x30 3,                  -- nlmsg_len, fourth byte
  jump 0x15 0 0 16,             -- != 0: accept
  stmt 0x30 1,
  stmt 0x64 8,
  stmt 0x07 0,
  stmt 0x30 0,
  stmt 0x4c 0,                  -- nlmsg_len, rebuilt from two bytes
  stmt 0x04 3,
  stmt 0x54 0xfffffffc,         -- align4(nlmsg_len)
  stmt 0x07 0,
  stmt 0x80 0,
  stmt 0x1c 0,                  -- room behind the first message
  jump 0x35 16 5 0,             -- a second header fits: accept
  stmt 0x30 5,                  -- nlmsg_type, high byte
  jump 0x15 0 0 3,              -- >= 256: accept
  stmt 0x30 4,                  -- nlmsg_type, low byte
  jump 0x15 28 2 0,
  jump 0x15 29 1 0,
  stmt 0x06 accept,             -- everything not proven a lone neighbour message
  stmt 0x30 16,                 -- ndm_family
  jump 0x15 7 0 1,
  stmt 0x06 accept,             -- the bridge talking: deliver
  stmt 0x06 0]                  -- dropped in the kernel

/-- A word with its low two bits cleared. -/
theorem toNat_masked (word : BitVec 32) : (word &&& 4294967292#32).toNat = word.toNat / 4 * 4 := by
  have shifted : word &&& 4294967292#32 = (word >>> 2) <<< 2 := by
    ext i bound
    have cases : i = 0 ∨ i = 1 ∨ 2 ≤ i := by omega
    rcases cases with rfl | rfl | high
    · simp
    · simp
    · have mask : (4294967292#32).getLsbD i = true := by
        have values : ∀ i < 32, 2 ≤ i → (4294967292#32).getLsbD i = true := by decide
        exact values i bound high
      simp [high, mask, bound, Nat.not_lt.mpr high]
  have below := word.isLt
  rw [shifted, BitVec.toNat_shiftLeft, BitVec.toNat_ushiftRight, Nat.shiftRight_eq_div_pow,
    Nat.shiftLeft_eq, Nat.mod_eq_of_lt (by omega)]

/-- The message length rebuilt from its low bytes, padded. -/
theorem toNat_padded (low high : UInt8) :
    (((word low ||| word high <<< 8) + 3#32) &&& 4294967292#32).toNat =
      align4 (low.toNat + 256 * high.toNat) := by
  have lowBelow := low.toNat_lt
  have highBelow := high.toNat_lt
  have rebuilt : (word low ||| word high <<< 8).toNat = low.toNat + 256 * high.toNat := by
    rw [BitVec.toNat_or, BitVec.toNat_shiftLeft, word_toNat, word_toNat,
      Nat.mod_eq_of_lt (by rw [Nat.shiftLeft_eq]; omega), Nat.or_comm,
      ← Nat.shiftLeft_add_eq_or_of_lt (by omega), Nat.shiftLeft_eq]
    omega
  rw [toNat_masked, BitVec.toNat_add, rebuilt, align4,
    Nat.mod_eq_of_lt (by show low.toNat + 256 * high.toNat + 3 < 2 ^ 32; omega)]
  rfl

/-- Fewer than a header's bytes lie behind the padded message; a message that
reaches past the end wraps around and does not count. -/
theorem room_iff {length padded : Nat} {word : BitVec 32} (fits : length < 2 ^ 32)
    (same : word.toNat = padded) (small : padded ≤ 65536) :
    ¬ 16#32 ≤ BitVec.ofNat 32 length - word ↔ padded ≤ length ∧ length < padded + 16 := by
  have exact : (BitVec.ofNat 32 length).toNat = length := by
    rw [BitVec.toNat_ofNat, Nat.mod_eq_of_lt fits]
  rw [BitVec.le_def, BitVec.toNat_sub, exact, same, show (16#32).toNat = 16 from rfl, not_le]
  by_cases behind : padded ≤ length
  · rw [show 2 ^ 32 - padded + length = 2 ^ 32 + (length - padded) by omega, Nat.add_mod_left,
      Nat.mod_eq_of_lt (by omega)]
    omega
  · rw [Nat.mod_eq_of_lt (by omega)]
    omega

theorem word_eq_iff {byte : UInt8} {value : Nat} (small : value < 256) :
    word byte = BitVec.ofNat 32 value ↔ byte.toNat = value := by
  rw [← BitVec.toNat_inj, word_toNat, BitVec.toNat_ofNat, Nat.mod_eq_of_lt (by omega)]

/-- The program on a datagram that holds a header. -/
theorem run_noiseFilter {b0 b1 b2 b3 b4 b5 b6 b7 b8 b9 b10 b11 b12 b13 b14 b15 : UInt8}
    {rest : List UInt8}
    (fits : (b0 :: b1 :: b2 :: b3 :: b4 :: b5 :: b6 :: b7 :: b8 :: b9 :: b10 :: b11 :: b12 :: b13 ::
      b14 :: b15 :: rest).length < 2 ^ 32) :
    run ⟨_, fits⟩ noiseFilter {} =
      let judged :=
        match rest[0]? with
        | some family => if word family = 7#32 then some accept.toBitVec else some 0
        | none => some 0
      if word b2 = 0#32 then
        if word b3 = 0#32 then
          if 16#32 ≤ BitVec.ofNat 32 (rest.length + 16) -
              (((word b0 ||| word b1 <<< 8) + 3#32) &&& 4294967292#32) then some accept.toBitVec
          else if word b5 = 0#32 then
            if word b4 = 28#32 then judged
            else if word b4 = 29#32 then judged
            else some accept.toBitVec
          else some accept.toBitVec
        else some accept.toBitVec
      else some accept.toBitVec := by
  simp [run, opcode, noiseFilter, stmt, jump] <;> rfl

/-- What the program drops, once there is a header to look at. -/
theorem dropped_iff {packet : Packet} (whole : nlmsgHdr ≤ packet.bytes.length) :
    run packet noiseFilter {} = some 0 ↔
      field packet.bytes 0 4 < 65536 ∧
      align4 (field packet.bytes 0 4) ≤ packet.bytes.length ∧
      packet.bytes.length < align4 (field packet.bytes 0 4) + 16 ∧
      (field packet.bytes 4 2 = 28 ∨ field packet.bytes 4 2 = 29) ∧
      packet.bytes[16]? ≠ some afBridge := by
  obtain ⟨bytes, fits⟩ := packet
  match bytes, fits, whole with
  | b0 :: b1 :: b2 :: b3 :: b4 :: b5 :: b6 :: b7 :: b8 :: b9 :: b10 :: b11 :: b12 :: b13 :: b14 ::
      b15 :: rest, fits, _ =>
    have length : field (b0 :: b1 :: b2 :: b3 :: b4 :: b5 :: b6 :: b7 :: b8 :: b9 :: b10 :: b11 ::
        b12 :: b13 :: b14 :: b15 :: rest) 0 4 =
          b0.toNat + 256 * (b1.toNat + 256 * (b2.toNat + 256 * b3.toNat)) := by
      simp [field, littleEndian]
    have kind : field (b0 :: b1 :: b2 :: b3 :: b4 :: b5 :: b6 :: b7 :: b8 :: b9 :: b10 :: b11 ::
        b12 :: b13 :: b14 :: b15 :: rest) 4 2 = b4.toNat + 256 * b5.toNat := by
      simp [field, littleEndian]
    have zero {byte : UInt8} : word byte = 0#32 ↔ byte.toNat = 0 := word_eq_iff (by decide)
    have added {byte : UInt8} : word byte = 28#32 ↔ byte.toNat = 28 := word_eq_iff (by decide)
    have deleted {byte : UInt8} : word byte = 29#32 ↔ byte.toNat = 29 := word_eq_iff (by decide)
    have family {byte : UInt8} : word byte = 7#32 ↔ byte = afBridge := by
      rw [← UInt8.toNat_inj]
      exact word_eq_iff (by decide)
    have kept : accept.toBitVec ≠ 0#32 := by decide
    have judged : (match rest[0]? with
        | some family => if word family = 7#32 then some accept.toBitVec else some 0
        | none => some 0) = some 0 ↔ rest[0]? ≠ some afBridge := by
      cases rest[0]? with
      | none => simp
      | some byte => simp [family, kept]
    have lowBelow := b0.toNat_lt
    have highBelow := b1.toNat_lt
    have kindBelow := b4.toNat_lt
    have room := room_iff fits (toNat_padded b0 b1) (by unfold align4; omega)
    have delivered : (some accept.toBitVec : Option (BitVec 32)) ≠ some 0 := by decide
    rw [run_noiseFilter fits, length, kind]
    dsimp only
    simp only [zero, added, deleted]
    by_cases third : b2.toNat = 0
    · by_cases fourth : b3.toNat = 0
      · rw [if_pos third, if_pos fourth, third, fourth]
        simp only [Nat.mul_zero, Nat.add_zero, List.length_cons, Nat.add_assoc, Nat.reduceAdd]
        by_cases alone : 16#32 ≤ BitVec.ofNat 32 (rest.length + 16) -
            (((word b0 ||| word b1 <<< 8) + 3#32) &&& 4294967292#32)
        · rw [if_pos alone]
          exact iff_of_false delivered fun dropped => absurd alone (room.mpr ⟨dropped.2.1, dropped.2.2.1⟩)
        · obtain ⟨within, lone⟩ := room.mp alone
          have listed : (b0 :: b1 :: b2 :: b3 :: b4 :: b5 :: b6 :: b7 :: b8 :: b9 :: b10 :: b11 ::
              b12 :: b13 :: b14 :: b15 :: rest)[16]? = rest[0]? := rfl
          rw [if_neg alone, listed]
          by_cases fifth : b5.toNat = 0
          · rw [if_pos fifth, fifth, Nat.mul_zero, Nat.add_zero]
            by_cases new : b4.toNat = 28
            · rw [if_pos new, judged]
              exact ⟨fun other => ⟨by omega, within, lone, .inl new, other⟩, fun dropped => dropped.2.2.2.2⟩
            · rw [if_neg new]
              by_cases del : b4.toNat = 29
              · rw [if_pos del, judged]
                exact ⟨fun other => ⟨by omega, within, lone, .inr del, other⟩,
                  fun dropped => dropped.2.2.2.2⟩
              · rw [if_neg del]
                exact iff_of_false delivered fun dropped => by omega
          · rw [if_neg fifth]
            exact iff_of_false delivered fun dropped => by omega
      · rw [if_pos third, if_neg fourth]
        exact iff_of_false delivered fun dropped => by omega
    · rw [if_neg third]
      exact iff_of_false delivered fun dropped => by omega

/-- One neighbour message of another family than the bridge's, shorter than 64 KiB
and with less than a second header behind its padded end. -/
structure IsNoise (datagram : List UInt8) : Prop where
  header : nlmsgHdr ≤ datagram.length
  short : field datagram 0 4 < 65536
  neighbour : field datagram 4 2 = 28 ∨ field datagram 4 2 = 29
  body : nlmsgHdr < field datagram 0 4
  padded : align4 (field datagram 0 4) ≤ datagram.length
  alone : datagram.length < align4 (field datagram 0 4) + nlmsgHdr
  family : datagram[nlmsgHdr]? ≠ some afBridge

theorem collectEvent_foreign {out : Events} {msg : Message}
    (neighbour : msg.kind = rtmNewNeigh ∨ msg.kind = rtmDelNeigh)
    (foreign : msg.payload.head? ≠ some afBridge) : collectEvent out msg = out := by
  have unlinked : ¬ (msg.kind = rtmNewLink ∨ msg.kind = rtmDelLink) := by
    rcases neighbour with kind | kind <;> rw [kind] <;> decide
  have heard : ¬ (msg.kind ≠ rtmNewNeigh ∧ msg.kind ≠ rtmDelNeigh) := by
    rintro ⟨notNew, notDel⟩
    exact neighbour.elim notNew notDel
  rw [collectEvent, if_neg unlinked, if_neg heard, if_pos foreign]

/-- An ARP entry of the neighbour table. -/
def arpNotice : Packet where
  bytes := [28, 0, 0, 0, 28, 0, 0, 0, 0, 0, 0, 0, 0, 0, 0, 0, 2, 0, 0, 0, 3, 0, 0, 0, 2, 0, 0, 1]
  fits := by decide

end SriovMacSync.Netlink
