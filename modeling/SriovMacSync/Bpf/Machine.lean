import Mathlib.Algebra.Group.Nat.Defs
import Mathlib.Data.List.Basic

namespace SriovMacSync.Bpf

/-! # Classic BPF

Straight-line programs over a packet, with an accumulator, an index register and
forward jumps.  A program is a list of encoded instructions; one that ends in no
verdict, or holds an instruction outside the fragment, has none.
-/

/-- `struct sock_filter`. -/
structure SockFilter where
  code : UInt16
  jt : UInt8 := 0
  jf : UInt8 := 0
  k : UInt32
deriving DecidableEq, Repr

/-- What an instruction code means. -/
inductive Opcode where
  | ldByteAbs
  | ldWordLen
  | jeqK
  | jgeK
  | lshK
  | orX
  | addK
  | andK
  | subX
  | tax
  | retK
deriving DecidableEq, Repr

def opcode : UInt16 → Option Opcode
  | 0x30 => some .ldByteAbs
  | 0x80 => some .ldWordLen
  | 0x15 => some .jeqK
  | 0x35 => some .jgeK
  | 0x64 => some .lshK
  | 0x4c => some .orX
  | 0x04 => some .addK
  | 0x54 => some .andK
  | 0x1c => some .subX
  | 0x07 => some .tax
  | 0x06 => some .retK
  | _ => none

structure Registers where
  a : BitVec 32 := 0
  x : BitVec 32 := 0

/-- A byte as a word of the machine. -/
def word (byte : UInt8) : BitVec 32 := byte.toBitVec.setWidth 32

@[simp] theorem word_toNat (byte : UInt8) : (word byte).toNat = byte.toNat := by
  have below := byte.toNat_lt
  rw [word, BitVec.toNat_setWidth, UInt8.toNat_toBitVec, Nat.mod_eq_of_lt (by omega)]

/-- A packet, whose length is a word of the machine. -/
structure Packet where
  bytes : List UInt8
  fits : bytes.length < 2 ^ 32

theorem rest_shorter (instruction : SockFilter) (rest : List SockFilter) :
    rest.length < (instruction :: rest).length := by simp

theorem jt_shorter (instruction : SockFilter) (rest : List SockFilter) :
    (rest.drop instruction.jt.toNat).length < (instruction :: rest).length := by
  rw [List.length_drop, List.length_cons]
  omega

theorem jf_shorter (instruction : SockFilter) (rest : List SockFilter) :
    (rest.drop instruction.jf.toNat).length < (instruction :: rest).length := by
  rw [List.length_drop, List.length_cons]
  omega

/-- The verdict of a program on a packet.  A load past the end is the verdict
zero. -/
def run (packet : Packet) : List SockFilter → Registers → Option (BitVec 32)
  | [], _ => none
  | instruction :: rest, regs =>
      let k := instruction.k.toBitVec
      match opcode instruction.code with
      | some .ldByteAbs =>
          match packet.bytes[k.toNat]? with
          | some byte => run packet rest { regs with a := word byte }
          | none => some 0
      | some .ldWordLen => run packet rest { regs with a := .ofNat 32 packet.bytes.length }
      | some .jeqK =>
          if regs.a = k then run packet (rest.drop instruction.jt.toNat) regs
          else run packet (rest.drop instruction.jf.toNat) regs
      | some .jgeK =>
          if k ≤ regs.a then run packet (rest.drop instruction.jt.toNat) regs
          else run packet (rest.drop instruction.jf.toNat) regs
      | some .lshK => run packet rest { regs with a := regs.a <<< k }
      | some .orX => run packet rest { regs with a := regs.a ||| regs.x }
      | some .addK => run packet rest { regs with a := regs.a + k }
      | some .andK => run packet rest { regs with a := regs.a &&& k }
      | some .subX => run packet rest { regs with a := regs.a - regs.x }
      | some .tax => run packet rest { regs with x := regs.a }
      | some .retK => some k
      | none => none
termination_by program => program.length
decreasing_by
  all_goals first
    | exact rest_shorter instruction rest
    | exact jt_shorter instruction rest
    | exact jf_shorter instruction rest

end SriovMacSync.Bpf
