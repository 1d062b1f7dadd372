import Mathlib.Data.Finset.Dedup
import SriovMacSync.Data.Mac

namespace SriovMacSync.Netlink

open Data

/-- An interface index.  Within one boot the kernel never uses one again. -/
abbrev Index := UInt32

/-- Why the kernel refused a request. -/
inductive Errno where
  | exists
  | noEntry
  | other (code : Nat)
deriving DecidableEq, Repr

/-- One forwarding database entry as the kernel reports it. -/
structure FdbEntry where
  /-- the bridge port, or, for `self` entries, the interface whose own filter
  list holds it -/
  ifindex : Index
  /-- bridge the port belongs to, when the kernel says so -/
  master : Option Index
  mac : Mac
  state : UInt16
  flags : UInt8
deriving DecidableEq, Repr

inductive EventKind where
  | newNeigh
  | delNeigh
deriving DecidableEq, Repr

abbrev Event := EventKind × FdbEntry

def ntfSelf : UInt8 := 0x02
def ntfExtLearned : UInt8 := 0x10
def nudPermanent : UInt16 := 0x80
def nudNoArp : UInt16 := 0x40

namespace FdbEntry

/-- Picked up from traffic, as opposed to configured.  Entries an agent planted
count as learnt, static tunnel destinations do not. -/
def isLearned (entry : FdbEntry) : Bool :=
  if entry.flags &&& ntfSelf != 0 || entry.state &&& nudPermanent != 0 then false
  else if entry.flags &&& ntfExtLearned != 0 then true
  else entry.state &&& nudNoArp == 0

def isSelf (entry : FdbEntry) : Bool := entry.flags &&& ntfSelf != 0

def isUnicast (entry : FdbEntry) : Bool := entry.mac.isUnicast

end FdbEntry

/-- The card's own list out of a dump: its `self` entries, unicast only. -/
def selfList (entries : List FdbEntry) (ifindex : Index) : Finset Mac :=
  ((entries.filter fun entry =>
    entry.isSelf && entry.ifindex == ifindex && entry.isUnicast).map (·.mac)).toFinset

theorem mem_selfList {entries : List FdbEntry} {ifindex : Index} {mac : Mac} :
    mac ∈ selfList entries ifindex ↔
      ∃ entry ∈ entries, entry.isSelf = true ∧ entry.ifindex = ifindex ∧
        entry.isUnicast = true ∧ entry.mac = mac := by
  simp only [selfList, List.mem_toFinset, List.mem_map, List.mem_filter, Bool.and_eq_true,
    beq_iff_eq, and_assoc]

end SriovMacSync.Netlink
