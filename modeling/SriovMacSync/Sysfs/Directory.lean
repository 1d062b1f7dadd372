import SriovMacSync.Cache.NoteText
import SriovMacSync.Sync.Ports

namespace SriovMacSync.Sysfs

open Data Netlink Interaction Interaction.Action

/-! # What the link dump leaves out

An interface's directory under `/sys/class/net` is asked by name, one file after another,
while the names may change.  What cannot change while an index lives is kept under the
index and believed as long as it fits the reading. -/

/-- One interface as the kernel describes it. -/
structure LinkInfo where
  index : Index
  name : Name
  mac : Option Mac := none
  /-- what this interface is enslaved to -/
  master : Option Index := none
  /-- for a VLAN the device it sits on, for a veth its peer -/
  link : Option Index := none
  kind : Option String := none
  ageing : Option UInt32 := none
  /-- the bus device behind this interface, when the kernel names one -/
  parentDev : Option String := none
deriving DecidableEq, Repr

/-- A question to the directory of an interface. -/
inductive SysfsCall where
  /-- is there a `device` directory? -/
  | isDevice (name : Name)
  | ifindex (name : Name)
  | numvfs (name : Name)
  /-- the last part of what `device/driver` leads to -/
  | driver (name : Name)
  /-- the last part of what `device` leads to -/
  | device (name : Name)
  /-- is there a `device/physfn`? -/
  | hasPhysfn (name : Name)
  /-- the netdevs under `device/physfn/net` -/
  | physfnNet (name : Name)
  /-- the entries of `device/physfn` -/
  | physfnEntries (name : Name)
  /-- the last part of what an entry of `device/physfn` leads to -/
  | physfnEntry (name : Name) (entry : Text)
deriving DecidableEq

abbrev SysfsReply : SysfsCall → Type
  | .isDevice _ | .hasPhysfn _ => Bool
  | .ifindex _ | .numvfs _ => Option Text
  | .driver _ | .device _ | .physfnEntry .. => Option String
  | .physfnNet _ => Option (List Name)
  | .physfnEntries _ => Option (List Text)

/-- What sysfs says about an interface and cannot change while its index lives. -/
structure DeviceFacts where
  driver : Option String := none
  /-- names of the physical function's netdevs -/
  pfNetdevs : List Name := []
  isVf : Bool := false
  /-- which of its physical function's functions this is -/
  vfNumber : Option UInt32 := none
deriving DecidableEq, Repr

/-- The facts as this process holds them, by index. -/
abbrev Facts := Index → Option DeviceFacts

abbrev Query := Action Facts SysfsCall SysfsReply

def ask (request : SysfsCall) : Query (SysfsReply request) := Action.ask request

/-- A number in a file, as `read_trim` and `str::parse` see it. -/
def numberIn (text : Option Text) : Option UInt32 := text.bind fun text => parseIndex (Cache.trim text)

def virtfn : Text := "virtfn".toList

/-- The number an entry of the physical function's directory counts a function by. -/
def virtfnNumber (entry : Text) : Option UInt32 :=
  if virtfn.isPrefixOf entry then parseIndex (entry.drop virtfn.length) else none

/-- The first numbered entry that leads to this function. -/
def findVirtfn (name : Name) (own : String) : List Text → Query (Option UInt32)
  | [] => return none
  | entry :: rest => do
      match virtfnNumber entry with
      | none => findVirtfn name own rest
      | some number =>
          let target : Option String ← ask (.physfnEntry name entry)
          if target = some own then return some number
          else findVirtfn name own rest

/-- Which of its physical function's virtual functions the interface is. -/
def vfNumberOf (name : Name) : Query (Option UInt32) := do
  let own : Option String ← ask (.device name)
  match own with
  | none => return none
  | some own =>
      let entries : Option (List Text) ← ask (.physfnEntries name)
      match entries with
      | none => return none
      | some entries => findVirtfn name own entries

/-- Whether the directory answers for this interface. -/
def answersFor (name : Name) (index : Index) : Query Bool := do
  let text : Option Text ← ask (.ifindex name)
  return numberIn text = some index

/-- The facts as the directory gives them, unless it moved under the reading. -/
def readFacts (name : Name) (index : Index) : Query (Option DeviceFacts) := do
  let driver : Option String ← ask (.driver name)
  let netdevs : Option (List Name) ← ask (.physfnNet name)
  let isVf : Bool ← ask (.hasPhysfn name)
  let vfNumber ← vfNumberOf name
  if ← answersFor name index then return some ⟨driver, netdevs.getD [], isVf, vfNumber⟩
  else return none

/-- The facts kept for an index, read again when they no longer fit or there are none.
Nothing is kept of a reading that fails. -/
def deviceFacts (index : Index) (stale : DeviceFacts → Bool) (read : Query (Option DeviceFacts)) :
    Query (Option DeviceFacts) := do
  match ((← get) index).filter (!stale ·) with
  | some facts => return some facts
  | none =>
      match ← read with
      | some fresh =>
          modify (Function.update · index (some fresh))
          return some fresh
      | none => return none

end SriovMacSync.Sysfs
