import SriovMacSync.Custody.Operations

namespace SriovMacSync

open Data Netlink Interaction Interaction.Action

/-! # One uplink among processes

The note and the card of one uplink, with the entries this program put there, and
any number of processes at work.  Readings of them are truthful; everything else
the processes ask is answered in any way at all. -/

structure Ground (Process : Type) where
  /-- what the note on disk names -/
  note : Finset Mac
  /-- the filter list of the interface -/
  card : Finset Mac
  /-- the entries a process put there and none removed since -/
  ours : Finset Mac
  /-- the entries other parties put there and did not remove since -/
  foreign : Finset Mac := ∅
  /-- who holds the note's lock -/
  holder : Option Process := none

/-- How the surroundings may behave. -/
structure Terms (Process : Type) where
  /-- a write to the note may fail -/
  writesFail : Prop := False
  readsFail : Prop := False
  /-- a filter write may be refused for no reason of content, by whether it adds and
  whether it took effect all the same -/
  refuses : (add effective : Bool) → Prop := fun _ _ => False
  /-- an addition of what is there is refused for just that -/
  honest : Prop := False
  /-- other parties are at work on the card -/
  shared : Prop := False
  /-- a process may be cut short at any point and another take its place, with
  whatever it remembers -/
  mortal : Prop := False
  /-- the sections a run enters -/
  admits : Ground Process → Section → Prop := fun _ _ => True

namespace Ground

variable {Process : Type} (ground : Ground Process)

def put (mac : Mac) : Ground Process :=
  { ground with card := insert mac ground.card, ours := insert mac ground.ours }

def take (mac : Mac) : Ground Process :=
  { ground with card := ground.card \ {mac}, ours := ground.ours \ {mac} }

/-- What a dump shows of the filter list. -/
def listed : Finset Mac := ground.card.filter (·.isUnicast)

/-- The books of the uplink. -/
def ledger : Ledger := ⟨ground.note, ground.ours⟩

/-- The refusal that only says what the card holds. -/
def expected (add : Bool) : Errno := if add then .exists else .noEntry

/-- How a filter write may go. -/
inductive Writes (terms : Terms Process) (mac : Mac) :
    Bool → Except Errno Unit → Ground Process → Prop where
  | put (absent : mac ∉ ground.card) : Writes terms mac true (.ok ()) (ground.put mac)
  | present (held : mac ∈ ground.card) : Writes terms mac true (.error .exists) ground
  | taken (held : mac ∈ ground.card) : Writes terms mac false (.ok ()) (ground.take mac)
  | missing (absent : mac ∉ ground.card) : Writes terms mac false (.error .noEntry) ground
  | refused {add : Bool} {errno : Errno} (other : errno ≠ expected add)
      (allowed : terms.refuses add false)
      (fits : terms.honest → add = true → mac ∉ ground.card) :
      Writes terms mac add (.error errno) ground
  | putRefused {errno : Errno} (absent : mac ∉ ground.card) (other : errno ≠ .exists)
      (allowed : terms.refuses true true) : Writes terms mac true (.error errno) (ground.put mac)
  | takenRefused {errno : Errno} (held : mac ∈ ground.card) (other : errno ≠ .noEntry)
      (allowed : terms.refuses false true) :
      Writes terms mac false (.error errno) (ground.take mac)

/-- A write to the note takes effect whole or not at all. -/
def Rewrites (terms : Terms Process) (intended : Finset Mac) (done : Bool)
    (after : Ground Process) : Prop :=
  after = { ground with note := intended } ∧ (done = true ∨ terms.writesFail) ∨
    terms.writesFail ∧ done = false ∧ after = ground

section

variable [DecidableEq Process]

def hold (process : Process) : Ground Process := { ground with holder := some process }

def release (process : Process) : Ground Process :=
  if ground.holder = some process then { ground with holder := none } else ground

/-- How the surroundings may answer a process. -/
def Answers (terms : Terms Process) (dev : Name) (home : Index) (process : Process) :
    (request : Call) → Reply request → Ground Process → Prop
  | .lock name work, _, after =>
      if name = dev then
        ground.holder = none ∧ terms.admits ground work ∧ after = ground.hold process
      else after = ground
  | .unlock name, _, after => after = if name = dev then ground.release process else ground
  | .readNote name, reading, after =>
      after = ground ∧ (name = dev →
        reading.Shows ground.note ∨ terms.readsFail ∧ reading = .unreadable)
  | .putNote name macs, done, after =>
      if name = dev then ground.Rewrites terms macs.toFinset done after else after = ground
  | .appendNote name macs, done, after =>
      if name = dev then ground.Rewrites terms (ground.note ∪ macs.toFinset) done after
      else after = ground
  | .removeNote name, _, after =>
      if name = dev then
        after = { ground with note := ∅ } ∨ terms.writesFail ∧ after = ground
      else after = ground
  | .setSelfFdb index mac add, reply, after =>
      if index = home then ground.Writes terms mac add reply after else after = ground
  | .dumpFdb, reading, after =>
      after = ground ∧ ∀ fdb, reading = .ok fdb → selfList fdb home = ground.listed
  | .dumpFdbOf index, reading, after =>
      after = ground ∧
        (index = home → ∀ fdb, reading = .ok fdb → selfList fdb home = ground.listed)
  | _, _, after => after = ground

end

/-- What another party may do: put what is not there, remove what it put. -/
inductive Shares : Ground Process → Prop where
  | put {mac : Mac} (absent : mac ∉ ground.card) :
      Shares { ground with
        card := insert mac ground.card, foreign := insert mac ground.foreign }
  | take {mac : Mac} (theirs : mac ∈ ground.foreign) :
      Shares { ground with card := ground.card \ {mac}, foreign := ground.foreign \ {mac} }

/-- What holds of an uplink before anybody starts. -/
structure Begins : Prop where
  noted : ground.ours ⊆ ground.note
  held : ground.ours ⊆ ground.card
  free : ground.holder = none

end Ground

/-- Processes at work on one uplink that keeps its name and index. -/
def uplinkSystem {Process : Type} [DecidableEq Process] (terms : Terms Process) (dev : Name)
    (home : Index) : System Process Call Reply Syncer (Ground Process) where
  fresh syncer := syncer.Recalls dev home
  operations := Operation dev home
  answers process ground request reply after :=
    request.Identifies dev home reply ∧ ground.Answers terms dev home process request reply after
  drifts ground after := terms.shared ∧ ground.Shares after
  dies process ground after := terms.mortal ∧ after = ground.release process

end SriovMacSync
