import Mathlib.Data.Finset.Sort
import Mathlib.Data.List.AList
import SriovMacSync.Interaction.Judgement
import SriovMacSync.Sync.Flush

namespace SriovMacSync

open Data Netlink Interaction Interaction.Action

/-! # What a flush finds

The notes, what is left in the filters of the entries this program put there, and
the interface records.  A note is about one interface whether or not a record beside
it says which; the names of the interfaces may have changed since. -/

/-- An ownership note, and whether it can be read at all. -/
structure Note where
  macs : Finset Mac
  legible : Bool
deriving DecidableEq

/-- The state directory and the filters, `home` being the interface each note is
about. -/
structure Plant (home : Name → Index) where
  notes : AList fun _ : Name => Note
  records : Name → Option Index
  truthful : ∀ dev index, records dev = some index → home dev = index
  /-- the entries of this program that are still on each interface -/
  card : Index → Finset Mac

namespace Plant

variable {home : Name → Index} (plant : Plant home)

def setNote (dev : Name) (note : Note) : Plant home :=
  { plant with notes := plant.notes.insert dev note }

def unlink (dev : Name) : Plant home := { plant with notes := plant.notes.erase dev }

def unrecord (dev : Name) : Plant home where
  notes := plant.notes
  records := Function.update plant.records dev none
  truthful := by
    intro other index recorded
    by_cases same : other = dev
    · rw [same, Function.update_self] at recorded
      cases recorded
    · rw [Function.update_of_ne same] at recorded
      exact plant.truthful other index recorded
  card := plant.card

def release (index : Index) (mac : Mac) : Plant home :=
  { plant with card := Function.update plant.card index ((plant.card index).erase mac) }

/-- What a note on disk names, legible or not. -/
def names (dev : Name) : Finset Mac := ((plant.notes.lookup dev).map (·.macs)).getD ∅

/-- What reading a note may give; any reading may fail. -/
def Shows (dev : Name) : NoteReading → Prop
  | .absent => plant.notes.lookup dev = none
  | .lines macs _ => plant.notes.lookup dev = some ⟨macs.toFinset, true⟩
  | .unreadable => True

/-- How a removal may go: an entry that is said to be gone or absent is gone, and a
refusal may come with or without effect. -/
def Removes (index : Index) (mac : Mac) : Except Errno Unit → Plant home → Prop
  | .ok _, after => after = plant.release index mac
  | .error errno, after =>
      if errno = .noEntry then after = plant ∧ mac ∉ plant.card index
      else after = plant ∨ after = plant.release index mac

/-- What a flush never asks for. -/
def Grows : Call → Prop
  | .setSelfFdb _ _ true | .appendNote .. | .putIndex .. | .putPorts .. => True
  | _ => False

/-- How the host answers. -/
def Answers (topo : Topology) : (request : Call) → Reply request → Plant home → Prop
  | .dumpLinks, reply, after => after = plant ∧ ∀ found, reply = .ok found → found = topo
  | .listNotes, reply, after =>
      after = plant ∧ ∀ devs, reply = .ok devs → devs.Perm plant.notes.keys
  | .readNote dev, reading, after => after = plant ∧ plant.Shows dev reading
  | .readIndex dev, record, after => after = plant ∧ record = plant.records dev
  | .setSelfFdb index mac false, reply, after => plant.Removes index mac reply after
  | .putNote dev macs, done, after =>
      done = true ∧ after = plant.setNote dev ⟨macs.toFinset, true⟩ ∨ done = false ∧ after = plant
  | .removeNote dev, _, after => after = plant ∨ after = plant.unlink dev
  | .removeIndex dev, _, after => after = plant ∨ after = plant.unrecord dev
  | _, _, after => after = plant

end Plant

/-- A host, its interfaces as `topo` has them, on which nothing of ours is added. -/
def emptying (home : Name → Index) (topo : Topology) : Environment Call Reply (Plant home) where
  permits _ request := ¬ Plant.Grows request
  answers plant := plant.Answers topo

/-- A process that has stamped no record yet and is not only asked what it would do. -/
structure Syncer.Flushes (syncer : Syncer) : Prop where
  acts : syncer.dryRun = false
  unstamped : ∀ dev, syncer.indices dev = none

theorem Syncer.Flushes.sawNote {syncer : Syncer} {dev : Name} {readable : Bool}
    (flushes : syncer.Flushes) : (syncer.sawNote dev readable).Flushes :=
  ⟨flushes.acts, flushes.unstamped⟩

theorem Syncer.Flushes.setIndex {syncer : Syncer} {dev : Name} (flushes : syncer.Flushes) :
    (syncer.setIndex dev none).Flushes := by
  refine ⟨flushes.acts, fun other => ?_⟩
  by_cases same : other = dev
  · rw [same]
    exact Function.update_self ..
  · exact (Function.update_of_ne same ..).trans (flushes.unstamped other)

namespace Plant

variable {home : Name → Index} {topo : Topology} {plant after : Plant home} {dev other : Name}
  {index : Index} {mac : Mac} {syncer : Syncer}

section Parts

@[simp] theorem lookup_setNote {note : Note} :
    (plant.setNote dev note).notes.lookup dev = some note := AList.lookup_insert _

theorem lookup_setNote_of_ne {note : Note} (apart : other ≠ dev) :
    (plant.setNote dev note).notes.lookup other = plant.notes.lookup other :=
  AList.lookup_insert_ne apart

@[simp] theorem lookup_unlink : (plant.unlink dev).notes.lookup dev = none :=
  AList.lookup_erase ..

theorem lookup_unlink_of_ne (apart : other ≠ dev) :
    (plant.unlink dev).notes.lookup other = plant.notes.lookup other :=
  AList.lookup_erase_ne apart

theorem records_unrecord_of_ne (apart : other ≠ dev) :
    (plant.unrecord dev).records other = plant.records other := Function.update_of_ne apart ..

theorem card_release_le : (plant.release index mac).card ≤ plant.card := by
  intro place
  simp only [release]
  by_cases same : place = index
  · rw [same, Function.update_self]
    exact Finset.erase_subset ..
  · rw [Function.update_of_ne same]

theorem notMem_release : mac ∉ (plant.release index mac).card index := by
  simp [release]

end Parts

/-- What became of a plant while one note was worked on: no entry was added, and
nothing about the other notes changed. -/
structure Works (dev : Name) (plant after : Plant home) : Prop where
  fewer : after.card ≤ plant.card
  others : ∀ other, other ≠ dev → after.notes.lookup other = plant.notes.lookup other ∧
    after.records other = plant.records other

theorem Works.refl : Works dev plant plant := ⟨le_rfl, fun _ _ => ⟨rfl, rfl⟩⟩

theorem Works.trans {middle : Plant home} (first : Works dev plant middle)
    (second : Works dev middle after) : Works dev plant after where
  fewer := second.fewer.trans first.fewer
  others other apart := by
    obtain ⟨note, record⟩ := first.others other apart
    obtain ⟨note', record'⟩ := second.others other apart
    exact ⟨note'.trans note, record'.trans record⟩

theorem Works.setNote {note : Note} : Works dev plant (plant.setNote dev note) :=
  ⟨le_rfl, fun _ apart => ⟨lookup_setNote_of_ne apart, rfl⟩⟩

theorem Works.unlink : Works dev plant (plant.unlink dev) :=
  ⟨le_rfl, fun _ apart => ⟨lookup_unlink_of_ne apart, rfl⟩⟩

theorem Works.unrecord : Works dev plant (plant.unrecord dev) :=
  ⟨le_rfl, fun _ apart => ⟨rfl, records_unrecord_of_ne apart⟩⟩

end Plant

end SriovMacSync
