import SriovMacSync.Absence.Overlooks
import SriovMacSync.Interaction.Execution
import SriovMacSync.Memory.Lines

namespace SriovMacSync

open Data Netlink Interaction Interaction.Action

/-! # The state directory and what is done under its locks

Notes, records and memory files, each about one device, and the filter lists.  Files
read as they are or not at all; a write goes through or it does not.  What a process
does to a filter is remembered with the note whose lock it holds meanwhile. -/

/-- A filter write and what the kernel said to it. -/
structure Deed where
  work : Section
  index : Index
  mac : Mac
  add : Bool
  reply : Except Errno Unit

/-- The kernel would not let go of an address. -/
def Deed.Refused (deed : Deed) (mac : Mac) : Prop :=
  deed.add = false ∧ deed.mac = mac ∧ ∃ errno, deed.reply = .error errno ∧ errno ≠ .noEntry

/-- What is on disk about one device, and what was done under its note's lock. -/
structure Drawer where
  note : Finset Mac
  record : Option Index
  ports : Option Text
  /-- the memory file can be neither replaced nor removed -/
  stuck : Bool
  deeds : List Deed

structure Shelf where
  drawer : Name → Drawer
  lists : Index → Finset Mac
  /-- what a dump of the bridges shows -/
  fdb : List FdbEntry
  clock : Nat
  /-- the note whose lock is held, and what for -/
  held : Option (Name × Section)

namespace Shelf

variable (shelf : Shelf)

def setDrawer (dev : Name) (drawer : Drawer) : Shelf :=
  { shelf with drawer := Function.update shelf.drawer dev drawer }

def setNote (dev : Name) (note : Finset Mac) : Shelf :=
  shelf.setDrawer dev { shelf.drawer dev with note }

def setRecord (dev : Name) (record : Option Index) : Shelf :=
  shelf.setDrawer dev { shelf.drawer dev with record }

def setPorts (dev : Name) (ports : Option Text) : Shelf :=
  shelf.setDrawer dev { shelf.drawer dev with ports }

def hold (held : Option (Name × Section)) : Shelf := { shelf with held }

/-- A filter write, remembered with the note whose lock is held. -/
def does (index : Index) (mac : Mac) (add : Bool) (reply : Except Errno Unit) (list : Finset Mac) :
    Shelf :=
  let written := { shelf with lists := Function.update shelf.lists index list }
  match shelf.held with
  | some (dev, work) =>
      written.setDrawer dev { shelf.drawer dev with
        deeds := ⟨work, index, mac, add, reply⟩ :: (shelf.drawer dev).deeds }
  | none => written

/-- What a write may leave of a list.  A refused one may have had its effect. -/
def Leaves (list : Finset Mac) (mac : Mac) : Bool → Except Errno Unit → Finset Mac → Prop
  | true, .ok _, after => after = insert mac list
  | true, .error _, after => after = list
  | false, .ok _, after => after = list.erase mac
  | false, .error errno, after =>
      if errno = .noEntry then mac ∉ list ∧ after = list else after = list ∨ after = list.erase mac

/-- How files and filters answer; nothing about a `sure` note ever fails, and no reading
of a `legible` one. -/
def Answers (legible sure : Name → Prop) : (request : Call) → Reply request → Shelf → Prop
  | .dumpFdb, reply, after => after = shelf ∧ ∀ fdb, reply = .ok fdb → fdb = shelf.fdb
  | .setSelfFdb index mac add, reply, after =>
      ∃ list, Leaves (shelf.lists index) mac add reply list ∧ after = shelf.does index mac add reply list
  | .bootMillis, now, after => now = shelf.clock ∧ ∃ later ≥ shelf.clock, after = { shelf with clock := later }
  | .lock dev work, _, after => after = shelf.hold (some (dev, work))
  | .unlock _, _, after => after = shelf.hold none
  | .readNote dev, .absent, after => after = shelf ∧ (shelf.drawer dev).note = ∅
  | .readNote dev, .lines macs _, after => after = shelf ∧ (shelf.drawer dev).note = macs.toFinset
  | .readNote dev, .unreadable, after => after = shelf ∧ ¬ sure dev ∧ ¬ legible dev
  | .putNote dev macs, done, after =>
      done = true ∧ after = shelf.setNote dev macs.toFinset ∨ done = false ∧ ¬ sure dev ∧ after = shelf
  | .appendNote dev macs, done, after =>
      done = true ∧ after = shelf.setNote dev ((shelf.drawer dev).note ∪ macs.toFinset) ∨
        done = false ∧ ¬ sure dev ∧ ∃ part ⊆ macs.toFinset,
          after = shelf.setNote dev ((shelf.drawer dev).note ∪ part)
  | .removeNote dev, _, after => after = shelf.setNote dev ∅ ∨ ¬ sure dev ∧ after = shelf
  | .readIndex dev, record, after =>
      after = shelf ∧ (record = (shelf.drawer dev).record ∨ ¬ sure dev ∧ record = none)
  | .putIndex dev index, done, after =>
      done = true ∧ after = shelf.setRecord dev (some index) ∨ done = false ∧ ¬ sure dev ∧ after = shelf
  | .removeIndex dev, _, after => after = shelf.setRecord dev none ∨ ¬ sure dev ∧ after = shelf
  | .readPorts dev, text, after => after = shelf ∧ text = (shelf.drawer dev).ports
  | .portsExist dev, present, after => after = shelf ∧ present = (shelf.drawer dev).ports.isSome
  | .putPorts dev text, done, after =>
      if (shelf.drawer dev).stuck then done = false ∧ after = shelf
      else done = true ∧ after = shelf.setPorts dev (some text)
  | .removePorts dev, removed, after =>
      if (shelf.drawer dev).stuck then removed = false ∧ after = shelf
      else removed = (shelf.drawer dev).ports.isSome ∧ after = shelf.setPorts dev none
  | _, _, after => after = shelf

end Shelf

/-- A host with its state directory. -/
def shelving (legible sure : Name → Prop) : Environment Call Reply Shelf where
  permits _ _ := True
  answers shelf := shelf.Answers legible sure

namespace Shelf

variable {shelf : Shelf} {dev other : Name} {note : Finset Mac}

@[simp] theorem drawer_hold {held : Option (Name × Section)} :
    (shelf.hold held).drawer = shelf.drawer := rfl

@[simp] theorem lists_hold {held : Option (Name × Section)} :
    (shelf.hold held).lists = shelf.lists := rfl

@[simp] theorem hold_hold {held again : Option (Name × Section)} :
    (shelf.hold held).hold again = shelf.hold again := rfl

@[simp] theorem setNote_self : shelf.setNote dev (shelf.drawer dev).note = shelf := by
  simp [setNote, setDrawer]

@[simp] theorem note_setNote : ((shelf.setNote dev note).drawer dev).note = note := by
  simp [setNote, setDrawer]

@[simp] theorem setNote_setNote {more : Finset Mac} :
    (shelf.setNote dev note).setNote dev more = shelf.setNote dev more := by
  simp [setNote, setDrawer]

theorem drawer_setNote_of_ne (apart : other ≠ dev) :
    (shelf.setNote dev note).drawer other = shelf.drawer other := by
  simp [setNote, setDrawer, apart]

theorem drawer_setPorts_of_ne {ports : Option Text} (apart : other ≠ dev) :
    (shelf.setPorts dev ports).drawer other = shelf.drawer other := by
  simp [setPorts, setDrawer, apart]

@[simp] theorem drawer_setPorts {ports : Option Text} :
    (shelf.setPorts dev ports).drawer dev = { shelf.drawer dev with ports } := by
  simp [setPorts, setDrawer]

@[simp] theorem drawer_setNote :
    (shelf.setNote dev note).drawer dev = { shelf.drawer dev with note } := by
  simp [setNote, setDrawer]

end Shelf

section Frame

variable {legible sure : Name → Prop} {shelf after : Shelf} {syncer : Syncer} {dev : Name}

theorem within_shelf {α : Type} {allowed : Call → Prop} {action : Sync α} {post : α → Syncer → Prop}
    (within : Within allowed action post syncer) :
    Safe (shelving legible sure) action (fun value after _ => post value after) syncer shelf :=
  (within.frame (fun _ _ _ _ => ⟨trivial, fun _ _ _ => trivial⟩) trivial).mono fun _ _ _ known => known.1

theorem always_shelf {α : Type} {action : Sync α} :
    Safe (shelving legible sure) action (fun _ _ _ => True) syncer shelf :=
  Program.safe_of_kept (fun _ _ _ => ⟨trivial, fun _ _ _ => trivial⟩) trivial

/-- What is not about a device leaves its drawer alone, as long as nothing is done under
its lock. -/
theorem drawer_of_elsewhere {devs : Set Name} {filters : Set (Index × Bool)} {request : Call}
    {reply : Reply request} (scope : InScope devs filters request) (apart : dev ∉ devs)
    (away : ∀ work, shelf.held ≠ some (dev, work))
    (answered : (shelving legible sure).answers shelf request reply after) :
    after.drawer dev = shelf.drawer dev ∧ (∀ work, after.held ≠ some (dev, work)) ∧
      after.fdb = shelf.fdb := by
  have other {named : Name} (about : request.about = some named) : dev ≠ named := by
    rintro rfl
    exact apart (scope.1 _ about)
  cases request with
  | dumpFdb => obtain ⟨rfl, -⟩ := answered; exact ⟨rfl, away, rfl⟩
  | setSelfFdb index mac add =>
      obtain ⟨list, -, rfl⟩ := answered
      unfold Shelf.does
      split
      · rename_i named work held
        have apart : dev ≠ named := fun same => away work (same ▸ held)
        exact ⟨by simp [Shelf.setDrawer, apart], away, rfl⟩
      · exact ⟨rfl, away, rfl⟩
  | bootMillis => obtain ⟨-, later, -, rfl⟩ := answered; exact ⟨rfl, away, rfl⟩
  | lock named work =>
      obtain rfl : after = _ := answered
      exact ⟨rfl, fun work' held => other rfl (Prod.mk.inj (Option.some.inj held)).1.symm, rfl⟩
  | unlock named =>
      obtain rfl : after = _ := answered
      exact ⟨rfl, nofun, rfl⟩
  | readNote named =>
      cases reply <;> obtain ⟨rfl, -⟩ := answered <;> exact ⟨rfl, away, rfl⟩
  | putNote named macs =>
      rcases answered with ⟨-, rfl⟩ | ⟨-, -, rfl⟩
      · exact ⟨Shelf.drawer_setNote_of_ne (other rfl), away, rfl⟩
      · exact ⟨rfl, away, rfl⟩
  | appendNote named macs =>
      rcases answered with ⟨-, rfl⟩ | ⟨-, -, part, -, rfl⟩
      · exact ⟨Shelf.drawer_setNote_of_ne (other rfl), away, rfl⟩
      · exact ⟨Shelf.drawer_setNote_of_ne (other rfl), away, rfl⟩
  | removeNote named =>
      rcases answered with rfl | ⟨-, rfl⟩
      · exact ⟨Shelf.drawer_setNote_of_ne (other rfl), away, rfl⟩
      · exact ⟨rfl, away, rfl⟩
  | readIndex named => obtain ⟨rfl, -⟩ := answered; exact ⟨rfl, away, rfl⟩
  | putIndex named index =>
      rcases answered with ⟨-, rfl⟩ | ⟨-, -, rfl⟩
      · exact ⟨by simp [Shelf.setRecord, Shelf.setDrawer, other rfl], away, rfl⟩
      · exact ⟨rfl, away, rfl⟩
  | removeIndex named =>
      rcases answered with rfl | ⟨-, rfl⟩
      · exact ⟨by simp [Shelf.setRecord, Shelf.setDrawer, other rfl], away, rfl⟩
      · exact ⟨rfl, away, rfl⟩
  | readPorts named => obtain ⟨rfl, -⟩ := answered; exact ⟨rfl, away, rfl⟩
  | portsExist named => obtain ⟨rfl, -⟩ := answered; exact ⟨rfl, away, rfl⟩
  | putPorts named text =>
      replace answered : if _ then _ else _ := answered
      split at answered
      · obtain ⟨-, rfl⟩ := answered; exact ⟨rfl, away, rfl⟩
      · obtain ⟨-, rfl⟩ := answered
        exact ⟨Shelf.drawer_setPorts_of_ne (other rfl), away, rfl⟩
  | removePorts named =>
      replace answered : if _ then _ else _ := answered
      split at answered
      · obtain ⟨-, rfl⟩ := answered; exact ⟨rfl, away, rfl⟩
      · obtain ⟨-, rfl⟩ := answered
        exact ⟨Shelf.drawer_setPorts_of_ne (other rfl), away, rfl⟩
  | _ =>
      obtain rfl : after = shelf := answered
      exact ⟨rfl, away, rfl⟩

end Frame

end SriovMacSync
