import SriovMacSync.Memory.Shelf
import SriovMacSync.World.Host

namespace SriovMacSync

open Data Netlink Interaction Interaction.Action

/-! One host where all goes well, but for the addresses the kernel will not let go of. -/

namespace Shelf

/-- What the kernel says when it will not. -/
def busy : Errno := .other 16

/-- A removal as the kernel does it. -/
def remove (stubborn : Finset Mac) (shelf : Shelf) (index : Index) (mac : Mac) : Except Errno Unit × Shelf :=
  if mac ∈ stubborn then
    (.error busy, shelf.does index mac false (.error busy) (shelf.lists index))
  else if mac ∈ shelf.lists index then
    (.ok (), shelf.does index mac false (.ok ()) ((shelf.lists index).erase mac))
  else
    (.error .noEntry, shelf.does index mac false (.error .noEntry) (shelf.lists index))

def serve (stubborn : Finset Mac) : Handler Call Reply Shelf
  | shelf, .dumpFdb => (.ok shelf.fdb, shelf)
  | shelf, .dumpFdbOf index => (.ok ((ascending (shelf.lists index)).map (Host.selfEntry index)), shelf)
  | shelf, .dumpLinks => (.error busy, shelf)
  | shelf, .vfMacsOf _ => (.ok [], shelf)
  | shelf, .setSelfFdb index mac true =>
      (.ok (), shelf.does index mac true (.ok ()) (insert mac (shelf.lists index)))
  | shelf, .setSelfFdb index mac false => shelf.remove stubborn index mac
  | shelf, .bootMillis => (shelf.clock, { shelf with clock := shelf.clock + 1 })
  | shelf, .now => (shelf.clock, shelf)
  | shelf, .walkMacs set => (arrangeAscending set, shelf)
  | shelf, .walkNames set => (arrangeAscending set, shelf)
  | shelf, .lock dev work => ((), shelf.hold (some (dev, work)))
  | shelf, .unlock _ => ((), shelf.hold none)
  | shelf, .listNotes => (.ok [], shelf)
  | shelf, .readNote dev => (.lines (ascending (shelf.drawer dev).note) true, shelf)
  | shelf, .putNote dev macs => (true, shelf.setNote dev macs.toFinset)
  | shelf, .appendNote dev macs => (true, shelf.setNote dev ((shelf.drawer dev).note ∪ macs.toFinset))
  | shelf, .removeNote dev => ((), shelf.setNote dev ∅)
  | shelf, .readIndex dev => ((shelf.drawer dev).record, shelf)
  | shelf, .putIndex dev index => (true, shelf.setRecord dev (some index))
  | shelf, .removeIndex dev => ((), shelf.setRecord dev none)
  | shelf, .readPorts dev => ((shelf.drawer dev).ports, shelf)
  | shelf, .portsExist dev => ((shelf.drawer dev).ports.isSome, shelf)
  | shelf, .putPorts dev text =>
      if (shelf.drawer dev).stuck then (false, shelf) else (true, shelf.setPorts dev (some text))
  | shelf, .removePorts dev =>
      if (shelf.drawer dev).stuck then (false, shelf)
      else ((shelf.drawer dev).ports.isSome, shelf.setPorts dev none)
  | shelf, .released .. => ((), shelf)

variable {legible sure : Name → Prop} {stubborn : Finset Mac}

theorem serve_answers (shelf : Shelf) (request : Call) :
    (shelving legible sure).answers shelf request (shelf.serve stubborn request).1
      (shelf.serve stubborn request).2 := by
  cases request with
  | dumpFdb => exact ⟨rfl, fun fdb same => (Except.ok.inj same).symm⟩
  | setSelfFdb index mac add =>
      cases add with
      | true => exact ⟨_, rfl, rfl⟩
      | false =>
          rw [serve, remove]
          split
          · exact ⟨_, by simp [Leaves, busy], rfl⟩
          · split
            · exact ⟨_, rfl, rfl⟩
            · rename_i missing
              exact ⟨_, by simp [Leaves, missing], rfl⟩
  | bootMillis => exact ⟨rfl, shelf.clock + 1, by omega, rfl⟩
  | readNote dev => exact ⟨rfl, (ascending_toFinset _).symm⟩
  | putNote dev macs => exact .inl ⟨rfl, rfl⟩
  | appendNote dev macs => exact .inl ⟨rfl, rfl⟩
  | removeNote dev => exact .inl rfl
  | readIndex dev => exact ⟨rfl, .inl rfl⟩
  | putIndex dev index => exact .inl ⟨rfl, rfl⟩
  | removeIndex dev => exact .inl rfl
  | readPorts dev => exact ⟨rfl, rfl⟩
  | portsExist dev => exact ⟨rfl, rfl⟩
  | putPorts dev text =>
      change if (shelf.drawer dev).stuck then _ else _
      rw [serve]
      split <;> exact ⟨rfl, rfl⟩
  | removePorts dev =>
      change if (shelf.drawer dev).stuck then _ else _
      rw [serve]
      split <;> exact ⟨rfl, rfl⟩
  | _ => rfl

/-- A whole execution there. -/
def serves {α : Type} (stubborn : Finset Mac) (shelf : Shelf) (action : Sync α) (syncer : Syncer) :
    (α × Syncer) × Shelf :=
  (action syncer).replay (serve stubborn) shelf

theorem serves_runs {α : Type} (stubborn : Finset Mac) (shelf : Shelf) (action : Sync α) (syncer : Syncer) :
    Runs (shelving legible sure) action syncer shelf (shelf.serves stubborn action syncer).1.1
      (shelf.serves stubborn action syncer).1.2 (shelf.serves stubborn action syncer).2 :=
  Program.replay_reaches serve_answers (action syncer) shelf

end Shelf

theorem bridgedTopology_plain : bridgedTopology.Plain := by
  intro link listed
  simp only [bridgedTopology, List.mem_cons, List.not_mem_nil, or_false] at listed
  rcases listed with rfl | rfl | rfl <;> decide

end SriovMacSync
