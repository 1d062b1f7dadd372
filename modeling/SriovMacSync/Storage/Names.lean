import SriovMacSync.Data.Text
import SriovMacSync.Topology.Graph

namespace SriovMacSync.Storage

open Data

/-! # The names in the state directory

A device's note, its index record, its port memory and its lock lie side by side, with
the temporary files of every process that writes one of the first three.  No two of
them share a name, whatever the interfaces are called, and the listing tells the notes
from the rest. -/

/-- What is written through a temporary file. -/
inductive Dest where
  | note (dev : Name)
  | index (dev : Name)
  | ports (dev : Name)
deriving DecidableEq, Repr

namespace Dest

/-- `state_path`, `index_path` and `ports_path`. -/
def fileName : Dest → Text
  | .note dev => dev.toList ++ ['.', 'o', 'w', 'n', 'e', 'd']
  | .index dev => '.' :: (dev.toList ++ ['.', 'o', 'w', 'n', 'e', 'd', '.', 'i', 'n', 'd', 'e', 'x'])
  | .ports dev => '.' :: (dev.toList ++ ['.', 'o', 'w', 'n', 'e', 'd', '.', 'p', 'o', 'r', 't', 's'])

/-- Whether the file is somebody's note. -/
def isNote : Dest → Bool
  | .note _ => true
  | .index _ | .ports _ => false

end Dest

/-- The files of the state directory. -/
inductive Entry where
  | file (dest : Dest)
  | lock (dev : Name)
  /-- what a process writes before it renames it onto its destination -/
  | temporary (dest : Dest) (pid : Nat)
deriving DecidableEq, Repr

namespace Entry

def fileName : Entry → Text
  | .file dest => dest.fileName
  | .lock dev => '.' :: (dev.toList ++ ['.', 'o', 'w', 'n', 'e', 'd', '.', 'l', 'o', 'c', 'k'])
  | .temporary dest pid => '.' :: (dest.fileName ++ ('.' :: (decimal pid ++ ['.', 't', 'm', 'p'])))

/-- The last letter of a name tells the kinds apart. -/
def mark : Entry → Char
  | .file (.note _) => 'd'
  | .file (.index _) => 'x'
  | .file (.ports _) => 's'
  | .lock _ => 'k'
  | .temporary .. => 'p'

theorem getLast?_fileName (entry : Entry) : entry.fileName.getLast? = some entry.mark := by
  have ends (front : Text) (letter : Char) : (front ++ [letter]).getLast? = some letter := by simp
  cases entry with
  | file dest =>
      cases dest with
      | note dev => simp [fileName, Dest.fileName, mark]
      | index dev =>
          simpa [fileName, Dest.fileName, mark] using
            ends ('.' :: (dev.toList ++ ['.', 'o', 'w', 'n', 'e', 'd', '.', 'i', 'n', 'd', 'e'])) 'x'
      | ports dev =>
          simpa [fileName, Dest.fileName, mark] using
            ends ('.' :: (dev.toList ++ ['.', 'o', 'w', 'n', 'e', 'd', '.', 'p', 'o', 'r', 't'])) 's'
  | lock dev =>
      simpa [fileName, mark] using
        ends ('.' :: (dev.toList ++ ['.', 'o', 'w', 'n', 'e', 'd', '.', 'l', 'o', 'c'])) 'k'
  | temporary dest pid =>
      simpa [fileName, mark] using
        ends ('.' :: (dest.fileName ++ ('.' :: (decimal pid ++ ['.', 't', 'm'])))) 'p'

end Entry

/-- What follows the last separator and what comes before it. -/
theorem split_at_last {α : Type} {separator : α} {front front' back back' : List α}
    (plain : separator ∉ back) (plain' : separator ∉ back')
    (same : front ++ separator :: back = front' ++ separator :: back') :
    front = front' ∧ back = back' := by
  rcases List.append_eq_append_iff.mp same with ⟨more, front', back⟩ | ⟨more, front, back'⟩
  · cases more with
    | nil => simp_all
    | cons first rest =>
        injection back with _ back
        simp [back] at plain
  · cases more with
    | nil => simp_all
    | cons first rest =>
        injection back' with _ back'
        simp [back'] at plain'

theorem decimal_injective : Function.Injective decimal := fun first second same =>
  Option.some.inj ((parseDecimal_decimal first).symm.trans
    ((congrArg parseDecimal same).trans (parseDecimal_decimal second)))

theorem dot_notMem_decimal (number : Nat) : '.' ∉ decimal number := fun member =>
  absurd (decimal_isDigit member) (by decide)

theorem dest_injective : Function.Injective Dest.fileName := by
  intro first second same
  have marks := (Entry.getLast?_fileName (.file first)).symm.trans
    ((congrArg List.getLast? same).trans (Entry.getLast?_fileName (.file second)))
  cases first <;> cases second <;> simp [Entry.mark] at marks <;>
    simpa [Dest.fileName, String.toList_inj] using same

/-- No two files share a name. -/
theorem fileName_injective : Function.Injective Entry.fileName := by
  intro first second same
  have marks := (Entry.getLast?_fileName first).symm.trans
    ((congrArg List.getLast? same).trans (Entry.getLast?_fileName second))
  cases first with
  | file dest =>
      cases second with
      | file dest' => exact congrArg Entry.file (dest_injective same)
      | lock dev => cases dest <;> simp [Entry.mark] at marks
      | temporary dest' pid => cases dest <;> simp [Entry.mark] at marks
  | lock dev =>
      cases second with
      | file dest => cases dest <;> simp [Entry.mark] at marks
      | lock dev' =>
          simp only [Entry.fileName, List.cons.injEq, true_and, List.append_cancel_right_eq,
            String.toList_inj] at same
          rw [same]
      | temporary dest pid => simp [Entry.mark] at marks
  | temporary dest pid =>
      cases second with
      | file dest' => cases dest' <;> simp [Entry.mark] at marks
      | lock dev => simp [Entry.mark] at marks
      | temporary dest' pid' =>
          simp only [Entry.fileName, List.cons.injEq, true_and] at same
          rw [← List.cons_append, ← List.cons_append, ← List.append_assoc, ← List.append_assoc] at same
          obtain ⟨named, numbered⟩ := split_at_last (dot_notMem_decimal pid) (dot_notMem_decimal pid')
            (List.append_cancel_right same)
          rw [dest_injective named, decimal_injective numbered]

/-- `str::strip_suffix`. -/
def stripSuffix (suffix text : Text) : Option Text :=
  if suffix <:+ text then some (text.take (text.length - suffix.length)) else none

/-- The device a file is the note of, as the listing has it. -/
def notedDevice (name : Text) : Option Text := stripSuffix ['.', 'o', 'w', 'n', 'e', 'd'] name

/-- The device an entry is the note of. -/
def Entry.notes : Entry → Option Text
  | .file (.note dev) => some dev.toList
  | _ => none

theorem notedDevice_fileName (entry : Entry) : notedDevice entry.fileName = entry.notes := by
  by_cases note : entry.mark = 'd'
  · cases entry with
    | file dest =>
        cases dest with
        | note dev => simp [notedDevice, stripSuffix, Entry.fileName, Dest.fileName, Entry.notes]
        | index dev => simp [Entry.mark] at note
        | ports dev => simp [Entry.mark] at note
    | lock dev => simp [Entry.mark] at note
    | temporary dest pid => simp [Entry.mark] at note
  · have other : ¬ ['.', 'o', 'w', 'n', 'e', 'd'] <:+ entry.fileName := by
      intro ⟨front, same⟩
      have last := entry.getLast?_fileName
      rw [← same] at last
      simp at last
      exact note last.symm
    rw [notedDevice, stripSuffix, if_neg other]
    cases entry with
    | file dest => cases dest <;> simp_all [Entry.mark, Entry.notes]
    | lock dev => rfl
    | temporary dest pid => rfl

/-- Every file has a name of its own, and the listing finds the noted devices and
nothing else among them. -/
theorem state_files_told_apart :
    Function.Injective Entry.fileName ∧ ∀ entries : List Entry,
      (entries.map Entry.fileName).filterMap notedDevice = entries.filterMap Entry.notes := by
  constructor
  · exact fileName_injective
  · intro entries
    rw [List.filterMap_map]
    exact List.filterMap_congr fun entry _ => notedDevice_fileName entry

end SriovMacSync.Storage
