import SriovMacSync.Cache.Disk

namespace SriovMacSync.Cache

open Data Interaction Interaction.Action

/-! # Why the copy may be trusted

Behind a remembered copy stands a state of the file with the copy's identity.  While
the name keeps that inode, what the file has come to read succeeds that state, and
texts of one length in one succession name the same addresses. -/

/-- An unfinished last line that is no whole address. -/
def shortLine (line : Text) : Prop := utf8Length line < addressLength

namespace Disk

def Sound (disk : Disk) : Prop := ∀ file, disk.file = some file → file.inode ∈ disk.used

/-- The name was once this file, and if it is still this inode, it came from there. -/
structure Tracked (earlier : NoteFile) (disk : Disk) : Prop where
  used : earlier.inode ∈ disk.used
  same {file : NoteFile} : disk.file = some file → file.inode = earlier.inode →
    file.legible = earlier.legible ∧ Succeeds earlier.text file.text

/-- What stays true of a note while others are at work on it. -/
structure Onward (disk after : Disk) : Prop where
  sound : disk.Sound → after.Sound
  tracked {earlier : NoteFile} : Tracked earlier disk → Tracked earlier after
  gone {inode : Nat} : inode ∈ disk.used → (∀ file, disk.file = some file → file.inode ≠ inode) →
    ∀ file, after.file = some file → file.inode ≠ inode
  grows : disk.instants <:+ after.instants
  watched : readsAs disk.file ∈ disk.instants → readsAs after.file ∈ after.instants
  held : disk.holder = .keeper → after.holder = .keeper ∧ after.file = disk.file

namespace Onward

variable {disk middle after : Disk}

theorem refl (disk : Disk) : Onward disk disk :=
  ⟨id, id, fun _ => id, List.suffix_refl _, id, fun held => ⟨held, rfl⟩⟩

theorem trans (first : Onward disk middle) (second : Onward middle after) :
    Onward disk after where
  sound := second.sound ∘ first.sound
  tracked := second.tracked ∘ first.tracked
  gone {inode} used apart := by
    by_cases there : inode ∈ middle.used
    · exact second.gone there (first.gone used apart)
    · have before : Tracked ⟨inode, [], true, 0⟩ disk :=
        ⟨used, fun found same => absurd same (apart _ found)⟩
      exact absurd (first.tracked before).used there
  grows := first.grows.trans second.grows
  watched := second.watched ∘ first.watched
  held free := by
    obtain ⟨holder, file⟩ := first.held free
    obtain ⟨holder', file'⟩ := second.held holder
    exact ⟨holder', file'.trans file⟩

theorem setHolder {holder : Holder} (free : disk.holder ≠ .keeper) :
    Onward disk (disk.setHolder holder) :=
  ⟨id, fun tracked => ⟨tracked.used, tracked.same⟩, fun _ => id, List.suffix_refl _, id,
    fun held => absurd held free⟩

theorem illegibly (disk : Disk) : Onward disk disk.illegibly :=
  ⟨id, fun tracked => ⟨tracked.used, tracked.same⟩, fun _ => id, List.suffix_cons _ _,
    List.mem_cons_of_mem _, fun held => ⟨held, rfl⟩⟩

end Onward

theorem Tracked.rewrite {disk : Disk} {earlier file : NoteFile} {text : Text} {modified : Int}
    (tracked : Tracked earlier disk) (found : disk.file = some file)
    (succeeds : Succeeds earlier.text file.text → Succeeds earlier.text text) :
    Tracked earlier (disk.rewrite file text modified) where
  used := tracked.used
  same := by
    intro now shown same
    cases shown
    exact ⟨(tracked.same found same).1, succeeds (tracked.same found same).2⟩

theorem Tracked.install {disk : Disk} {earlier file : NoteFile} (tracked : Tracked earlier disk)
    (fresh : file.inode ∉ disk.used) : Tracked earlier (disk.install file) where
  used := Finset.mem_insert_of_mem tracked.used
  same := by
    intro now shown same
    cases shown
    exact absurd (same ▸ tracked.used) fresh

theorem Tracked.unlink {disk : Disk} {earlier : NoteFile} (tracked : Tracked earlier disk) :
    Tracked earlier disk.unlink where
  used := tracked.used
  same := by
    intro now shown
    cases shown

/-- A file is tracked from where it is found. -/
theorem Tracked.here {disk : Disk} {file : NoteFile} (sound : disk.Sound)
    (found : disk.file = some file) : Tracked file disk where
  used := sound file found
  same := by
    intro now shown _
    rw [found] at shown
    cases shown
    exact ⟨rfl, .refl _⟩

theorem Sound.rewrite {disk : Disk} {file : NoteFile} {text : Text} {modified : Int}
    (sound : disk.Sound) (found : disk.file = some file) :
    (disk.rewrite file text modified).Sound := by
  intro now shown
  cases shown
  exact sound file found

theorem Sound.install {disk : Disk} {file : NoteFile} : (disk.install file).Sound := by
  intro now shown
  cases shown
  exact Finset.mem_insert_self _ _

theorem Sound.unlink {disk : Disk} : disk.unlink.Sound := by
  intro now shown
  cases shown

section Moving

variable {disk after : Disk}

theorem Onward.rewrite {file : NoteFile} {text : Text} {modified : Int}
    (free : disk.holder = .other) (found : disk.file = some file)
    (succeeds : ∀ {earlier}, Succeeds earlier file.text → Succeeds earlier text) :
    Onward disk (disk.rewrite file text modified) where
  sound sound := sound.rewrite found
  tracked tracked := tracked.rewrite found succeeds
  gone _ apart now shown := by
    cases shown
    exact apart file found
  grows := List.suffix_cons _ _
  watched _ := List.mem_cons_self
  held held := by rw [free] at held; cases held

theorem Onward.install {file : NoteFile} (free : disk.holder = .other)
    (fresh : file.inode ∉ disk.used) : Onward disk (disk.install file) where
  sound _ := .install
  tracked tracked := tracked.install fresh
  gone used _ now shown same := by
    cases shown
    exact fresh (same ▸ used)
  grows := List.suffix_cons _ _
  watched _ := List.mem_cons_self
  held held := by rw [free] at held; cases held

theorem Moves.onward (moves : disk.Moves shortLine after) : Onward disk after := by
  cases moves with
  | takes free => exact .setHolder (by rw [free]; decide)
  | drops held => exact .setHolder (by rw [held]; decide)
  | creates held absent fresh => exact .install held fresh
  | cutsBack held found legible short => exact .rewrite held found fun later => later.cut short
  | adds held found legible lines => exact .rewrite held found fun later => later.adds lines
  | replaces held fresh => exact .install held fresh
  | unlinks held =>
      exact {
        sound := fun _ => .unlink
        tracked := Tracked.unlink
        gone := fun _ _ _ shown => by cases shown
        grows := List.suffix_cons _ _
        watched := fun _ => List.mem_cons_self
        held := fun held' => by rw [held] at held'; cases held' }

theorem onward_of_moves (moves : Relation.ReflTransGen (Disk.Moves · shortLine) disk after) :
    Onward disk after := by
  induction moves with
  | refl => exact .refl disk
  | tail _ moves ih => exact ih.trans moves.onward

/-- Nobody moves while the process holds the lock. -/
theorem eq_of_moves {cuts : Text → Prop}
    (moves : Relation.ReflTransGen (Disk.Moves · cuts) disk after)
    (held : disk.holder = .keeper) : after = disk := by
  induction moves with
  | refl => rfl
  | @tail middle after _ moves ih =>
      subst ih
      cases moves <;> simp_all

end Moving

/-- A text read while the file kept its identity is what the file names now. -/
theorem steady {disk middle after : Disk} {file file' : NoteFile} (sound : disk.Sound)
    (first : Onward disk middle) (second : Onward middle after) (present : disk.file = some file)
    (present' : after.file = some file') (same : file'.metadata = file.metadata)
    (legible : ∀ file, middle.file = some file → file.legible = true) :
    file'.legible = true ∧ noteSet file'.text = readsAs middle.file := by
  simp only [NoteFile.metadata, Metadata.mk.injEq] at same
  obtain ⟨sameInode, sameLength, -⟩ := same
  have used := sound file present
  have tracked := Tracked.here sound present
  -- an inode that left the name does not come back
  have between : ∃ read, middle.file = some read ∧ read.inode = file.inode := by
    by_contra apart
    push Not at apart
    exact second.gone (first.tracked tracked).used apart file' present' sameInode
  obtain ⟨read, presentRead, sameRead⟩ := between
  have ours := (first.tracked tracked).same presentRead sameRead
  have whole := ((first.trans second).tracked tracked).same present' sameInode
  have later := (second.tracked (.here (first.sound sound) presentRead)).same present'
    (sameInode.trans sameRead.symm)
  have plain := legible read presentRead
  refine ⟨by rw [later.1, plain], ?_⟩
  rw [presentRead, readsAs, if_pos plain]
  exact (noteSet_eq_of_steady ours.2 later.2 whole.2 sameLength.symm).symm

end Disk

/-- The state of the file that stands behind a copy. -/
def Trusted (note : Note) (disk : Disk) : Prop :=
  ∃ earlier : NoteFile, earlier.legible = true ∧ noteSet earlier.text = note.macs ∧
    earlier.inode = note.inode ∧ utf8Length earlier.text = note.length ∧ disk.Tracked earlier

/-- What holds of a process between two calls on the file. -/
structure Rests (memory : NoteMemory) (disk : Disk) : Prop where
  sound : disk.Sound
  trusted : ∀ note, memory.note = some note → Trusted note disk
  holder : memory.holding = true → disk.holder = .keeper

theorem Trusted.onward {note : Note} {disk after : Disk} (trusted : Trusted note disk)
    (onward : disk.Onward after) : Trusted note after := by
  obtain ⟨earlier, legible, macs, inode, length, tracked⟩ := trusted
  exact ⟨earlier, legible, macs, inode, length, onward.tracked tracked⟩

theorem Rests.onward {memory : NoteMemory} {disk after : Disk} (rests : Rests memory disk)
    (onward : disk.Onward after) : Rests memory after where
  sound := onward.sound rests.sound
  trusted note known := (rests.trusted note known).onward onward
  holder holding := (onward.held (rests.holder holding)).1

/-- A copy whose identity the file still has holds what the file names. -/
theorem Trusted.believed {note : Note} {disk : Disk} {file : NoteFile} (trusted : Trusted note disk)
    (found : disk.file = some file) (still : note.isStill file.metadata = true) :
    file.legible = true ∧ note.macs = readsAs disk.file := by
  obtain ⟨earlier, legible, macs, inode, length, tracked⟩ := trusted
  simp only [Note.isStill, NoteFile.metadata, Bool.and_eq_true, beq_iff_eq] at still
  obtain ⟨⟨⟨sameInode, sameLength⟩, -⟩, -⟩ := still
  obtain ⟨sameLegible, succeeds⟩ := tracked.same found (by rw [inode, sameInode])
  refine ⟨sameLegible.trans legible, ?_⟩
  rw [← macs, found, readsAs, sameLegible, legible, if_pos rfl]
  exact succeeds.noteSet_eq (by rw [length, sameLength])

end SriovMacSync.Cache
