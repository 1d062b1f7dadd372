import SriovMacSync.Cache.Steps

namespace SriovMacSync.Cache

open Data Interaction Interaction.Action

/-! # The copy is invisible

As long as no unfinished line as long as an address is cut back, a process that looks
at the note sees what the file reads as, copy or no copy. -/

section Runs

variable {memory : NoteMemory} {disk : Disk}

theorem Work.safe {program : Program FileCall FileReply NoteMemory} (rests : Rests memory disk)
    (work : Work memory program) : program.Safe (among shortLine) Rests disk := by
  cases work with
  | look =>
      refine Safe.leaving ((withOwned_spec rests).mono ?_)
      intro set left after looked
      exact ⟨looked.onward.sound rests.sound, looked.trusted, fun holding =>
        (looked.onward.held (rests.holder (looked.holding ▸ holding))).1⟩
  | read =>
      refine Safe.leaving (readOwned_spec.mono ?_)
      rintro set left after ⟨onward, note, holding, -⟩
      have later := rests.onward onward
      exact ⟨later.sound, fun known same => later.trusted known (note ▸ same),
        fun held => later.holder (holding ▸ held)⟩
  | takeLock free =>
      refine Safe.leaving (safe_bind.mpr (safe_ask.mpr ⟨trivial, ?_⟩))
      rintro _ after ⟨middle, moves, free, rfl⟩
      have onward : disk.Onward (middle.setHolder .keeper) :=
        (Disk.onward_of_moves moves).trans (.setHolder (by rw [free]; decide))
      exact ⟨onward.sound rests.sound, fun note known => (rests.trusted note known).onward onward,
        fun _ => rfl⟩
  | releaseLock held =>
      refine Safe.leaving (safe_bind.mpr (safe_ask.mpr ⟨trivial, ?_⟩))
      rintro _ after ⟨middle, moves, rfl⟩
      obtain rfl := Disk.eq_of_moves moves (rests.holder held)
      refine ⟨rests.sound, fun note known => ?_, fun holding => by cases holding⟩
      obtain ⟨earlier, legible, macs, inode, length, tracked⟩ := rests.trusted note known
      exact ⟨earlier, legible, macs, inode, length, tracked.used, tracked.same⟩
  | write held set => exact Safe.leaving (writeOwned_spec rests held set)
  | append held added => exact Safe.leaving (appendOwnedLocked_spec rests held added)
  | remove held => exact Safe.leaving (removeNote_spec rests held)
  | dropLine held mac => exact Safe.leaving (dropLineLocked_spec rests held mac)

/-- Moves of the others before the next call are among those the call allows for. -/
theorem safe_moved {program : Program FileCall FileReply NoteMemory} {after : Disk}
    (safe : program.Safe (among shortLine) Rests disk) (moves : disk.Moves shortLine after) :
    program.Safe (among shortLine) Rests after := by
  cases program with
  | done memory => exact Rests.onward safe moves.onward
  | call request next =>
      refine ⟨trivial, ?_⟩
      rintro reply later ⟨middle, more, answer⟩
      exact safe.2 reply later ⟨middle, .head moves more, answer⟩

theorem sound_of_answers {request : FileCall} {reply : FileReply request} {after : Disk}
    (sound : disk.Sound) (answered : (among shortLine).answers disk request reply after) :
    after.Sound := by
  obtain ⟨middle, moves, answer⟩ := answered
  have sound := (Disk.onward_of_moves moves).sound sound
  cases request with
  | metadata => exact answer.1 ▸ sound
  | readToString =>
      cases reply with
      | read text => exact answer.1 ▸ sound
      | absent => exact answer.1 ▸ sound
      | failed =>
          cases answer
          exact sound
  | clock =>
      cases answer
      exact sound
  | lock =>
      obtain ⟨-, rfl⟩ := answer
      exact sound
  | unlock =>
      cases answer
      exact sound
  | openAppend =>
      rcases answer with ⟨rfl, -⟩ | ⟨-, -, inode, modified, -, rfl⟩
      · exact sound
      · exact .install
  | finishLastLine =>
      rcases answer with ⟨rfl, -⟩ | ⟨file, modified, found, -, rfl⟩
      · exact sound
      · exact sound.rewrite found
  | writeAll text =>
      obtain ⟨file, part, modified, found, -, -, rfl⟩ := answer
      exact sound.rewrite found
  | putFile text =>
      rcases answer with ⟨-, rfl⟩ | ⟨-, inode, modified, -, rfl⟩
      · exact sound
      · exact .install
  | removeFile =>
      rcases answer with rfl | rfl
      · exact sound
      · exact .unlink

theorem reachable_safe {programs : Unit → Program FileCall FileReply NoteMemory}
    (reached : (noteSystem shortLine).Reachable Disk.Begins programs disk) :
    disk.Sound ∧ (programs ()).Safe (among shortLine) Rests disk := by
  have empty {memory : NoteMemory} {disk : Disk} (sound : disk.Sound)
      (fresh : memory.note = none ∧ memory.holding = false) : Rests memory disk := by
    refine ⟨sound, fun note known => ?_, fun holding => ?_⟩
    · rw [fresh.1] at known
      cases known
    · rw [fresh.2] at holding
      cases holding
  induction reached with
  | start begun fresh => exact ⟨begun.used, empty begun.used (fresh ())⟩
  | @begin programs disk process memory program reached idle operation ih =>
      cases process
      rw [idle] at ih
      rw [Function.update_self]
      exact ⟨ih.1, operation.safe ih.2⟩
  | @step programs disk after process request next reply reached asks answered ih =>
      cases process
      rw [asks] at ih
      rw [Function.update_self]
      exact ⟨sound_of_answers ih.1 answered, ih.2.2 reply after answered⟩
  | drift reached moves ih => exact ⟨moves.onward.sound ih.1, safe_moved ih.2 moves⟩
  | @die programs disk after process memory reached died fresh ih =>
      cases process
      rw [Function.update_self]
      have sound : after.Sound := by
        rw [show after = _ from died]
        split
        · exact ih.1
        · exact ih.1
      exact ⟨sound, empty sound fresh⟩

end Runs

/-- With no whole unfinished address cut back, every look hands over what the note read
as at an instant between the call and its return. -/
theorem note_cache_is_invisible {programs : Unit → Program FileCall FileReply NoteMemory}
    {disk after : Disk} {memory left : NoteMemory} {set : Finset Mac}
    (reached : (noteSystem shortLine).Reachable Disk.Begins programs disk)
    (idle : programs () = .done memory)
    (looked : (withOwned memory).Reaches (among shortLine) disk.watched (.done (set, left)) after) :
    set ∈ after.instants := by
  have rests := (reachable_safe reached).2
  rw [idle] at rests
  have watching : Rests memory disk.watched := by
    refine ⟨rests.sound, fun note known => ?_, rests.holder⟩
    obtain ⟨earlier, legible, macs, inode, length, tracked⟩ := rests.trusted note known
    exact ⟨earlier, legible, macs, inode, length, tracked.used, tracked.same⟩
  exact (Program.Safe.result (withOwned_spec watching) looked).watched List.mem_cons_self

section Examples

/-- A look at the file as it stands, at the given time. -/
def Disk.shows (clock : Int) (disk : Disk) : (request : FileCall) → FileReply request × Disk
  | .metadata => (disk.file.map (·.metadata), disk)
  | .readToString =>
      match disk.file with
      | some file => if file.legible then (.read file.text, disk) else (.failed, disk.illegibly)
      | none => (.absent, disk)
  | .clock => (clock, disk)
  | .lock | .unlock | .removeFile => ((), disk)
  | .openAppend | .finishLastLine | .writeAll _ | .putFile _ => (false, disk)

/-- The calls that only look. -/
def FileCall.looks : FileCall → Bool
  | .metadata | .readToString | .clock => true
  | _ => false

theorem Disk.answers_shows {cuts : Text → Prop} {clock : Int} {disk : Disk} {request : FileCall}
    (looks : request.looks = true) :
    (among cuts).answers disk request (disk.shows clock request).1 (disk.shows clock request).2 := by
  refine ⟨disk, .refl, ?_⟩
  cases request with
  | metadata => exact ⟨rfl, .inr rfl⟩
  | readToString =>
      cases found : disk.file with
      | none =>
          simp only [Disk.shows, found]
          exact ⟨rfl, found⟩
      | some file =>
          simp only [Disk.shows, found]
          split
          · exact ⟨rfl, file, found, ‹_›, rfl⟩
          · exact rfl
  | clock => rfl
  | lock | unlock | removeFile | openAppend | finishLastLine | writeAll | putFile => cases looks

/-- A program that only looks, run on a note nobody is changing. -/
def looking {α : Type} (program : Program FileCall FileReply α) (disk : Disk) :
    Program FileCall FileReply α × Disk :=
  program.advance (Disk.shows 5) (fun _ request => request.looks) disk

theorem looking_reaches {α : Type} (cuts : Text → Prop) (program : Program FileCall FileReply α)
    (disk : Disk) :
    program.Reaches (among cuts) disk (looking program disk).1 (looking program disk).2 :=
  Program.advance_reaches (fun _ _ looks => Disk.answers_shows looks) program disk

/-- The note once another process added to it in one go. -/
def Disk.appended (disk : Disk) (file : NoteFile) (macs : List Mac) : Disk :=
  (((disk.setHolder .other).rewrite file (finished file.text) file.modified).rewrite
    { file with text := finished file.text } (finished file.text ++ noteLines macs)
    file.modified).setHolder .nobody

theorem Disk.moves_appended {cuts : Text → Prop} {disk : Disk} {file : NoteFile} (macs : List Mac)
    (free : disk.holder = .nobody) (found : disk.file = some file) (legible : file.legible = true)
    (allowed : cuts (lastLine file.text)) :
    Relation.ReflTransGen (Disk.Moves · cuts) disk (disk.appended file macs) := by
  have cut : ((disk.setHolder .other).rewrite file (finished file.text) file.modified).Moves cuts
      (((disk.setHolder .other).rewrite file (finished file.text) file.modified).rewrite
        { file with text := finished file.text } (finished file.text ++ noteLines macs)
        file.modified) :=
    .adds rfl rfl legible ⟨finished file.text, macs, finished_finished _, List.prefix_refl _,
      List.prefix_append _ _, List.prefix_refl _⟩
  exact .tail (.tail (.tail (.single (.takes free)) (.cutsBack rfl found legible allowed)) cut)
    (.drops rfl)

def firstMac : Mac := ⟨2, 0, 0, 0, 0, 1⟩

def secondMac : Mac := ⟨2, 0, 0, 0, 0, 2⟩

/-- A note of one file nobody is writing. -/
def Disk.holding (text : Text) : Disk := ⟨some ⟨1, text, true, 0⟩, .nobody, {1}, []⟩

theorem Disk.begins_holding (text : Text) : (Disk.holding text).Begins where
  free := nofun
  used file found := by
    cases found
    exact Finset.mem_singleton_self 1

/-- What a fresh process remembers of a note once it has looked at it. -/
def remembered (disk : Disk) : NoteMemory :=
  (looking (withOwned.leaving {}) disk).1.outcome.getD {}

theorem reachable_remembered {cuts : Text → Prop} {disk after : Disk} (begins : disk.Begins)
    (rests : (looking (withOwned.leaving {}) disk).1.rests = true)
    (moves : Relation.ReflTransGen (Disk.Moves · cuts) (looking (withOwned.leaving {}) disk).2
      after) :
    (noteSystem cuts).Reachable Disk.Begins (fun _ => .done (remembered disk)) after := by
  obtain ⟨memory, ended⟩ := Program.of_rests rests
  have same : remembered disk = memory := by
    rw [remembered, ended]
    rfl
  let fresh : Unit → NoteMemory := fun _ => {}
  have started : (noteSystem cuts).Reachable Disk.Begins (fun process => .done (fresh process))
      disk := .start begins fun _ => ⟨rfl, rfl⟩
  have begun : (noteSystem cuts).Reachable Disk.Begins
      (Function.update (fun process => .done (fresh process)) () (withOwned.leaving (fresh ())))
      disk := .begin started rfl .look
  have looked := begun.run (Function.update_self ..) (looking_reaches cuts _ disk)
  rw [ended] at looked
  have all : Function.update (Function.update (fun process => .done (fresh process)) ()
      (withOwned.leaving (fresh ()))) () (.done memory) =
      fun _ : Unit => (.done (remembered disk) : Program FileCall FileReply NoteMemory) := by
    funext process
    rw [same, Function.update_self]
  rw [← all]
  exact looked.drifting moves

/-- An address line whose newline somebody's editor left off, with a blank instead. -/
def unended : Disk := .holding (formatMac firstMac ++ [' '])

/-- The line is cut back and another address's line takes its place: the same file, as
long as before, in the same tick of the clock. -/
def replaced : Disk := unended.appended ⟨1, formatMac firstMac ++ [' '], true, 0⟩ [secondMac]

theorem cut_line_is_still_believed :
    ¬ ∀ (programs : Unit → Program FileCall FileReply NoteMemory) (disk after : Disk)
        (memory left : NoteMemory) (set : Finset Mac),
      (noteSystem fun _ => True).Reachable Disk.Begins programs disk →
      programs () = .done memory →
      (withOwned memory).Reaches (among fun _ => True) disk.watched (.done (set, left)) after →
      set ∈ after.instants := by
  intro invisible
  have moved : (looking (withOwned.leaving {}) unended).2 = unended := by rfl
  have reached : (noteSystem fun _ => True).Reachable Disk.Begins
      (fun _ => .done (remembered unended)) replaced := by
    refine reachable_remembered (Disk.begins_holding _) (by decide +kernel) ?_
    rw [moved]
    exact Disk.moves_appended _ rfl rfl rfl trivial
  have path := looking_reaches (fun _ => True) (withOwned (remembered unended)) replaced.watched
  have rests : (looking (withOwned (remembered unended)) replaced.watched).1.rests = true := by
    decide +kernel
  have apart : (looking (withOwned (remembered unended)) replaced.watched).1.outcome.map
      (fun result => decide (result.1 ∈
        (looking (withOwned (remembered unended)) replaced.watched).2.instants)) = some false := by
    decide +kernel
  obtain ⟨value, ended⟩ := Program.of_rests rests
  rw [ended] at path apart
  have seen := invisible _ _ _ _ _ _ reached rfl path
  simp [Program.outcome, seen] at apart

/-- The line of a note that ends as it should. -/
def ended : Disk := .holding (noteLines [firstMac])

def added : Disk := ended.appended ⟨1, noteLines [firstMac], true, 0⟩ [secondMac]

theorem note_cache_is_invisible_added : ∃ after : Disk, ∃ left,
    (withOwned (remembered ended)).Reaches (among shortLine) added.watched
      (.done ({firstMac, secondMac}, left)) after ∧ {firstMac, secondMac} ∈ after.instants := by
  have moved : (looking (withOwned.leaving {}) ended).2 = ended := by rfl
  have reached : (noteSystem shortLine).Reachable Disk.Begins
      (fun _ => .done (remembered ended)) added := by
    refine reachable_remembered (Disk.begins_holding _) (by decide +kernel) ?_
    rw [moved]
    exact Disk.moves_appended _ rfl rfl rfl (by decide : utf8Length [] < 17)
  have path := looking_reaches shortLine (withOwned (remembered ended)) added.watched
  have rests : (looking (withOwned (remembered ended)) added.watched).1.outcome.map (·.1) =
      some {firstMac, secondMac} := by
    decide +kernel
  obtain ⟨⟨set, left⟩, ended, same⟩ := Option.map_eq_some_iff.mp rests
  obtain rfl : set = {firstMac, secondMac} := same
  rw [Program.of_outcome ended] at path
  exact ⟨_, left, path, note_cache_is_invisible reached rfl path⟩

end Examples

end SriovMacSync.Cache
