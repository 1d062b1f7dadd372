import SriovMacSync.Cache.Invisible

namespace SriovMacSync.Cache

open Data Interaction Interaction.Action

/-! # What an append leaves of a note

Reading takes a last line that no newline ends for a line like any other, but
adding cuts it back first.  The two agree where that line names nobody of its own. -/

/-- The text under the note's name. -/
def textOf : Option NoteFile → Text
  | some file => file.text
  | none => []

/-- A copy that would be believed names what the file does. -/
def Honest (memory : NoteMemory) (disk : Disk) : Prop :=
  ∀ note file, memory.note = some note → disk.file = some file →
    note.isStill file.metadata = true →
    file.legible = true ∧ note.macs = noteSet file.text

theorem noteSet_eq_union (text : Text) :
    noteSet text = noteSet (finished text) ∪ noteSet (lastLine text) := by
  rw [← noteSet_append (finished_finished text), finished_append_lastLine]

theorem readsAs_eq {file : Option NoteFile} (legible : ∀ found, file = some found →
    found.legible = true) : readsAs file = noteSet (textOf file) := by
  cases file with
  | none => rfl
  | some found => rw [readsAs, if_pos (legible found rfl), textOf]

section Held

variable {memory : NoteMemory} {disk : Disk} {α : Type}

/-- What an append sees of the note while it holds the lock. -/
structure Unmoved (disk after : Disk) : Prop where
  held : after.holder = .keeper
  file : after.file = disk.file

theorem Unmoved.trans {middle after : Disk} (first : Unmoved disk middle)
    (second : Unmoved middle after) : Unmoved disk after :=
  ⟨second.held, second.file.trans first.file⟩

/-- With the lock held, a call is answered by the note as it stands. -/
theorem safe_ask_held {request : FileCall} {post : FileReply request → NoteMemory → Disk → Prop}
    (held : disk.holder = .keeper)
    (judged : ∀ reply after, disk.Answers (fun _ => True) request reply after →
      post reply memory after) :
    Safe (among fun _ => True) (ask request) post memory disk := by
  refine safe_ask.mpr ⟨trivial, ?_⟩
  intro reply after answered
  obtain ⟨middle, moves, answer⟩ := answered
  obtain rfl := Disk.eq_of_moves moves held
  exact judged reply after answer

theorem metadata_held (held : disk.holder = .keeper) :
    Safe (among fun _ => True) (ask .metadata) (fun found left after =>
      left = memory ∧ Unmoved disk after ∧
        ∀ seen, found = some seen → ∃ file, disk.file = some file ∧ file.metadata = seen)
      memory disk := by
  refine safe_ask_held held fun found after answer => ?_
  obtain ⟨rfl, shown⟩ := answer
  refine ⟨rfl, ⟨held, rfl⟩, fun seen known => ?_⟩
  subst known
  exact Option.map_eq_some_iff.mp (shown.resolve_left nofun).symm

theorem readOwned_held (held : disk.holder = .keeper) :
    Safe (among fun _ => True) readOwned (fun set left after =>
      Unmoved disk after ∧ left.note = memory.note ∧ (left.unreadable = false →
        set = noteSet (textOf disk.file) ∧
          ∀ file, disk.file = some file → file.legible = true)) memory disk := by
  refine safe_bind.mpr (safe_ask_held held fun reading after answer => ?_)
  cases reading with
  | read text =>
      obtain ⟨rfl, file, present, legible, rfl⟩ := answer
      refine ⟨⟨held, rfl⟩, rfl, fun _ => ⟨by rw [present, textOf], ?_⟩⟩
      intro other found
      rw [present] at found
      cases found
      exact legible
  | absent =>
      obtain ⟨rfl, absent⟩ := answer
      refine ⟨⟨held, rfl⟩, rfl, fun _ => ⟨by rw [absent]; rfl, ?_⟩⟩
      intro other found
      rw [absent] at found
      cases found
  | failed =>
      cases answer
      exact ⟨⟨held, rfl⟩, rfl, nofun⟩

/-- Remembering changes the memory only. -/
theorem remember_held {set : Finset Mac} {known : Option Metadata} (held : disk.holder = .keeper) :
    Safe (among fun _ => True) (remember set known) (fun _ left after =>
      Unmoved disk after ∧ left.unreadable = memory.unreadable ∧
        (known.isSome → left.note.map (·.macs) = some set)) memory disk := by
  cases known with
  | some seen =>
      refine safe_bind.mpr (safe_pure.mpr (safe_bind.mpr (safe_ask_held held ?_)))
      rintro now _ rfl
      exact ⟨⟨held, rfl⟩, rfl, fun _ => rfl⟩
  | none =>
      refine safe_bind.mpr ((metadata_held held).mono ?_)
      rintro found left middle ⟨rfl, unmoved, -⟩
      cases found with
      | none => exact ⟨unmoved, rfl, nofun⟩
      | some seen =>
          refine safe_bind.mpr (safe_ask_held unmoved.held ?_)
          rintro now _ rfl
          exact ⟨unmoved, rfl, nofun⟩

theorem usable_held (held : disk.holder = .keeper) (honest : Honest memory disk) :
    Safe (among fun _ => True) usable (fun believed left after =>
      left = memory ∧ Unmoved disk after ∧ (believed = true → ∃ note, memory.note = some note ∧
        note.macs = noteSet (textOf disk.file) ∧
          ∀ file, disk.file = some file → file.legible = true)) memory disk := by
  refine safe_bind.mpr ((metadata_held held).mono ?_)
  rintro found left after ⟨rfl, unmoved, shown⟩
  cases found with
  | none => exact ⟨rfl, unmoved, nofun⟩
  | some seen =>
      refine ⟨rfl, unmoved, fun believed => ?_⟩
      obtain ⟨file, present, rfl⟩ := shown seen rfl
      obtain ⟨note, known, still⟩ := (Option.any_eq_true ..).mp believed
      obtain ⟨legible, macs⟩ := honest note file known present still
      refine ⟨note, known, by rw [macs, present, textOf], fun other found => ?_⟩
      rw [present] at found
      cases found
      exact legible

/-- An append starts from what the file names, unless the note cannot be read. -/
theorem withOwned_held (held : disk.holder = .keeper) (honest : Honest memory disk) :
    Safe (among fun _ => True) withOwned (fun set left after =>
      Unmoved disk after ∧ (left.unreadable = false →
        set = noteSet (textOf disk.file) ∧
          ∀ file, disk.file = some file → file.legible = true)) memory disk := by
  refine safe_bind.mpr ((usable_held held honest).mono ?_)
  rintro believed left first ⟨rfl, unmoved, trusted⟩
  cases believed with
  | true =>
      obtain ⟨note, known, macs, legible⟩ := trusted rfl
      refine safe_bind.mpr (safe_get.mpr ?_)
      rw [known]
      exact ⟨unmoved, fun _ => ⟨macs, legible⟩⟩
  | false =>
      refine safe_bind.mpr ((metadata_held unmoved.held).mono ?_)
      rintro before left' second ⟨rfl, unmoved', -⟩
      refine safe_bind.mpr ((readOwned_held unmoved'.held).mono ?_)
      rintro set read third ⟨unmoved'', -, reads⟩
      refine safe_bind.mpr ((metadata_held unmoved''.held).mono ?_)
      rintro later read' fourth ⟨rfl, unmoved''', -⟩
      have still := unmoved.trans unmoved'
      have whole := still.trans (unmoved''.trans unmoved''')
      rw [still.file] at reads
      refine safe_bind.mpr (safe_get.mpr ?_)
      cases unreadable : read'.unreadable with
      | true => simpa [unreadable, NoteMemory.forgetIndexed] using whole
      | false =>
          by_cases steady : (before.isSome && before == later) = true
          · simp only [steady, Bool.not_false, Bool.and_self, if_true]
            refine safe_bind.mpr ((remember_held whole.held).mono ?_)
            rintro _ left fifth ⟨unmoved, -, known⟩
            obtain ⟨isSome, same⟩ := Bool.and_eq_true_iff.mp steady
            obtain rfl := eq_of_beq same
            obtain ⟨note, found, rfl⟩ := Option.map_eq_some_iff.mp (known isSome)
            refine safe_bind.mpr (safe_get.mpr ?_)
            rw [found]
            exact ⟨whole.trans unmoved, fun _ => reads unreadable⟩
          · simpa [unreadable, steady, NoteMemory.forgetIndexed] using ⟨whole, reads unreadable⟩

/-- Lines are added behind what was finished. -/
theorem addLines_held {macs : List Mac} (held : disk.holder = .keeper)
    (legible : ∀ file, disk.file = some file → file.legible = true) :
    Safe (among fun _ => True) (addLines (noteLines macs)) (fun wrote _ after =>
      after.holder = .keeper ∧ (wrote = true →
        readsAs after.file = noteSet (finished (textOf disk.file)) ∪ macs.toFinset))
      memory disk := by
  refine safe_bind.mpr (safe_ask_held held fun opened first answer => ?_)
  have ready : first.holder = .keeper ∧ textOf first.file = textOf disk.file ∧
      ∀ file, first.file = some file → file.legible = true := by
    rcases answer with ⟨rfl, -⟩ | ⟨-, missing, inode, modified, -, rfl⟩
    · exact ⟨held, rfl, legible⟩
    · exact ⟨held, by rw [missing]; rfl, fun _ found => by cases found; rfl⟩
  obtain ⟨held, same, legible⟩ := ready
  cases opened with
  | false => exact ⟨held, nofun⟩
  | true =>
      refine safe_bind.mpr (safe_ask_held held fun tidy second answer => ?_)
      have cut : second.holder = .keeper ∧
          (tidy = true → textOf second.file = finished (textOf first.file)) ∧
          ∀ file, second.file = some file → file.legible = true := by
        rcases answer with ⟨rfl, ended⟩ | ⟨file, modified, present, -, rfl⟩
        · refine ⟨held, fun done => ?_, legible⟩
          cases present : second.file with
          | none => rfl
          | some file =>
              have whole := finished_append_lastLine file.text
              rw [ended done file present, List.append_nil] at whole
              exact whole.symm
        · refine ⟨held, fun _ => by rw [present]; rfl, fun other found => ?_⟩
          cases found
          exact legible file present
      obtain ⟨held, tidied, legible⟩ := cut
      cases tidy with
      | false => exact ⟨held, nofun⟩
      | true =>
          refine safe_ask_held held fun done third answer => ?_
          obtain ⟨file, part, modified, present, -, whole, rfl⟩ := answer
          refine ⟨held, fun wrote => ?_⟩
          have text : file.text = finished (textOf disk.file) := by
            rw [← same, ← tidied rfl, present, textOf]
          have ends : finished file.text = file.text := by rw [text, finished_finished]
          rw [whole wrote, ← text]
          change (if file.legible = true then noteSet (file.text ++ noteLines macs) else ∅) = _
          rw [if_pos (legible file present), noteSet_append ends, noteSet_noteLines]

/-- What the note names after an append that succeeded. -/
theorem appendOwnedLocked_held (added : List Mac) (held : disk.holder = .keeper)
    (honest : Honest memory disk) :
    Safe (among fun _ => True) (appendOwnedLocked added) (fun out _ after =>
      out.isSome → readsAs disk.file = noteSet (textOf disk.file) ∧
        readsAs after.file =
          if added.toFinset ⊆ noteSet (textOf disk.file) then noteSet (textOf disk.file)
          else noteSet (finished (textOf disk.file)) ∪
            (added.toFinset \ noteSet (textOf disk.file))) memory disk := by
  refine safe_bind.mpr ((withOwned_held held honest).mono ?_)
  intro set left first looked
  obtain ⟨unmoved, reads⟩ := looked
  refine safe_bind.mpr (safe_get.mpr ?_)
  split
  · exact nofun
  · rename_i readable
    obtain ⟨rfl, legible⟩ := reads (by simpa using readable)
    have before := readsAs_eq legible
    rw [← unmoved.file] at legible
    have fresh : added.filter (· ∉ noteSet (textOf disk.file)) = [] ↔
        added.toFinset ⊆ noteSet (textOf disk.file) := by
      simp [List.filter_eq_nil_iff, Finset.subset_iff]
    split
    · rename_i none_fresh
      intro _
      rw [if_pos (fresh.mp none_fresh), unmoved.file]
      exact ⟨before, before⟩
    · rename_i some_fresh
      rw [if_neg (mt fresh.mpr some_fresh), ← unmoved.file]
      refine safe_bind.mpr (safe_get.mpr (safe_bind.mpr ((addLines_held unmoved.held legible).mono ?_)))
      rintro wrote left second ⟨held, written⟩
      cases wrote with
      | false => exact nofun
      | true =>
          refine safe_bind.mpr ((remember_held held).mono ?_)
          rintro _ left' after ⟨unmoved', -, -⟩
          have named : readsAs after.file = noteSet (finished (textOf first.file)) ∪
              (added.toFinset \ noteSet (textOf first.file)) := by
            rw [unmoved'.file, written rfl, unmoved.file]
            congr 1
            ext mac
            simp
          rw [unmoved.file] at named ⊢
          refine safe_bind.mpr (safe_get.mpr ?_)
          split
          · exact fun _ => ⟨before, named⟩
          · exact fun _ => ⟨before, named⟩

end Held

/-- An append keeps every line exactly where it adds nothing, or where what stands
behind the last newline names nobody that the lines before it do not. -/
theorem append_keeps_the_lines {memory left : NoteMemory} {disk after : Disk} {added : List Mac}
    {written : List Mac} (held : disk.holder = .keeper) (honest : Honest memory disk)
    (ran : Runs (among fun _ => True) (appendOwnedLocked added) memory disk (some written) left
      after) :
    readsAs after.file = readsAs disk.file ∪ added.toFinset ↔
      added.toFinset ⊆ noteSet (textOf disk.file) ∨
        noteSet (lastLine (textOf disk.file)) ⊆ noteSet (finished (textOf disk.file)) := by
  obtain ⟨before, named⟩ := (appendOwnedLocked_held added held honest).runs ran rfl
  have whole := noteSet_eq_union (textOf disk.file)
  rw [before, named]
  split
  · rename_i nothing
    exact ⟨fun _ => .inl nothing, fun _ => (Finset.union_eq_left.mpr nothing).symm⟩
  · rename_i fresh
    refine ⟨fun same => .inr fun mac unfinished => ?_, fun harmless => ?_⟩
    · have noted : mac ∈ noteSet (textOf disk.file) := by
        rw [whole]
        exact Finset.mem_union_right _ unfinished
      have kept : mac ∈ noteSet (textOf disk.file) ∪ added.toFinset :=
        Finset.mem_union_left _ noted
      rw [← same, Finset.mem_union, Finset.mem_sdiff] at kept
      exact kept.resolve_right fun gone => gone.2 noted
    · have same : noteSet (textOf disk.file) = noteSet (finished (textOf disk.file)) :=
        whole.trans (Finset.union_eq_left.mpr (harmless.resolve_left fresh))
      rw [← same]
      exact Finset.union_sdiff_self_eq_union

section Examples

/-- A note there is, and every look at it and every write to it goes through. -/
def Disk.serves (clock : Int) (disk : Disk) : (request : FileCall) → FileReply request × Disk
  | .openAppend => (true, disk)
  | .finishLastLine =>
      match disk.file with
      | some file => (true, disk.rewrite file (finished file.text) file.modified)
      | none => (false, disk)
  | .writeAll text =>
      match disk.file with
      | some file => (true, disk.rewrite file (file.text ++ text) file.modified)
      | none => (false, disk)
  | request => disk.shows clock request

def FileCall.appends : FileCall → Bool
  | .openAppend | .finishLastLine | .writeAll _ => true
  | _ => false

theorem Disk.answers_serves {clock : Int} {disk : Disk} {request : FileCall}
    (goes : (request.looks || disk.file.isSome && request.appends) = true) :
    (among fun _ => True).answers disk request (disk.serves clock request).1
      (disk.serves clock request).2 := by
  rcases Bool.or_eq_true_iff.mp goes with looks | writes
  · have shown := @Disk.answers_shows (fun _ => True) clock disk request looks
    cases request with
    | metadata => exact shown
    | readToString => exact shown
    | clock => exact shown
    | _ => cases looks
  · obtain ⟨present, appends⟩ := Bool.and_eq_true_iff.mp writes
    obtain ⟨file, found⟩ := Option.isSome_iff_exists.mp present
    refine ⟨disk, .refl, ?_⟩
    cases request with
    | openAppend => exact .inl ⟨rfl, fun _ => by rw [found]; nofun⟩
    | finishLastLine =>
        simp only [Disk.serves, found]
        exact .inr ⟨file, file.modified, found, trivial, rfl⟩
    | writeAll text =>
        simp only [Disk.serves, found]
        exact ⟨file, text, file.modified, found, List.prefix_refl _, fun _ => rfl, rfl⟩
    | _ => cases appends

/-- An append by a process that remembers nothing of the note. -/
def appending (added : List Mac) (disk : Disk) :
    Program FileCall FileReply (Option (List Mac) × NoteMemory) × Disk :=
  (appendOwnedLocked added {}).advance (Disk.serves 5)
    (fun disk request => request.looks || disk.file.isSome && request.appends) disk

theorem runs_appending {added written : List Mac} {disk : Disk}
    (ended : (appending added disk).1.outcome.map (·.1) = some (some written)) :
    ∃ left, Runs (among fun _ => True) (appendOwnedLocked added) {} disk (some written) left
      (appending added disk).2 := by
  obtain ⟨⟨out, left⟩, ended, same⟩ := Option.map_eq_some_iff.mp ended
  obtain rfl : out = some written := same
  refine ⟨left, ?_⟩
  have path : (appendOwnedLocked added {}).Reaches (among fun _ => True) disk
      (appending added disk).1 (appending added disk).2 :=
    Program.advance_reaches (fun _ _ goes => Disk.answers_serves goes) _ disk
  rwa [Program.of_outcome ended] at path

theorem honest_fresh (disk : Disk) : Honest {} disk := fun _ _ known => by cases known

/-- A note whose line a write left without its newline. -/
def cutOff : Disk := (Disk.holding (formatMac firstMac)).setHolder .keeper

theorem append_loses_the_last_line :
    ¬ ∀ (memory left : NoteMemory) (disk after : Disk) (added written : List Mac),
      disk.holder = .keeper → Honest memory disk →
      Runs (among fun _ => True) (appendOwnedLocked added) memory disk (some written) left after →
      readsAs after.file = readsAs disk.file ∪ added.toFinset := by
  intro keeps
  obtain ⟨left, ran⟩ := @runs_appending [secondMac] [secondMac] cutOff (by decide +kernel)
  have lost : readsAs (appending [secondMac] cutOff).2.file ≠
      readsAs cutOff.file ∪ [secondMac].toFinset := by decide +kernel
  exact lost (keeps {} left cutOff _ [secondMac] [secondMac] rfl (honest_fresh _) ran)

/-- The same note with its line ended, and a write that stopped right behind it. -/
def cutShort : Disk :=
  (Disk.holding (noteLines [firstMac] ++ ['0', '2', ':'])).setHolder .keeper

theorem append_keeps_the_lines_cut :
    ∃ left, Runs (among fun _ => True) (appendOwnedLocked [secondMac]) {} cutShort
        (some [secondMac]) left (appending [secondMac] cutShort).2 ∧
      (readsAs (appending [secondMac] cutShort).2.file =
          readsAs cutShort.file ∪ [secondMac].toFinset ↔
        [secondMac].toFinset ⊆ noteSet (textOf cutShort.file) ∨
          noteSet (lastLine (textOf cutShort.file)) ⊆
            noteSet (finished (textOf cutShort.file))) := by
  obtain ⟨left, ran⟩ := @runs_appending [secondMac] [secondMac] cutShort (by decide +kernel)
  exact ⟨left, ran, append_keeps_the_lines rfl (honest_fresh _) ran⟩

end Examples

end SriovMacSync.Cache
