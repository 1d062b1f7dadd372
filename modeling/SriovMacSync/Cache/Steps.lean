import SriovMacSync.Cache.Trust

namespace SriovMacSync.Cache

open Data Interaction Interaction.Action

/-! # What each function does to the copy -/

variable {memory : NoteMemory} {disk : Disk}

/-- What a look at the note leaves: the copy is still to be trusted, and the addresses
handed over are what the note read as at some instant since. -/
structure Looked (memory : NoteMemory) (disk : Disk) (set : Finset Mac) (left : NoteMemory)
    (after : Disk) : Prop where
  onward : disk.Onward after
  trusted : ∀ note, left.note = some note → Trusted note after
  holding : left.holding = memory.holding
  watched : readsAs disk.file ∈ disk.instants → set ∈ after.instants
  current : disk.holder = .keeper → left.unreadable = false →
    set = readsAs disk.file ∧ ∀ file, disk.file = some file → file.legible = true

section Looking

theorem metadata_spec : Safe (among shortLine) (ask .metadata) (fun found left after =>
    left = memory ∧ disk.Onward after ∧
      ∀ seen, found = some seen → ∃ file, after.file = some file ∧ file.metadata = seen)
    memory disk := by
  refine safe_ask.mpr ⟨trivial, ?_⟩
  intro found after answered
  obtain ⟨middle, moves, rfl, shown⟩ := answered
  refine ⟨rfl, Disk.onward_of_moves moves, ?_⟩
  intro seen known
  subst known
  rcases shown with none | some
  · cases none
  · obtain ⟨file, present, metadata⟩ := Option.map_eq_some_iff.mp some.symm
    exact ⟨file, present, metadata⟩

theorem clock_spec : Safe (among shortLine) (ask .clock) (fun _ left after =>
    left = memory ∧ disk.Onward after) memory disk := by
  refine safe_ask.mpr ⟨trivial, ?_⟩
  intro now after answered
  obtain ⟨middle, moves, rfl⟩ := answered
  exact ⟨rfl, Disk.onward_of_moves moves⟩

theorem readOwned_spec : Safe (among shortLine) readOwned (fun set left after =>
    disk.Onward after ∧ left.note = memory.note ∧ left.holding = memory.holding ∧
      (readsAs disk.file ∈ disk.instants → set ∈ after.instants) ∧
      (left.unreadable = true → set = ∅) ∧
      (left.unreadable = false → set = readsAs after.file ∧
        ∀ file, after.file = some file → file.legible = true)) memory disk := by
  refine safe_bind.mpr (safe_ask.mpr ⟨trivial, ?_⟩)
  intro reading after answered
  obtain ⟨middle, moves, answer⟩ := answered
  have onward := Disk.onward_of_moves moves
  cases reading with
  | read text =>
      obtain ⟨rfl, file, present, legible, rfl⟩ := answer
      have reads : readsAs after.file = noteSet file.text := by
        rw [present, readsAs, if_pos legible]
      refine ⟨onward, rfl, rfl, ?_, (by cases ·), fun _ => ⟨reads.symm, ?_⟩⟩
      · intro watching
        rw [← reads]
        exact onward.watched watching
      · intro other shown
        rw [present] at shown
        cases shown
        exact legible
  | absent =>
      obtain ⟨rfl, missing⟩ := answer
      have reads : readsAs after.file = ∅ := by rw [missing, readsAs]
      refine ⟨onward, rfl, rfl, ?_, (by cases ·), fun _ => ⟨reads.symm, ?_⟩⟩
      · intro watching
        rw [← reads]
        exact onward.watched watching
      · intro other shown
        rw [missing] at shown
        cases shown
  | failed =>
      cases answer
      refine ⟨onward.trans (.illegibly middle), rfl, rfl, fun _ => List.mem_cons_self, fun _ => rfl, ?_⟩
      intro readable
      cases readable

theorem usable_spec (rests : Rests memory disk) :
    Safe (among shortLine) usable (fun believed left after =>
      left = memory ∧ disk.Onward after ∧
        (believed = true → (∃ note, memory.note = some note ∧ note.macs = readsAs after.file) ∧
          ∀ file, after.file = some file → file.legible = true))
      memory disk := by
  refine safe_bind.mpr (metadata_spec.mono ?_)
  rintro found left after ⟨rfl, onward, shown⟩
  cases found with
  | none => exact ⟨rfl, onward, fun believed => by cases believed⟩
  | some seen =>
      obtain ⟨file, present, rfl⟩ := shown seen rfl
      refine ⟨rfl, onward, ?_⟩
      intro believed
      cases known : left.note with
      | none =>
          change left.note.any (·.isStill file.metadata) = true at believed
          rw [known] at believed
          cases believed
      | some note =>
          change left.note.any (·.isStill file.metadata) = true at believed
          rw [known] at believed
          obtain ⟨legible, macs⟩ :=
            ((rests.trusted note known).onward onward).believed present believed
          refine ⟨⟨note, rfl, macs⟩, ?_⟩
          intro other shown
          rw [present] at shown
          cases shown
          exact legible

/-- A copy of what was read is trusted when the file kept its identity from before the
reading until after it. -/
theorem remember_known {set : Finset Mac} {file : NoteFile} (sound : disk.Sound)
    (present : disk.file = some file) (legible : file.legible = true)
    (macs : noteSet file.text = set) :
    Safe (among shortLine) (remember set (some file.metadata)) (fun _ left after =>
      disk.Onward after ∧ left.holding = memory.holding ∧ left.unreadable = memory.unreadable ∧
        ∃ note, left.note = some note ∧ note.macs = set ∧ Trusted note after) memory disk := by
  refine safe_bind.mpr (safe_pure.mpr (safe_bind.mpr (clock_spec.mono ?_)))
  rintro now left after ⟨rfl, onward⟩
  refine ⟨onward, rfl, rfl, _, rfl, rfl, ?_⟩
  exact ⟨file, legible, macs, rfl, rfl, onward.tracked (.here sound present)⟩

/-- What is remembered of a file just written, the lock held. -/
theorem remember_written {set : Finset Mac} {file : NoteFile} (sound : disk.Sound)
    (held : disk.holder = .keeper) (present : disk.file = some file)
    (legible : file.legible = true) (macs : noteSet file.text = set) :
    Safe (among shortLine) (remember set none) (fun _ left after =>
      disk.Onward after ∧ left.holding = memory.holding ∧ left.unreadable = memory.unreadable ∧
        ∀ note, left.note = some note →
          note.length = utf8Length file.text ∧ Trusted note after) memory disk := by
  refine safe_bind.mpr (metadata_spec.mono ?_)
  rintro found left middle ⟨rfl, onward, shown⟩
  have presentNow : middle.file = some file := (onward.held held).2.trans present
  cases found with
  | none => exact ⟨onward, rfl, rfl, fun note known => by cases known⟩
  | some seen =>
      obtain ⟨other, presentSeen, rfl⟩ := shown seen rfl
      rw [presentNow] at presentSeen
      cases presentSeen
      refine safe_bind.mpr (clock_spec.mono ?_)
      rintro now left after ⟨rfl, later⟩
      refine ⟨onward.trans later, rfl, rfl, ?_⟩
      intro note known
      cases known
      exact ⟨rfl, file, legible, macs, rfl, rfl,
        later.tracked (.here (onward.sound sound) presentNow)⟩

/-- A copy that could not be made leaves nothing to trust. -/
theorem Looked.forgotten {set : Finset Mac} {left : NoteMemory} {after : Disk}
    (onward : disk.Onward after) (holding : left.holding = memory.holding)
    (watched : readsAs disk.file ∈ disk.instants → set ∈ after.instants)
    (current : disk.holder = .keeper → left.unreadable = false →
      set = readsAs disk.file ∧ ∀ file, disk.file = some file → file.legible = true) :
    Looked memory disk set left.forgetIndexed after where
  onward := onward
  trusted note known := by cases known
  holding := holding
  watched := watched
  current := current

/-- Whatever the others do meanwhile, the addresses handed over are what the note read
as at some instant, and so is what is remembered. -/
theorem withOwned_spec (rests : Rests memory disk) :
    Safe (among shortLine) withOwned (Looked memory disk) memory disk := by
  refine safe_bind.mpr ((usable_spec rests).mono ?_)
  rintro believed left first ⟨rfl, onward, trusted⟩
  cases believed with
  | true =>
      obtain ⟨⟨note, known, macs⟩, legible⟩ := trusted rfl
      refine safe_bind.mpr (safe_get.mpr ?_)
      rw [known]
      exact {
        onward := onward
        trusted := fun note known => (rests.trusted note known).onward onward
        holding := rfl
        watched := fun watching => by rw [macs]; exact onward.watched watching
        current := fun held _ => by
          rw [(onward.held held).2] at macs legible
          exact ⟨macs, legible⟩ }
  | false =>
      refine safe_bind.mpr (metadata_spec.mono ?_)
      rintro before left' second ⟨rfl, onward', shownBefore⟩
      refine safe_bind.mpr (readOwned_spec.mono ?_)
      rintro set read third ⟨onward'', -, holding, watched, failed, reads⟩
      refine safe_bind.mpr (metadata_spec.mono ?_)
      rintro afterwards read' fourth ⟨rfl, onward''', shownAfter⟩
      have whole : disk.Onward fourth := onward.trans (onward'.trans (onward''.trans onward'''))
      have early : disk.Onward second := onward.trans onward'
      have seen : readsAs disk.file ∈ disk.instants → set ∈ fourth.instants :=
        fun watching => onward'''.grows.subset (watched (early.watched watching))
      have now (held : disk.holder = .keeper) (readable : read'.unreadable = false) :
          set = readsAs disk.file ∧ ∀ file, disk.file = some file → file.legible = true := by
        rw [← ((early.trans onward'').held held).2]
        exact reads readable
      refine safe_bind.mpr (safe_get.mpr ?_)
      cases unreadable : read'.unreadable with
      | true =>
          have nobody : Looked left' disk ∅ read'.forgetIndexed fourth := by
            rw [failed unreadable] at seen now
            exact .forgotten whole holding seen now
          simpa [unreadable, NoteMemory.forgetIndexed] using nobody
      | false =>
          by_cases steady : (before.isSome && before == afterwards) = true
          · obtain ⟨isSome, same⟩ := Bool.and_eq_true_iff.mp steady
            obtain ⟨found, rfl⟩ := Option.isSome_iff_exists.mp isSome
            obtain rfl := eq_of_beq same
            obtain ⟨file, present, rfl⟩ := shownBefore _ rfl
            obtain ⟨file', present', same⟩ := shownAfter _ rfl
            obtain ⟨legible, macs⟩ := Disk.steady (early.sound rests.sound) onward'' onward''' present
              present' same (reads unreadable).2
            rw [← (reads unreadable).1] at macs
            rw [← same] at steady ⊢
            have remembered := @remember_known read' _ _ _ (whole.sound rests.sound) present'
              legible macs
            simp only [steady, Bool.not_false, Bool.and_self, if_true]
            refine safe_bind.mpr (remembered.mono ?_)
            rintro _ left fifth ⟨onward, holding', readable, note, known, macs', trusted⟩
            refine safe_bind.mpr (safe_get.mpr ?_)
            rw [known]
            cases macs'
            exact {
              onward := whole.trans onward
              trusted := fun other known' => by
                rw [known] at known'
                cases known'
                exact trusted
              holding := holding'.trans holding
              watched := fun watching => onward.grows.subset (seen watching)
              current := fun held _ => now held unreadable }
          · have moved : Looked left' disk set read'.forgetIndexed fourth :=
              .forgotten whole holding seen now
            simpa [unreadable, steady, NoteMemory.forgetIndexed] using moved

end Looking

section Writing

/-- Between two calls on the file while the lock is held. -/
structure Holds (memory left : NoteMemory) (after : Disk) : Prop where
  sound : after.Sound
  held : after.holder = .keeper
  same : left = memory

theorem Holds.rests {left : NoteMemory} {after : Disk} (holds : Holds memory left after)
    (trusted : ∀ note, memory.note = some note → Trusted note after) : Rests left after := by
  obtain ⟨sound, held, rfl⟩ := holds
  exact ⟨sound, trusted, fun _ => held⟩

theorem Holds.forgotten {left : NoteMemory} {after : Disk} (holds : Holds memory left after) :
    Rests left.forget after :=
  ⟨holds.sound, fun note known => by (cases known), fun _ => holds.held⟩

theorem openAppend_spec (sound : disk.Sound) (held : disk.holder = .keeper)
    (legible : ∀ file, disk.file = some file → file.legible = true) :
    Safe (among shortLine) (ask .openAppend) (fun opened left after =>
      Holds memory left after ∧ (opened = true → ∃ file, after.file = some file ∧
        file.legible = true ∧ noteSet file.text = readsAs disk.file)) memory disk := by
  refine safe_ask.mpr ⟨trivial, ?_⟩
  intro opened after answered
  obtain ⟨middle, moves, answer⟩ := answered
  obtain rfl := Disk.eq_of_moves moves held
  rcases answer with ⟨rfl, present⟩ | ⟨rfl, missing, inode, modified, fresh, rfl⟩
  · refine ⟨⟨sound, held, rfl⟩, ?_⟩
    intro done
    obtain ⟨file, found⟩ := Option.ne_none_iff_exists'.mp (present done)
    refine ⟨file, found, legible file found, ?_⟩
    rw [found, readsAs, if_pos (legible file found)]
  · refine ⟨⟨.install, held, rfl⟩, fun _ => ⟨_, rfl, rfl, ?_⟩⟩
    rw [missing]
    rfl

theorem finishLastLine_spec {file : NoteFile} (sound : disk.Sound) (held : disk.holder = .keeper)
    (present : disk.file = some file) (legible : file.legible = true) :
    Safe (among shortLine) (ask .finishLastLine) (fun tidy left after =>
      Holds memory left after ∧ (tidy = true → ∃ now, after.file = some now ∧
        now.legible = true ∧ finished now.text = now.text ∧
          noteSet now.text = noteSet file.text)) memory disk := by
  refine safe_ask.mpr ⟨trivial, ?_⟩
  intro tidy after answered
  obtain ⟨middle, moves, answer⟩ := answered
  obtain rfl := Disk.eq_of_moves moves held
  rcases answer with ⟨rfl, ended⟩ | ⟨other, modified, found, short, rfl⟩
  · refine ⟨⟨sound, held, rfl⟩, fun done => ⟨file, present, legible, ?_, rfl⟩⟩
    have whole := finished_append_lastLine file.text
    rw [ended done file present, List.append_nil] at whole
    exact whole
  · rw [present] at found
    cases found
    exact ⟨⟨sound.rewrite present, held, rfl⟩,
      fun _ => ⟨_, rfl, legible, finished_finished _, (noteSet_of_short short).symm⟩⟩

theorem writeAll_spec {file : NoteFile} {macs : List Mac} (sound : disk.Sound)
    (held : disk.holder = .keeper) (present : disk.file = some file)
    (legible : file.legible = true) (ended : finished file.text = file.text) :
    Safe (among shortLine) (ask (.writeAll (noteLines macs))) (fun done left after =>
      Holds memory left after ∧ (done = true → ∃ now, after.file = some now ∧
        now.legible = true ∧ noteSet now.text = noteSet file.text ∪ macs.toFinset))
      memory disk := by
  refine safe_ask.mpr ⟨trivial, ?_⟩
  intro done after answered
  obtain ⟨middle, moves, other, part, modified, found, front, whole, rfl⟩ := answered
  obtain rfl := Disk.eq_of_moves moves held
  rw [present] at found
  cases found
  refine ⟨⟨sound.rewrite present, held, rfl⟩, fun done => ⟨_, rfl, legible, ?_⟩⟩
  rw [whole done]
  change noteSet (file.text ++ noteLines macs) = _
  rw [noteSet_append ended, noteSet_noteLines]

theorem addLines_spec {macs : List Mac} (sound : disk.Sound) (held : disk.holder = .keeper)
    (legible : ∀ file, disk.file = some file → file.legible = true) :
    Safe (among shortLine) (addLines (noteLines macs)) (fun wrote left after =>
      Holds memory left after ∧ (wrote = true → ∃ now, after.file = some now ∧
        now.legible = true ∧ noteSet now.text = readsAs disk.file ∪ macs.toFinset))
      memory disk := by
  refine safe_bind.mpr ((openAppend_spec sound held legible).mono ?_)
  rintro opened _ first ⟨⟨sound, held, rfl⟩, present⟩
  cases opened with
  | false => exact ⟨⟨sound, held, rfl⟩, fun wrote => by cases wrote⟩
  | true =>
      obtain ⟨file, present, legible, reads⟩ := present rfl
      refine safe_bind.mpr ((finishLastLine_spec sound held present legible).mono ?_)
      rintro tidy _ second ⟨⟨sound, held, rfl⟩, finishes⟩
      cases tidy with
      | false => exact ⟨⟨sound, held, rfl⟩, fun wrote => by cases wrote⟩
      | true =>
          obtain ⟨now, present, legible, ended, reads'⟩ := finishes rfl
          rw [← reads, ← reads']
          exact writeAll_spec sound held present legible ended

variable (rests : Rests memory disk) (holding : memory.holding = true)

include rests holding

theorem writeOwned_spec (set : Finset Mac) :
    Safe (among shortLine) (writeOwned set) (fun _ left after => Rests left after)
      memory disk := by
  have held := rests.holder holding
  refine safe_bind.mpr (safe_get.mpr ?_)
  split
  · exact rests
  · refine safe_bind.mpr ((withOwned_spec rests).mono ?_)
    intro owned left middle looked
    have heldNow := (looked.onward.held held).1
    have restsNow : Rests left middle :=
      ⟨looked.onward.sound rests.sound, looked.trusted, fun _ => heldNow⟩
    split
    · exact restsNow
    · refine safe_bind.mpr (safe_ask.mpr ⟨trivial, ?_⟩)
      intro written after answered
      obtain ⟨now, moves, answer⟩ := answered
      obtain rfl := Disk.eq_of_moves moves heldNow
      rcases answer with ⟨rfl, rfl⟩ | ⟨rfl, inode, modified, fresh, rfl⟩
      · exact ⟨restsNow.sound, fun note known => by (cases known), fun _ => heldNow⟩
      · refine safe_bind.mpr ((remember_written .install heldNow rfl rfl ?_).mono ?_)
        · exact (noteSet_noteLines _).trans (ascending_toFinset set)
        · rintro _ left' after ⟨onward, -, -, trusted⟩
          exact ⟨onward.sound .install, fun note known => (trusted note known).2,
            fun _ => (onward.held heldNow).1⟩

theorem appendOwnedLocked_spec (added : List Mac) :
    Safe (among shortLine) (appendOwnedLocked added) (fun _ left after => Rests left after)
      memory disk := by
  have held := rests.holder holding
  refine safe_bind.mpr ((withOwned_spec rests).mono ?_)
  intro owned left first looked
  have heldFirst := looked.onward.held held
  have soundFirst := looked.onward.sound rests.sound
  have restsFirst : Rests left first := ⟨soundFirst, looked.trusted, fun _ => heldFirst.1⟩
  refine safe_bind.mpr (safe_get.mpr ?_)
  split
  · exact restsFirst
  · rename_i readable
    obtain ⟨current, legible⟩ := looked.current held (by simpa using readable)
    rw [← heldFirst.2] at current legible
    split
    · exact restsFirst
    · refine safe_bind.mpr (safe_get.mpr (safe_bind.mpr
        ((addLines_spec soundFirst heldFirst.1 legible).mono ?_)))
      rintro wrote _ second ⟨holds, written⟩
      cases wrote with
      | false => exact holds.forgotten
      | true =>
          obtain ⟨file, present, plain, reads⟩ := written rfl
          rw [← current] at reads
          refine safe_bind.mpr ((remember_written holds.sound holds.held present plain reads).mono ?_)
          rintro _ left' after ⟨onward, -, -, trusted⟩
          have soundAfter := onward.sound holds.sound
          have heldAfter := (onward.held holds.held).1
          refine safe_bind.mpr (safe_get.mpr ?_)
          split
          · exact ⟨soundAfter, fun note known => by (cases known), fun _ => heldAfter⟩
          · exact ⟨soundAfter, fun note known => (trusted note known).2, fun _ => heldAfter⟩

theorem removeNote_spec :
    Safe (among shortLine) removeNote (fun _ left after => Rests left after) memory disk := by
  have held := rests.holder holding
  refine safe_bind.mpr (safe_ask.mpr ⟨trivial, ?_⟩)
  intro _ after answered
  obtain ⟨middle, moves, answer⟩ := answered
  obtain rfl := Disk.eq_of_moves moves held
  rcases answer with rfl | rfl
  · exact ⟨rests.sound, fun note known => by (cases known), fun _ => held⟩
  · exact ⟨.unlink, fun note known => by (cases known), fun _ => held⟩

theorem dropLineLocked_spec (mac : Mac) :
    Safe (among shortLine) (dropLineLocked mac) (fun _ left after => Rests left after)
      memory disk := by
  have held := rests.holder holding
  refine safe_bind.mpr (safe_ask.mpr ⟨trivial, ?_⟩)
  intro reading after answered
  obtain ⟨middle, moves, answer⟩ := answered
  obtain rfl := Disk.eq_of_moves moves held
  cases reading with
  | read text =>
      obtain ⟨rfl, -⟩ := answer
      change Safe (among shortLine) (if _ then removeNote else _) _ memory after
      split
      · exact removeNote_spec rests holding
      · refine safe_bind.mpr (safe_modify.mpr (safe_bind.mpr (safe_ask.mpr ⟨trivial, ?_⟩)))
        intro written later answered
        obtain ⟨now, moves, answer⟩ := answered
        obtain rfl := Disk.eq_of_moves moves held
        rcases answer with ⟨-, rfl⟩ | ⟨-, inode, modified, fresh, rfl⟩
        · exact ⟨rests.sound, fun note known => by (cases known), fun _ => held⟩
        · exact ⟨.install, fun note known => by (cases known), fun _ => held⟩
  | absent =>
      obtain ⟨rfl, -⟩ := answer
      exact rests
  | failed =>
      cases answer
      exact rests.onward (.illegibly middle)

end Writing

end SriovMacSync.Cache
