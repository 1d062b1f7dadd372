import SriovMacSync.Storage.Replacing

namespace SriovMacSync.Storage

open Data Interaction

/-! # What a reader finds

Whoever opens a record or a port memory finds a text somebody meant to write there, all
of it, however the writers interleave and wherever they are cut short. -/

section Crowd

variable {meant : Dest → Text → Prop} {files : Files} {pid : Nat}

/-- A process's own temporary files. -/
def Files.drafts (files : Files) (pid : Nat) : Drafts := fun dest => files.at' (.temporary dest pid)

/-- Every record is a text somebody meant. -/
def Files.Whole (meant : Dest → Text → Prop) (files : Files) : Prop :=
  ∀ dest text, dest.isNote = false → files.at' (.file dest) = some text → meant dest text

theorem drafts_setFile (dest : Dest) (content : Option Text) :
    (files.set (.file dest) content).drafts pid = files.drafts pid := by
  funext other
  exact Files.at'_set_of_ne _ (by simp) _

theorem drafts_setTemporary (dest : Dest) (content : Option Text) :
    (files.set (.temporary dest pid) content).drafts pid =
      Function.update (files.drafts pid) dest content := by
  funext other
  by_cases same : other = dest
  · rw [same, Function.update_self]
    exact Files.at'_set_self ..
  · rw [Function.update_of_ne same]
    exact Files.at'_set_of_ne _ (by simpa using same) _

theorem drafts_of_ne {other : Nat} (apart : other ≠ pid) (dest : Dest) (content : Option Text) :
    (files.set (.temporary dest pid) content).drafts other = files.drafts other := by
  funext dest'
  exact Files.at'_set_of_ne _ (by simp [apart]) _

theorem Files.Whole.setTemporary (whole : files.Whole meant) (dest : Dest) (content : Option Text) :
    (files.set (.temporary dest pid) content).Whole meant := by
  intro dest' text record held
  rw [Files.at'_set_of_ne _ (by simp)] at held
  exact whole dest' text record held

theorem Files.Whole.setFile (whole : files.Whole meant) {dest : Dest} {content : Option Text}
    (fits : dest.isNote = false → ∀ text, content = some text → meant dest text) :
    (files.set (.file dest) content).Whole meant := by
  intro dest' text record held
  by_cases same : dest' = dest
  · rw [same, Files.at'_set_self] at held
    exact same ▸ fits (same ▸ record) text held
  · rw [Files.at'_set_of_ne _ (by simpa using same)] at held
    exact whole dest' text record held

theorem directory_seen : (directory meant).Seen (drafting meant) (fun pid files => files.drafts pid)
    (Files.Whole meant) (fun _ _ => True) where
  step {pid files request reply after} whole permitted answered := by
    cases request with
    | openTemporary dest =>
        rcases answered with ⟨-, opened⟩ | ⟨failed, same⟩
        · subst opened
          exact ⟨whole.setTemporary dest _, fun _ => drafts_setTemporary dest _,
            fun other apart => drafts_of_ne apart dest _⟩
        · subst same
          exact ⟨whole, fun done => absurd done failed, fun _ _ => rfl⟩
    | writeTemporary dest text =>
        obtain ⟨written, -, complete, wrote⟩ := answered
        subst wrote
        refine ⟨whole.setTemporary dest _, fun done => ?_, fun other apart => drafts_of_ne apart dest _⟩
        rw [complete done]
        exact drafts_setTemporary dest _
    | rename dest =>
        rcases answered with ⟨-, -, renamed⟩ | ⟨-, same⟩
        · subst renamed
          refine ⟨(whole.setFile fun _ => permitted).setTemporary dest none, True.intro, fun other apart => ?_⟩
          exact (drafts_of_ne apart dest none).trans (drafts_setFile dest _)
        · subst same
          exact ⟨whole, True.intro, fun _ _ => rfl⟩
    | removeTemporary dest =>
        rcases answered with removed | same
        · subst removed
          exact ⟨whole.setTemporary dest none, True.intro, fun other apart => drafts_of_ne apart dest none⟩
        · subst same
          exact ⟨whole, True.intro, fun _ _ => rfl⟩
    | remove dest =>
        rcases answered with removed | same
        · subst removed
          exact ⟨whole.setFile (by simp), True.intro, fun other _ => drafts_setFile dest none⟩
        · subst same
          exact ⟨whole, True.intro, fun _ _ => rfl⟩
    | append dev text =>
        obtain ⟨written, ⟨-, appended⟩ | same⟩ := answered
        · subst appended
          exact ⟨whole.setFile (by simp [Dest.isNote]), True.intro, fun other _ => drafts_setFile _ _⟩
        · subst same
          exact ⟨whole, True.intro, fun _ _ => rfl⟩
    | ensureStateDir =>
        subst answered
        exact ⟨whole, True.intro, fun _ _ => rfl⟩
  drift _ drifted := drifted.elim
  die whole _ died := by
    subst died
    exact ⟨whole, fun _ _ => True.intro, fun _ _ => rfl⟩
  operation _ job := by
    cases job with
    | put intended => exact (putFile_drafts intended).bind fun _ _ _ => True.intro
    | remove dest => exact ⟨True.intro, fun _ _ _ => True.intro⟩
    | append dev text => exact ⟨True.intro, fun _ _ _ => True.intro⟩

/-- A file system on which everything works. -/
def Files.serve (pid : Nat) : Handler FileCall FileReply Files
  | files, .openTemporary dest => (.ok (), files.set (.temporary dest pid) (some []))
  | files, .writeTemporary dest text =>
      (.ok (), files.set (.temporary dest pid) ((files.at' (.temporary dest pid)).map (· ++ text)))
  | files, .rename dest =>
      match files.at' (.temporary dest pid) with
      | some text => (.ok (), (files.set (.file dest) (some text)).set (.temporary dest pid) none)
      | none => (.error .notFound, files)
  | files, .removeTemporary dest => ((), files.set (.temporary dest pid) none)
  | files, .remove dest => ((), files.set (.file dest) none)
  | files, .append dev text =>
      (.ok (), files.set (.file (.note dev)) (some ((files.at' (.file (.note dev))).getD [] ++ text)))
  | files, .ensureStateDir => (.ok (), files)

theorem Files.serve_answers (files : Files) (request : FileCall) :
    files.Answers pid request (files.serve pid request).1 (files.serve pid request).2 := by
  cases request with
  | openTemporary dest => exact .inl ⟨rfl, rfl⟩
  | writeTemporary dest text => exact ⟨text, List.prefix_refl text, fun _ => rfl, rfl⟩
  | rename dest =>
      rw [serve]
      split
      · rename_i text found
        refine .inl ⟨rfl, by simp [found], ?_⟩
        rw [found]
      · exact .inr ⟨nofun, rfl⟩
  | removeTemporary dest => exact .inl rfl
  | remove dest => exact .inl rfl
  | append dev text => exact ⟨text, .inl ⟨List.prefix_refl text, rfl⟩⟩
  | ensureStateDir => rfl

/-- Two processes mean to record an index. -/
def recording (dest : Dest) (text : Text) : Prop :=
  dest = .index "nic1" ∧ (text = ['2', '\n'] ∨ text = ['1', '4', '\n'])

def bare : Files := fun _ => none

/-- One of them is cut short after its first digit. -/
def halfWritten : Files :=
  let opened := bare.set (.temporary (.index "nic1") 7) (some [])
  opened.set (.temporary (.index "nic1") 7)
    ((opened.at' (.temporary (.index "nic1") 7)).map (· ++ ['1']))

def recordTwo : Writing Unit := (putFile (.index "nic1") ['2', '\n']).bind fun _ => .done ()

/-- The other one gets done. -/
def recorded : Files := (recordTwo.replay (Files.serve 8) halfWritten).2

theorem recorded_reachable : ∃ programs, (directory recording).Reachable
    (fun files => ∀ dest text, files.at' (.file dest) = some text → recording dest text)
    programs recorded := by
  have idle : (directory recording).Reachable
      (fun files => ∀ dest text, files.at' (.file dest) = some text → recording dest text)
      (fun _ : Nat => .done ()) bare :=
    .start (fun _ _ held => by cases held) fun _ => True.intro
  have intends : Job recording ((putFile (.index "nic1") ['1', '4', '\n']).bind fun _ => .done ()) :=
    .put ⟨rfl, .inr rfl⟩
  have begun := @System.Reachable.begin _ _ _ _ _ _ _ _ _ _ 7 () _ idle rfl intends
  have opened := begun.step (Function.update_self ..) (.inl ⟨rfl, rfl⟩)
  have cut : (bare.set (.temporary (.index "nic1") 7) (some [])).Answers 7
      (.writeTemporary (.index "nic1") ['1', '4', '\n']) (.error .other) halfWritten :=
    ⟨['1'], by decide, nofun, rfl⟩
  have wrote := opened.step (Function.update_self ..) cut
  have died := @System.Reachable.die _ _ _ _ _ _ _ _ _ _ _ 7 () wrote rfl True.intro
  have intends : Job recording recordTwo := .put ⟨rfl, .inl rfl⟩
  have begun := @System.Reachable.begin _ _ _ _ _ _ _ _ _ _ 8 () _ died (by simp) intends
  exact ⟨_, begun.run (Function.update_self ..)
    (Program.replay_reaches (fun files request => files.serve_answers request) recordTwo halfWritten)⟩

end Crowd

section Alone

variable {dest : Dest} {text : Text} {pid : Nat} {before files : Files}

/-- Nothing but the writer's own temporary file differs. -/
def Files.Untouched (before : Files) (dest : Dest) (pid : Nat) (files : Files) : Prop :=
  ∀ entry, entry ≠ .temporary dest pid → files.at' entry = before.at' entry

/-- The destination holds the text, and nothing else differs. -/
def Files.Replaced (before : Files) (dest : Dest) (text : Text) (pid : Nat) (files : Files) : Prop :=
  files.at' (.file dest) = some text ∧ ∀ entry, entry ≠ .temporary dest pid → entry ≠ .file dest →
    files.at' entry = before.at' entry

/-- A writer by itself asks for something only while nothing is touched. -/
def replacing (before : Files) (dest : Dest) (pid : Nat) : Environment FileCall FileReply Files where
  permits files _ := before.Untouched dest pid files
  answers files := files.Answers pid

theorem Files.Untouched.setTemporary (untouched : before.Untouched dest pid files)
    (content : Option Text) : before.Untouched dest pid (files.set (.temporary dest pid) content) := by
  intro entry apart
  rw [Files.at'_set_of_ne _ apart]
  exact untouched entry apart

/-- What is known of a result: it is in place, or nothing happened. -/
def Outcome (before : Files) (dest : Dest) (text : Text) (pid : Nat) (result : Except FileError Unit)
    (files : Files) : Prop :=
  match result with
  | .ok _ => before.Replaced dest text pid files
  | .error _ => before.Untouched dest pid files

theorem giveUp_outcome {reason : FileError} (untouched : before.Untouched dest pid files) :
    (giveUp dest reason).Safe (replacing before dest pid) (Outcome before dest text pid) files := by
  refine ⟨untouched, fun _ after removed => ?_⟩
  rcases removed with removed | same
  · subst removed
    exact untouched.setTemporary none
  · subst same
    exact untouched

theorem putTemporary_outcome (untouched : before.Untouched dest pid files) :
    (putTemporary dest text).Safe (replacing before dest pid)
      (fun result after => before.Untouched dest pid after ∧
        (result = .ok () → after.at' (.temporary dest pid) = some text)) files := by
  refine ⟨untouched, fun opened emptied emptying => ?_⟩
  rcases emptying with ⟨done, emptying⟩ | ⟨failed, same⟩
  · subst done emptying
    refine ⟨untouched.setTemporary _, fun reply after answered => ?_⟩
    obtain ⟨written, -, complete, wrote⟩ := answered
    subst wrote
    refine ⟨(untouched.setTemporary _).setTemporary _, fun done => ?_⟩
    rw [complete done, Files.at'_set_self, Files.at'_set_self]
    rfl
  · subst same
    cases opened with
    | ok done => exact absurd rfl failed
    | error reason => exact ⟨untouched, nofun⟩

theorem takeName_outcome (untouched : before.Untouched dest pid files)
    (written : files.at' (.temporary dest pid) = some text) :
    (takeName dest).Safe (replacing before dest pid) (Outcome before dest text pid) files := by
  refine ⟨untouched, fun renamed after answered => ?_⟩
  rcases answered with ⟨done, -, moved⟩ | ⟨failed, same⟩
  · subst done moved
    rw [written]
    refine ⟨?_, fun entry apart other => ?_⟩
    · rw [Files.at'_set_of_ne _ (by simp), Files.at'_set_self]
    · rw [Files.at'_set_of_ne _ apart, Files.at'_set_of_ne _ other]
      exact untouched entry apart
  · subst same
    cases renamed with
    | ok done => exact absurd rfl failed
    | error reason => exact giveUp_outcome untouched

theorem putFile_outcome (untouched : before.Untouched dest pid files) :
    (putFile dest text).Safe (replacing before dest pid) (Outcome before dest text pid) files := by
  refine (putTemporary_outcome untouched).bind fun result after ⟨untouched, written⟩ => ?_
  cases result with
  | ok done => exact takeName_outcome untouched (written rfl)
  | error reason =>
      cases reason with
      | other => exact giveUp_outcome untouched
      | notFound =>
          refine ⟨untouched, fun made after same => ?_⟩
          subst same
          cases made with
          | error reason => exact untouched
          | ok done =>
              refine (putTemporary_outcome untouched).bind fun result after ⟨untouched, written⟩ => ?_
              cases result with
              | ok done => exact takeName_outcome untouched (written rfl)
              | error reason => exact giveUp_outcome untouched

end Alone

end SriovMacSync.Storage
