import SriovMacSync.Interaction.Processes
import SriovMacSync.Storage.Names

namespace SriovMacSync.Storage

open Data Interaction

/-! # Replacing a file

Every file but the note's appended line is written as a whole: into a temporary file of
the process, which then takes the destination's name. -/

inductive FileError where
  | notFound
  | other
deriving DecidableEq, Repr

/-- What a writer asks of the state directory.  A temporary file is the process's own. -/
inductive FileCall where
  /-- open the temporary file for a destination, created or emptied -/
  | openTemporary (dest : Dest)
  | writeTemporary (dest : Dest) (text : Text)
  /-- give the temporary file its destination's name -/
  | rename (dest : Dest)
  | removeTemporary (dest : Dest)
  | remove (dest : Dest)
  /-- a line at the end of a note -/
  | append (dev : Name) (text : Text)
  | ensureStateDir
deriving DecidableEq

@[reducible] def FileReply : FileCall → Type
  | .removeTemporary _ | .remove _ => Unit
  | _ => Except FileError Unit

abbrev Writing := Program FileCall FileReply

def askFiles (request : FileCall) : Writing (FileReply request) := Program.ask request

def putTemporary (dest : Dest) (text : Text) : Writing (Except FileError Unit) := do
  let opened : Except FileError Unit ← askFiles (.openTemporary dest)
  match opened with
  | .error reason => return .error reason
  | .ok _ => askFiles (.writeTemporary dest text)

/-- The temporary goes with a failed write. -/
def giveUp (dest : Dest) (reason : FileError) : Writing (Except FileError Unit) := do
  let _ ← askFiles (.removeTemporary dest)
  return .error reason

def takeName (dest : Dest) : Writing (Except FileError Unit) := do
  let renamed : Except FileError Unit ← askFiles (.rename dest)
  match renamed with
  | .ok _ => return .ok ()
  | .error reason => giveUp dest reason

/-- The one atomic writer everything on disk goes through.  A directory that is not
there is made and the write tried once more. -/
def putFile (dest : Dest) (text : Text) : Writing (Except FileError Unit) := do
  match ← putTemporary dest text with
  | .ok _ => takeName dest
  | .error .notFound =>
      let made : Except FileError Unit ← askFiles .ensureStateDir
      match made with
      | .error reason => return .error reason
      | .ok _ =>
          match ← putTemporary dest text with
          | .ok _ => takeName dest
          | .error reason => giveUp dest reason
  | .error reason => giveUp dest reason

/-- The state directory: what each name holds. -/
abbrev Files := Text → Option Text

namespace Files

variable (files : Files)

def at' (entry : Entry) : Option Text := files entry.fileName

def set (entry : Entry) (content : Option Text) : Files :=
  Function.update files entry.fileName content

/-- How the file system may answer a process.  A write that fails may have written a
part. -/
def Answers (pid : Nat) : (request : FileCall) → FileReply request → Files → Prop
  | .openTemporary dest, reply, after =>
      reply = .ok () ∧ after = files.set (.temporary dest pid) (some []) ∨
        reply ≠ .ok () ∧ after = files
  | .writeTemporary dest text, reply, after =>
      ∃ written, written <+: text ∧ (reply = .ok () → written = text) ∧
        after = files.set (.temporary dest pid) ((files.at' (.temporary dest pid)).map (· ++ written))
  | .rename dest, reply, after =>
      reply = .ok () ∧ (files.at' (.temporary dest pid)).isSome ∧
          after = (files.set (.file dest) (files.at' (.temporary dest pid))).set (.temporary dest pid) none ∨
        reply ≠ .ok () ∧ after = files
  | .removeTemporary dest, _, after =>
      after = files.set (.temporary dest pid) none ∨ after = files
  | .remove dest, _, after => after = files.set (.file dest) none ∨ after = files
  | .append dev text, _, after =>
      ∃ written, written <+: text ∧
        after = files.set (.file (.note dev))
          (some ((files.at' (.file (.note dev))).getD [] ++ written)) ∨ after = files
  | .ensureStateDir, _, after => after = files

@[simp] theorem at'_set_self (entry : Entry) (content : Option Text) :
    (files.set entry content).at' entry = content := Function.update_self ..

@[simp] theorem at'_set_of_ne {entry other : Entry} (apart : other ≠ entry) (content : Option Text) :
    (files.set entry content).at' other = files.at' other :=
  Function.update_of_ne (fun same => apart (fileName_injective same)) ..

end Files

/-- What a process does to the directory: replace a file with a text it may mean to write
there, take one away, or add a line to a note. -/
inductive Job (meant : Dest → Text → Prop) : Writing Unit → Prop where
  | put {dest : Dest} {text : Text} (intended : meant dest text) :
      Job meant ((putFile dest text).bind fun _ => .done ())
  | remove (dest : Dest) : Job meant ((askFiles (.remove dest)).bind fun _ => .done ())
  | append (dev : Name) (text : Text) : Job meant ((askFiles (.append dev text)).bind fun _ => .done ())

/-- Processes at work in one directory, told apart by their numbers.  One may die at any
point and leave its temporary file as it is, and another may come by the same number. -/
def directory (meant : Dest → Text → Prop) : System Nat FileCall FileReply Unit Files where
  fresh _ := True
  operations _ := Job meant
  answers pid files := files.Answers pid
  drifts _ _ := False
  dies _ files after := after = files

/-- What a process knows of its own temporary files. -/
abbrev Drafts := Dest → Option Text

/-- A process renames only what it has written out in full. -/
def drafting (meant : Dest → Text → Prop) : Environment FileCall FileReply Drafts where
  permits drafts
    | .rename dest => ∀ text, drafts dest = some text → meant dest text
    | _ => True
  answers drafts request reply after := match request, reply with
    | .openTemporary dest, reply =>
        reply = .ok () → after = Function.update drafts dest (some [])
    | .writeTemporary dest text, reply =>
        reply = .ok () → after = Function.update drafts dest ((drafts dest).map (· ++ text))
    | _, _ => True

section Jobs

variable {meant : Dest → Text → Prop} {dest : Dest} {text : Text} {drafts : Drafts}

theorem giveUp_drafts {reason : FileError} {post : Except FileError Unit → Drafts → Prop}
    (holds : ∀ after, post (.error reason) after) :
    (giveUp dest reason).Safe (drafting meant) post drafts :=
  ⟨True.intro, fun _ after _ => holds after⟩

theorem takeName_drafts (written : ∀ draft, drafts dest = some draft → meant dest draft) :
    (takeName dest).Safe (drafting meant) (fun _ _ => True) drafts := by
  refine ⟨written, fun reply after _ => ?_⟩
  cases reply with
  | ok done => exact True.intro
  | error reason => exact giveUp_drafts fun _ => True.intro

/-- A temporary that was written holds its text and nothing else. -/
theorem putTemporary_drafts : (putTemporary dest text).Safe (drafting meant)
    (fun result after => result = .ok () → after dest = some text) drafts := by
  refine ⟨True.intro, fun opened emptied emptying => ?_⟩
  cases opened with
  | error reason => exact nofun
  | ok done =>
      refine ⟨True.intro, fun reply after writing written => ?_⟩
      rw [writing written, Function.update_self, emptying rfl, Function.update_self]
      rfl

theorem putFile_drafts (intended : meant dest text) :
    (putFile dest text).Safe (drafting meant) (fun _ _ => True) drafts := by
  have named {after : Drafts} (written : after dest = some text) :
      (takeName dest).Safe (drafting meant) (fun _ _ => True) after :=
    takeName_drafts fun draft same => Option.some.inj (written.symm.trans same) ▸ intended
  refine putTemporary_drafts.bind fun result after written => ?_
  cases result with
  | ok done => exact named (written rfl)
  | error reason =>
      cases reason with
      | other => exact giveUp_drafts fun _ => True.intro
      | notFound =>
          refine ⟨True.intro, fun made after _ => ?_⟩
          cases made with
          | error reason => exact True.intro
          | ok done =>
              refine putTemporary_drafts.bind fun result after written => ?_
              cases result with
              | ok done => exact named (written rfl)
              | error reason => exact giveUp_drafts fun _ => True.intro

end Jobs

end SriovMacSync.Storage
