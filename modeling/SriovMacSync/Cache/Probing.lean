import Mathlib.Data.Finset.Lattice.Fold
import Mathlib.Order.Lattice.Nat
import SriovMacSync.Cache.Check

namespace SriovMacSync.Cache

open Data Netlink Interaction Interaction.Action

/-! # What a check leaves

Line by line and entry by entry: the probe is taken for the check's own, whoever put it
there. -/

section Text

/-- The lines that are left once an address is taken out. -/
def otherLines (mac : Mac) (text : Text) : List Text :=
  (lines text).filter fun line => trim line ≠ formatMac mac ∧ trim line ≠ []

/-- What these lines name. -/
def namedElse (mac : Mac) (text : Text) : Finset Mac :=
  ((otherLines mac text).filterMap fun line => parseMac (trim line)).toFinset

/-- A text an address has been added to, where it is not named already. -/
def noted (mac : Mac) (text : Text) : Text :=
  if mac ∈ noteSet text then text else finished text ++ noteLines [mac]

theorem newline_notMem_splitOn {text line : Text} (member : line ∈ text.splitOn '\n') : '\n' ∉ line := by
  induction text generalizing line with
  | nil =>
      rw [List.splitOn_nil, List.mem_singleton] at member
      subst member
      exact List.not_mem_nil
  | cons char rest ih =>
      rw [List.splitOn_cons_eq_if_modifyHead] at member
      split at member
      · rcases List.mem_cons.mp member with first | later
        · subst first
          exact List.not_mem_nil
        · exact ih later
      · rename_i apart
        cases pieces : rest.splitOn '\n' with
        | nil => exact absurd pieces (List.splitOn_ne_nil _ _)
        | cons first more =>
            rw [pieces] at member ih
            rcases List.mem_cons.mp member with here | later
            · subst here
              have plain := ih (List.mem_cons_self ..)
              simp only [List.mem_cons, not_or]
              exact ⟨fun same => apart (beq_iff_eq.mpr same.symm), plain⟩
            · exact ih (List.mem_cons_of_mem _ later)

theorem newline_notMem_lines {text line : Text} (member : line ∈ lines text) : '\n' ∉ line := by
  obtain ⟨piece, split, same⟩ := List.mem_map.mp member
  have piece_mem : piece ∈ text.splitOn '\n' := by
    split at split
    · exact List.dropLast_subset _ split
    · exact split
  have plain := newline_notMem_splitOn piece_mem
  subst same
  split
  · exact fun inside => plain (List.dropLast_subset _ inside)
  · exact plain

theorem trim_withoutReturn (line : Text) : trim (withoutReturn line) = trim line := by
  unfold withoutReturn
  split
  · rename_i last
    obtain ⟨front, same⟩ := List.getLast?_eq_some_iff.mp last
    subst same
    have blank : isWhitespace '\r' = true := by decide
    rw [List.dropLast_concat, trim, trim, List.dropWhile_append]
    split
    · rename_i empty
      rw [List.isEmpty_iff.mp empty, List.dropWhile_cons_of_pos blank]
      rfl
    · rw [List.rdropWhile_concat_pos _ _ _ blank]
  · rfl

/-- What is written line by line is read line by line. -/
theorem noteSet_joinLines {written : List Text} (nonempty : written ≠ [])
    (plain : ∀ line ∈ written, '\n' ∉ line) :
    noteSet (joinLines written) = (written.filterMap fun line => parseMac (trim line)).toFinset := by
  rw [noteSet, lines_joinLines_plain nonempty plain, List.filterMap_map]
  congr 2
  funext line
  exact congrArg parseMac (trim_withoutReturn line)

theorem mem_namedElse {mac other : Mac} {text : Text} : other ∈ namedElse mac text ↔
    ∃ line ∈ lines text, trim line ≠ formatMac mac ∧ parseMac (trim line) = some other := by
  simp only [namedElse, otherLines, List.mem_toFinset, List.mem_filterMap, List.mem_filter,
    decide_eq_true_eq]
  constructor
  · intro ⟨line, ⟨member, apart, _⟩, read⟩
    exact ⟨line, member, apart, read⟩
  · intro ⟨line, member, apart, read⟩
    refine ⟨line, ⟨member, apart, ?_⟩, read⟩
    intro empty
    rw [empty] at read
    exact absurd read (by decide +revert)

theorem mem_noteSet {mac : Mac} {text : Text} :
    mac ∈ noteSet text ↔ ∃ line ∈ lines text, parseMac (trim line) = some mac := by
  simp [noteSet]

theorem namedElse_subset (mac : Mac) (text : Text) : namedElse mac text ⊆ noteSet text := by
  intro other named
  obtain ⟨line, member, -, read⟩ := mem_namedElse.mp named
  exact mem_noteSet.mpr ⟨line, member, read⟩

/-- A line that reads as another address is left. -/
theorem mem_namedElse_of_ne {mac other : Mac} {text : Text} (apart : other ≠ mac)
    (named : other ∈ noteSet text) : other ∈ namedElse mac text := by
  obtain ⟨line, member, read⟩ := mem_noteSet.mp named
  refine mem_namedElse.mpr ⟨line, member, ?_, read⟩
  intro same
  rw [same, parseMac_formatMac] at read
  exact apart (Option.some.inj read).symm

theorem lines_append {text : Text} (ends : finished text = text) (more : Text) :
    lines (text ++ more) = lines text ++ lines more := by
  by_cases empty : text = []
  · subst empty
    rfl
  · obtain ⟨front, same⟩ := finished_eq_self ends empty
    subst same
    rw [List.append_assoc, List.singleton_append, lines_append_newline]

theorem lines_noteLines (mac : Mac) : lines (noteLines [mac]) = [formatMac mac] := by
  have line : IsLine (formatMac mac) := by
    refine ⟨newline_notMem_formatMac mac, ?_⟩
    intro last
    exact absurd ((isField_formatMac mac).2 _ (List.mem_of_getLast? last)) (by decide)
  have read := lines_joinLines (List.cons_ne_nil (formatMac mac) []) (by simpa using line)
  simpa [joinLines, noteLines] using read

theorem noteSet_finished_subset (text : Text) : noteSet (finished text) ⊆ noteSet text := by
  rw [noteSet_eq_union text]
  exact Finset.subset_union_left

/-- An address that was added and taken out again leaves what was finished before. -/
theorem namedElse_noted {mac : Mac} {text : Text} (fresh : mac ∉ noteSet text) :
    namedElse mac (noted mac text) = noteSet (finished text) := by
  have absent : mac ∉ noteSet (finished text) := fun named => fresh (noteSet_finished_subset text named)
  ext other
  rw [noted, if_neg fresh, mem_namedElse, mem_noteSet, lines_append (finished_finished text),
    lines_noteLines]
  constructor
  · intro ⟨line, member, apart, read⟩
    rcases List.mem_append.mp member with before | added
    · exact ⟨line, before, read⟩
    · rw [List.mem_singleton.mp added] at apart
      exact absurd (trim_formatMac mac) apart
  · intro ⟨line, member, read⟩
    refine ⟨line, List.mem_append_left _ member, ?_, read⟩
    intro same
    rw [same, parseMac_formatMac] at read
    rw [Option.some.inj read] at absent
    exact absent (mem_noteSet.mpr ⟨line, member, by rw [same, parseMac_formatMac, read]⟩)

end Text

/-- Whatever stands under the note's name can be read. -/
def Disk.Legible (disk : Disk) : Prop := ∀ file, disk.file = some file → file.legible = true

section File

variable {memory : NoteMemory} {disk : Disk}

theorem readsAs_illegible (illegible : ¬ disk.Legible) : readsAs disk.file = ∅ := by
  simp only [Disk.Legible, not_forall] at illegible
  obtain ⟨file, present, unread⟩ := illegible
  rw [present, readsAs, if_neg unread]

theorem metadata_faultless : Safe faultless (ask .metadata) (fun found left after =>
    left = memory ∧ after = disk ∧ (found = none ∨ found = disk.file.map (·.metadata))) memory disk := by
  refine safe_ask.mpr ⟨trivial, ?_⟩
  intro found after ⟨⟨same, shown⟩, _⟩
  exact ⟨rfl, same, shown⟩

theorem readOwned_faultless : Safe faultless readOwned (fun set left after =>
    after.file = disk.file ∧ set = readsAs disk.file ∧ left.note = memory.note ∧
      (left.unreadable = false ↔ disk.Legible)) memory disk := by
  refine safe_bind.mpr (safe_ask.mpr ⟨trivial, ?_⟩)
  intro reading after facts
  obtain ⟨answer, goes⟩ := facts
  cases reading with
  | read text =>
      obtain ⟨same, file, present, legible, reads⟩ := answer
      subst same reads
      refine ⟨rfl, by rw [present, readsAs, if_pos legible], rfl, fun _ other found => ?_, fun _ => rfl⟩
      rw [present] at found
      exact Option.some.inj found ▸ legible
  | absent =>
      obtain ⟨same, absent⟩ := answer
      subst same
      refine ⟨rfl, by rw [absent]; rfl, rfl, fun _ other found => ?_, fun _ => rfl⟩
      rw [absent] at found
      cases found
  | failed =>
      obtain ⟨file, present, illegible⟩ := goes
      cases answer
      refine ⟨rfl, by rw [present, readsAs, illegible]; rfl, rfl, by simp, fun legible => ?_⟩
      rw [legible file present] at illegible
      cases illegible

theorem remember_faultless {set : Finset Mac} {known : Option Metadata} :
    Safe faultless (remember set known) (fun _ left after => after = disk ∧
      left.unreadable = memory.unreadable ∧ (∀ note, left.note = some note → note.macs = set) ∧
        (known.isSome → left.note.isSome)) memory disk := by
  have looked (found : Metadata) (disk : Disk) : Safe faultless (do
      let now : Int ← ask .clock
      modify ({ · with note := some ⟨set, found.inode, found.length, found.modified, now⟩ }))
      (fun _ left after => after = disk ∧ left.unreadable = memory.unreadable ∧
        (∀ note, left.note = some note → note.macs = set) ∧ left.note.isSome) memory disk := by
    refine safe_bind.mpr (safe_ask.mpr ⟨trivial, ?_⟩)
    intro now after ⟨same, _⟩
    refine ⟨same, rfl, fun note known => ?_, rfl⟩
    cases known
    rfl
  cases known with
  | some seen =>
      refine safe_bind.mpr (safe_pure.mpr ((looked seen disk).mono ?_))
      intro _ left after ⟨same, readable, macs, isSome⟩
      exact ⟨same, readable, macs, fun _ => isSome⟩
  | none =>
      refine safe_bind.mpr (metadata_faultless.mono ?_)
      intro found left middle ⟨kept, same, _⟩
      subst kept same
      cases found with
      | none => exact ⟨rfl, rfl, nofun, nofun⟩
      | some seen =>
          refine (looked seen middle).mono ?_
          intro _ left after ⟨same, readable, macs, _⟩
          exact ⟨same, readable, macs, nofun⟩

/-- A look at the note finds what holds of the file and of a copy that would be
believed. -/
theorem withOwned_faultless {holds : Finset Mac → Prop}
    (copied : ∀ note file, memory.note = some note → disk.file = some file →
      note.isStill file.metadata = true → file.legible = true ∧ holds note.macs)
    (read : holds (readsAs disk.file)) (readable : memory.unreadable = false) :
    Safe faultless withOwned (fun set left after => after.file = disk.file ∧ holds set ∧
      (∀ note, left.note = some note → holds note.macs) ∧ (left.unreadable = false ↔ disk.Legible))
      memory disk := by
  have believing : Safe faultless usable (fun believed left after => left = memory ∧ after = disk ∧
      (believed = true → ∃ note file, memory.note = some note ∧ disk.file = some file ∧
        note.isStill file.metadata = true)) memory disk := by
    refine safe_bind.mpr (metadata_faultless.mono ?_)
    intro found left after facts
    obtain ⟨kept, same, shown⟩ := facts
    subst kept same
    cases found with
    | none => exact ⟨rfl, rfl, nofun⟩
    | some seen =>
        refine ⟨rfl, rfl, fun believed => ?_⟩
        obtain ⟨file, present, looks⟩ := Option.map_eq_some_iff.mp (shown.resolve_left nofun).symm
        obtain ⟨note, known, still⟩ := (Option.any_eq_true ..).mp believed
        exact ⟨note, file, known, present, looks ▸ still⟩
  refine safe_bind.mpr (believing.mono ?_)
  intro believed left first facts
  obtain ⟨kept, same, trusted⟩ := facts
  subst kept same
  cases believed with
  | true =>
      obtain ⟨note, file, known, present, still⟩ := trusted rfl
      obtain ⟨legible, held⟩ := copied note file known present still
      refine safe_bind.mpr (safe_get.mpr ?_)
      rw [known]
      refine ⟨rfl, held, fun other found => ?_, fun _ other found => ?_, fun _ => readable⟩
      · rw [known] at found
        exact Option.some.inj found ▸ held
      · rw [present] at found
        exact Option.some.inj found ▸ legible
  | false =>
      refine safe_bind.mpr (metadata_faultless.mono ?_)
      intro before left' second facts
      obtain ⟨kept, same, _⟩ := facts
      subst kept same
      refine safe_bind.mpr (readOwned_faultless.mono ?_)
      intro set reading third facts
      obtain ⟨file, reads, _, legible⟩ := facts
      refine safe_bind.mpr (metadata_faultless.mono ?_)
      intro later reading' fourth facts
      obtain ⟨kept, same, _⟩ := facts
      subst kept same reads
      refine safe_bind.mpr (safe_get.mpr ?_)
      cases unreadable : reading'.unreadable with
      | true =>
          have illegible : ¬ second.Legible := fun reads => by
            rw [legible.mpr reads] at unreadable
            cases unreadable
          have nothing : readsAs second.file = ∅ := readsAs_illegible illegible
          rw [nothing] at read
          simpa [unreadable, NoteMemory.forgetIndexed, illegible] using ⟨file, read⟩
      | false =>
          have reads := legible.mp unreadable
          by_cases steady : (before.isSome && before == later) = true
          · simp only [steady, Bool.not_false, Bool.and_self, if_true]
            refine safe_bind.mpr (remember_faultless.mono ?_)
            intro _ left fifth facts
            obtain ⟨same, readable, macs, known⟩ := facts
            subst same
            obtain ⟨isSome, same⟩ := Bool.and_eq_true_iff.mp steady
            obtain rfl := eq_of_beq same
            obtain ⟨note, found⟩ := Option.isSome_iff_exists.mp (known isSome)
            refine safe_bind.mpr (safe_get.mpr ?_)
            rw [found]
            have held : holds note.macs := macs note found ▸ read
            refine ⟨file, held, fun other known => ?_, fun _ => reads, fun _ => readable.trans unreadable⟩
            exact Option.some.inj (found ▸ known) ▸ held
          · simpa [unreadable, steady, NoteMemory.forgetIndexed, reads] using ⟨file, read⟩

theorem addLines_faultless {macs : List Mac} (legible : disk.Legible) :
    Safe faultless (addLines (noteLines macs)) (fun wrote left after => wrote = true ∧ left = memory ∧
      after.Legible ∧ textOf after.file = finished (textOf disk.file) ++ noteLines macs) memory disk := by
  refine safe_bind.mpr (safe_ask.mpr ⟨trivial, ?_⟩)
  intro opened first ⟨answer, done⟩
  subst done
  have ready : textOf first.file = textOf disk.file ∧ first.Legible ∧ first.file ≠ none := by
    rcases answer with ⟨same, there⟩ | ⟨_, missing, inode, modified, _, made⟩
    · subst same
      exact ⟨rfl, legible, there rfl⟩
    · subst made
      refine ⟨by rw [missing]; rfl, fun file found => ?_, nofun⟩
      cases found
      rfl
  obtain ⟨text, legible, there⟩ := ready
  refine safe_bind.mpr (safe_ask.mpr ⟨trivial, ?_⟩)
  intro tidy second ⟨answer, done⟩
  subst done
  have cut : textOf second.file = finished (textOf first.file) ∧ second.Legible := by
    rcases answer with ⟨same, ended⟩ | ⟨file, modified, present, _, cut⟩
    · subst same
      obtain ⟨file, present⟩ := Option.ne_none_iff_exists'.mp there
      have whole := finished_append_lastLine file.text
      rw [ended rfl file present, List.append_nil] at whole
      exact ⟨by rw [present]; exact whole.symm, legible⟩
    · subst cut
      refine ⟨by rw [present]; rfl, fun other found => ?_⟩
      cases found
      exact legible file present
  obtain ⟨tidied, legible⟩ := cut
  refine safe_ask.mpr ⟨trivial, ?_⟩
  intro done third ⟨answer, wrote⟩
  obtain ⟨file, part, modified, present, _, whole, written⟩ := answer
  subst written
  refine ⟨wrote, rfl, fun other found => ?_, ?_⟩
  · cases found
    exact legible file present
  · rw [← text, ← tidied, present, ← whole wrote]
    rfl

/-- An append of one address to a note a process believes rightly. -/
theorem appendOwnedLocked_faultless {mac : Mac} (honest : Honest memory disk)
    (readable : memory.unreadable = false) :
    Safe faultless (appendOwnedLocked [mac]) (fun out left after =>
      (disk.Legible → out.isSome ∧ left.unreadable = false ∧
        (∀ note, left.note = some note → mac ∈ note.macs) ∧ after.Legible ∧
          textOf after.file = noted mac (textOf disk.file)) ∧
      (¬ disk.Legible → out = none ∧ after.file = disk.file)) memory disk := by
  have copied : ∀ note file, memory.note = some note → disk.file = some file →
      note.isStill file.metadata = true →
        file.legible = true ∧ note.macs = readsAs disk.file := by
    intro note file known present still
    obtain ⟨legible, macs⟩ := honest note file known present still
    exact ⟨legible, by rw [macs, present, readsAs, if_pos legible]⟩
  refine safe_bind.mpr ((@withOwned_faultless _ _ (· = readsAs disk.file) copied rfl readable).mono ?_)
  intro set left first facts
  obtain ⟨file, owned, copies, reads⟩ := facts
  subst owned
  refine safe_bind.mpr (safe_get.mpr ?_)
  split
  · rename_i unreadable
    refine ⟨fun legible => ?_, fun _ => ⟨rfl, file⟩⟩
    rw [reads.mpr legible] at unreadable
    cases unreadable
  · rename_i known
    have known : left.unreadable = false := by simpa using known
    have legible := reads.mp known
    have named := readsAs_eq legible
    rw [named] at copies ⊢
    have firstLegible : first.Legible := fun other found => legible other (file ▸ found)
    split
    · rename_i nothing
      have member : mac ∈ noteSet (textOf disk.file) := by simpa using nothing
      refine ⟨fun _ => ⟨rfl, known, fun note found => ?_, firstLegible, ?_⟩, fun not => absurd legible not⟩
      · exact (copies note found) ▸ member
      · rw [noted, if_pos member, file]
    · rename_i fresh
      have absent : mac ∉ noteSet (textOf disk.file) := by simpa using fresh
      have alone : [mac].filter (· ∉ noteSet (textOf disk.file)) = [mac] := by simp [absent]
      rw [alone]
      refine safe_bind.mpr (safe_get.mpr (safe_bind.mpr ((addLines_faultless firstLegible).mono ?_)))
      intro wrote left' second facts
      obtain ⟨done, same, secondLegible, text⟩ := facts
      subst done same
      refine safe_bind.mpr (remember_faultless.mono ?_)
      intro _ left'' after facts
      obtain ⟨same, kept, macs, _⟩ := facts
      subst same
      have named : textOf after.file = noted mac (textOf disk.file) := by
        rw [text, noted, if_neg absent, file]
      refine safe_bind.mpr (safe_get.mpr ?_)
      split
      · have forgotten : ∀ note, left''.forget.note = some note → mac ∈ note.macs :=
          fun _ kept => absurd kept (Option.some_ne_none _).symm
        exact ⟨fun _ => ⟨rfl, kept.trans known, forgotten, secondLegible, named⟩, fun not => absurd legible not⟩
      · refine ⟨fun _ => ⟨rfl, kept.trans known, fun note found => ?_, secondLegible, named⟩,
          fun not => absurd legible not⟩
        rw [macs note found]
        simp

/-- What is left of a note an address is taken out of. -/
theorem dropLineLocked_faultless {mac : Mac} (legible : disk.Legible) :
    Safe faultless (dropLineLocked mac) (fun _ _ after =>
      readsAs after.file = namedElse mac (textOf disk.file)) memory disk := by
  refine safe_bind.mpr (safe_ask.mpr ⟨trivial, ?_⟩)
  intro reading after facts
  obtain ⟨answer, goes⟩ := facts
  cases reading with
  | read text =>
      obtain ⟨same, file, present, _, reads⟩ := answer
      subst same reads
      change Safe faultless (if otherLines mac file.text = [] then removeNote else _) _ memory after
      rw [present, textOf]
      split
      · rename_i nothing
        refine safe_bind.mpr (safe_ask.mpr ⟨trivial, ?_⟩)
        intro _ later facts
        obtain ⟨_, gone⟩ := facts
        subst gone
        rw [namedElse, nothing]
        rfl
      · rename_i something
        refine safe_bind.mpr (safe_modify.mpr (safe_bind.mpr (safe_ask.mpr ⟨trivial, ?_⟩)))
        intro done later facts
        obtain ⟨answer, wrote⟩ := facts
        rcases answer with ⟨failed, _⟩ | ⟨_, inode, modified, _, put⟩
        · exact absurd (failed.symm.trans wrote) Bool.false_ne_true
        · subst put
          apply noteSet_joinLines something
          intro line member
          exact newline_notMem_lines (List.mem_filter.mp member).1
  | absent =>
      obtain ⟨same, absent⟩ := answer
      subst same
      refine safe_pure.mpr ?_
      rw [absent]
      rfl
  | failed =>
      obtain ⟨file, present, illegible⟩ := goes
      rw [legible file present] at illegible
      cases illegible

end File

section Site

variable {memory : NoteMemory} {site : Site} {index : Index} {mac : Mac} {α : Type}

/-- What is done to the note's file leaves the cards alone. -/
theorem onNote_safe {action : Keeping α} {post : α → NoteMemory → Disk → Prop}
    (safe : Safe faultless action post memory site.disk) :
    Safe checking (onNote action) (fun value left after => post value left after.disk ∧
      after.card = site.card) memory site := by
  apply @Program.Safe.through_view _ _ _ _ _ _ _ noteFile faultless checking Site.disk
    (fun after => after.card = site.card) _ _ site _ _ safe rfl
  · exact fun _ _ _ => trivial
  · intro before request reply after answered
    obtain ⟨disk, answer, same⟩ := answered
    subst same
    exact ⟨answer, id⟩

theorem locked_safe {body : Keeping α} {post : α → NoteMemory → Disk → Prop}
    (safe : ∀ disk, disk.file = site.disk.file →
      Safe faultless body (fun value left after => ∀ free : Disk, free.file = after.file →
        post value { left with holding := false } free) { memory with holding := true } disk) :
    Safe checking (locked body) (fun value left after => post value left after.disk ∧
      after.card = site.card) memory site := by
  apply onNote_safe
  refine safe_bind.mpr (safe_bind.mpr (safe_ask.mpr ⟨trivial, ?_⟩))
  intro _ taken ⟨⟨_, same⟩, _⟩
  subst same
  refine safe_modify.mpr (safe_bind.mpr ((safe (site.disk.setHolder .keeper) rfl).mono ?_))
  intro value left after done
  refine safe_bind.mpr (safe_bind.mpr (safe_ask.mpr ⟨trivial, ?_⟩))
  intro _ free ⟨same, _⟩
  subst same
  exact done _ rfl

theorem noteIndex_safe : Safe checking (noteIndex index) (fun _ left after =>
    after = site ∧ left.note = memory.note ∧ left.unreadable = memory.unreadable) memory site := by
  refine safe_bind.mpr (safe_get.mpr ?_)
  split
  · refine safe_bind.mpr (safe_ask.mpr ⟨trivial, ?_⟩)
    intro written after ⟨done, same⟩
    subst done same
    exact ⟨rfl, rfl, rfl⟩
  · exact ⟨rfl, rfl, rfl⟩

/-- Everything that is written on a note that can be read includes the address. -/
structure Knows (mac : Mac) (memory : NoteMemory) (site : Site) : Prop where
  readable : memory.unreadable = false
  copied : ∀ note, memory.note = some note → mac ∈ note.macs
  legible : site.disk.Legible
  named : mac ∈ site.names

theorem Knows.setCard {list : Finset Mac} (knows : Knows mac memory site) :
    Knows mac memory (site.setCard index list) :=
  ⟨knows.readable, knows.copied, knows.legible, knows.named⟩

theorem noteSet_noted (text : Text) : mac ∈ noteSet (noted mac text) := by
  unfold noted
  split
  · assumption
  · rw [noteSet_append (finished_finished text), noteSet_noteLines]
    simp

/-- A note that can be read takes the probe, and no other. -/
theorem noteCheckProbe_safe (honest : Honest memory site.disk) (readable : memory.unreadable = false) :
    Safe checking (noteCheckProbe index mac) (fun fine left after => after.card = site.card ∧
      (site.disk.Legible → fine = true ∧ Knows mac left after ∧
        textOf after.disk.file = noted mac (textOf site.disk.file)) ∧
      (¬ site.disk.Legible → fine = false ∧ after.disk.file = site.disk.file)) memory site := by
  refine safe_bind.mpr (noteIndex_safe.mono ?_)
  intro _ stamped middle ⟨same, note, kept⟩
  subst same
  rw [← kept] at readable
  have honest : Honest stamped middle.disk := fun copy file known => honest copy file (note ▸ known)
  rw [appendOwned, if_neg (List.cons_ne_nil _ _)]
  have appended := @locked_safe stamped middle _ (appendOwnedLocked [mac])
    (fun out left after => (middle.disk.Legible → out.isSome ∧ left.unreadable = false ∧
        (∀ note, left.note = some note → mac ∈ note.macs) ∧ after.Legible ∧
          textOf after.file = noted mac (textOf middle.disk.file)) ∧
      (¬ middle.disk.Legible → out = none ∧ after.file = middle.disk.file)) ?_
  · refine safe_bind.mpr (appended.mono ?_)
    intro out left after ⟨⟨good, bad⟩, cards⟩
    refine ⟨cards, fun legible => ?_, fun illegible => ?_⟩
    · obtain ⟨wrote, readable, copied, legible, text⟩ := good legible
      refine ⟨wrote, ⟨readable, copied, legible, ?_⟩, text⟩
      rw [Site.names, readsAs_eq legible, text]
      exact noteSet_noted _
    · obtain ⟨refused, file⟩ := bad illegible
      exact ⟨by rw [refused]; rfl, file⟩
  · intro disk file
    have honest : Honest { stamped with holding := true } disk := fun copy found known present =>
      honest copy found known (file ▸ present)
    refine (appendOwnedLocked_faultless honest readable).mono ?_
    intro out left after ⟨good, bad⟩ free same
    have legibly : middle.disk.Legible → disk.Legible := fun legible found present =>
      legible found (file ▸ present)
    refine ⟨fun legible => ?_, fun illegible => ?_⟩
    · obtain ⟨wrote, readable, copied, legible, text⟩ := good (legibly legible)
      exact ⟨wrote, readable, copied, fun found present => legible found (same ▸ present), by rw [same, text, file]⟩
    · obtain ⟨refused, kept⟩ := bad fun legible => illegible fun found present => legible found (file ▸ present)
      exact ⟨refused, by rw [same, kept, file]⟩

theorem forgetCheckProbe_safe (knows : Knows mac memory site) :
    Safe checking (forgetCheckProbe mac) (fun _ _ after => after.card = site.card ∧
      after.names = namedElse mac (textOf site.disk.file)) memory site := by
  have copied : ∀ note file, memory.note = some note → site.disk.file = some file →
      note.isStill file.metadata = true → file.legible = true ∧ mac ∈ note.macs :=
    fun note file known present _ => ⟨knows.legible file present, knows.copied note known⟩
  refine safe_bind.mpr ((onNote_safe (@withOwned_faultless _ _ (mac ∈ ·) copied knows.named knows.readable)).mono ?_)
  intro owned left middle ⟨⟨file, member, _⟩, cards⟩
  rw [if_pos member]
  have dropped := @locked_safe left middle _ (dropLineLocked mac)
    (fun _ _ after => readsAs after.file = namedElse mac (textOf site.disk.file)) ?_
  · refine dropped.mono ?_
    intro _ _ after ⟨names, same⟩
    exact ⟨same.trans cards, names⟩
  · intro disk same
    have legible : disk.Legible := fun found present => knows.legible found (file ▸ same ▸ present)
    refine (dropLineLocked_faultless legible).mono ?_
    intro _ _ after names free there
    rw [there, names, same, file]

/-- A list without an address it may hold. -/
def Without (index : Index) (mac : Mac) (before after : Index → Finset Mac) : Prop :=
  after = Function.update before index (before index \ {mac})

theorem takeProbeOut_safe (knows : Knows mac memory site) (there : mac ∈ site.card index) :
    Safe checking (takeProbeOut index mac) (fun _ _ after => Without index mac site.card after.card ∧
      after.names = namedElse mac (textOf site.disk.file)) memory site := by
  refine safe_bind.mpr (safe_ask.mpr ⟨trivial, ?_⟩)
  intro answer middle written
  simp only [checking, Site.Answers, Site.write, there, decide_true, Prod.mk.injEq] at written
  obtain ⟨accepted, removed⟩ := written
  subst accepted removed
  refine (forgetCheckProbe_safe knows.setCard).mono ?_
  intro _ _ after ⟨cards, names⟩
  exact ⟨cards, names⟩

theorem readProbeBack_safe (knows : Knows mac memory site) (there : mac ∈ site.card index) :
    Safe checking (readProbeBack index mac) (fun _ _ after => Without index mac site.card after.card ∧
      after.names = namedElse mac (textOf site.disk.file)) memory site := by
  refine safe_bind.mpr (safe_ask.mpr ⟨trivial, ?_⟩)
  intro dump middle same
  obtain rfl : middle = site := same
  refine safe_bind.mpr ((takeProbeOut_safe knows there).mono ?_)
  intro _ _ after done
  cases dump with
  | ok fdb => exact done
  | error errno => exact done

/-- Whatever was at the probe's address on the card is gone behind a check. -/
theorem writeProbe_safe (knows : Knows mac memory site) :
    Safe checking (writeProbe index mac) (fun _ _ after => Without index mac site.card after.card ∧
      after.names = namedElse mac (textOf site.disk.file)) memory site := by
  refine safe_bind.mpr (safe_ask.mpr ⟨trivial, ?_⟩)
  intro answer middle written
  by_cases there : mac ∈ site.card index
  · simp only [checking, Site.Answers, Site.write, there, decide_true, Prod.mk.injEq] at written
    obtain ⟨accepted, same⟩ := written
    subst accepted same
    exact readProbeBack_safe knows there
  · simp only [checking, Site.Answers, Site.write, there, decide_false, Prod.mk.injEq] at written
    obtain ⟨accepted, added⟩ := written
    subst accepted added
    have put : mac ∈ (site.setCard index (insert mac (site.card index))).card index := by
      simp [Site.setCard]
    refine (readProbeBack_safe knows.setCard put).mono ?_
    intro _ _ after ⟨cards, names⟩
    refine ⟨?_, names⟩
    rw [Without, cards]
    simp [Site.setCard, Finset.sdiff_singleton_eq_erase]

end Site

section Check

variable {topo : Topology} {dev : Name} {memory left : NoteMemory} {site after : Site} {leftovers : Set Mac}
  {outcome : Bool}

/-- What a check makes of an uplink whose note can be read, the interface being there
and having an address. -/
structure Checked (index : Index) (mac : Mac) (before after : Site) : Prop where
  cards : Without index mac before.card after.card
  names : after.names = namedElse mac (noted mac (textOf before.disk.file))

/-- Nothing happened that shows. -/
structure Untouched (before after : Site) : Prop where
  cards : after.card = before.card
  names : after.names = before.names

theorem checkPair_safe (honest : Honest memory site.disk) (readable : memory.unreadable = false) :
    Safe checking (checkPair topo dev) (fun _ _ after =>
      (∃ link mac, topo.get dev = some link ∧ link.mac = some mac ∧ site.disk.Legible ∧
        Checked link.index (probeOf mac) site after) ∨
      (∀ link mac, topo.get dev = some link → link.mac = some mac → ¬ site.disk.Legible) ∧
        Untouched site after) memory site := by
  unfold checkPair
  split
  · rename_i gone
    exact .inr ⟨by simp [gone], rfl, rfl⟩
  · rename_i link found
    split
    · rename_i bare
      refine .inr ⟨?_, rfl, rfl⟩
      intro other mac same known
      rw [found] at same
      rw [← Option.some.inj same, bare] at known
      cases known
    · rename_i mac known
      refine safe_bind.mpr ((noteCheckProbe_safe honest readable).mono ?_)
      intro fine left middle ⟨cards, good, bad⟩
      by_cases legible : site.disk.Legible
      · obtain ⟨fine, knows, text⟩ := good legible
        subst fine
        refine (writeProbe_safe knows).mono ?_
        intro _ _ after ⟨without, names⟩
        exact .inl ⟨link, mac, found, known, legible, cards ▸ without, text ▸ names⟩
      · obtain ⟨refused, file⟩ := bad legible
        subst refused
        refine .inr ⟨fun _ _ _ _ => legible, cards, ?_⟩
        rw [Site.names, file, Site.names]

/-- Every entry that no note named is still there, and the note names what it named,
except what earlier checks left. -/
structure Spares (leftovers : Set Mac) (before after : Site) : Prop where
  entries : ∀ index, ∀ mac ∈ before.card index, mac ∉ before.names → mac ∉ leftovers → mac ∈ after.card index
  names : after.names ⊆ before.names
  lines : ∀ mac ∈ before.names, mac ∉ leftovers → mac ∈ after.names

/-- Nothing of anybody else's stands at the probe's address, and no unfinished line
names anybody of its own. -/
def Unclaimed (leftovers : Set Mac) (site : Site) (index : Index) (mac : Mac) : Prop :=
  if mac ∈ site.names then mac ∈ leftovers ∨ mac ∈ namedElse mac (textOf site.disk.file)
  else (mac ∈ site.card index → mac ∈ leftovers) ∧
    ∀ other ∈ noteSet (lastLine (textOf site.disk.file)),
      other ∈ leftovers ∨ other ∈ noteSet (finished (textOf site.disk.file))

theorem Untouched.spares (untouched : Untouched site after) : Spares leftovers site after where
  entries index mac there _ _ := by rwa [untouched.cards]
  names := untouched.names.subset
  lines mac named _ := by rwa [untouched.names]

theorem Checked.spares_iff {index : Index} {mac : Mac} (checked : Checked index mac site after)
    (legible : site.disk.Legible) : Spares leftovers site after ↔ Unclaimed leftovers site index mac := by
  have before : site.names = noteSet (textOf site.disk.file) := readsAs_eq legible
  have others : ∀ place, ∀ other ∈ site.card place, (place = index → other ≠ mac) →
      other ∈ after.card place := by
    intro place other there apart
    rw [checked.cards, Function.update_apply]
    split
    · rename_i same
      exact Finset.mem_sdiff.mpr ⟨same ▸ there, by simpa using apart same⟩
    · exact there
  have gone : mac ∉ after.card index := by
    rw [checked.cards]
    simp
  unfold Unclaimed
  split
  · rename_i named
    have names : after.names = namedElse mac (textOf site.disk.file) := by
      rw [checked.names, noted, if_pos (before ▸ named)]
    constructor
    · intro spares
      by_cases leftover : mac ∈ leftovers
      · exact .inl leftover
      · exact .inr (names ▸ spares.lines mac named leftover)
    · intro unclaimed
      refine ⟨fun place other there foreign _ => others place other there ?_, ?_, ?_⟩
      · intro _ same
        exact foreign (same ▸ named)
      · rw [names, before]
        exact namedElse_subset ..
      · intro other member spared
        rw [names]
        by_cases same : other = mac
        · subst same
          exact unclaimed.resolve_left spared
        · exact mem_namedElse_of_ne same (before ▸ member)
  · rename_i fresh
    have names : after.names = noteSet (finished (textOf site.disk.file)) := by
      rw [checked.names, namedElse_noted (before ▸ fresh)]
    have whole := noteSet_eq_union (textOf site.disk.file)
    constructor
    · intro spares
      refine ⟨fun there => ?_, fun other unfinished => ?_⟩
      · by_contra foreign
        exact gone (spares.entries index mac there fresh foreign)
      · by_cases leftover : other ∈ leftovers
        · exact .inl leftover
        · have member : other ∈ site.names := by
            rw [before, whole]
            exact Finset.mem_union_right _ unfinished
          exact .inr (names ▸ spares.lines other member leftover)
    · intro ⟨foreign, unfinished⟩
      refine ⟨fun place other there _ spared => others place other there ?_, ?_, ?_⟩
      · intro here same
        subst here same
        exact spared (foreign there)
      · rw [names, before]
        exact noteSet_finished_subset _
      · intro other member spared
        rw [before, whole] at member
        rw [names]
        rcases Finset.mem_union.mp member with line | line
        · exact line
        · exact (unfinished other line).resolve_left spared

/-- A check leaves what it did not put exactly where its probe's address is nobody
else's. -/
theorem check_spares_iff (honest : Honest memory site.disk) (readable : memory.unreadable = false)
    (ran : Runs checking (checkPair topo dev) memory site outcome left after) :
    Spares leftovers site after ↔ ∀ link mac, topo.get dev = some link → link.mac = some mac →
      site.disk.Legible → Unclaimed leftovers site link.index (probeOf mac) := by
  rcases (checkPair_safe honest readable).runs ran with
    ⟨link, mac, found, known, legible, checked⟩ | ⟨skipped, untouched⟩
  · rw [checked.spares_iff legible]
    constructor
    · intro unclaimed other own same known' _
      rw [found] at same
      obtain rfl := Option.some.inj same
      rw [known] at known'
      exact Option.some.inj known' ▸ unclaimed
    · intro unclaimed
      exact unclaimed link mac found known legible
  · exact ⟨fun _ link mac found known legible => absurd legible (skipped link mac found known),
      fun _ => untouched.spares⟩

end Check

section Examples

def Disk.fresh (disk : Disk) : Nat := disk.used.sup id + 1

theorem Disk.fresh_notMem (disk : Disk) : disk.fresh ∉ disk.used := by
  intro member
  have below : disk.fresh ≤ disk.used.sup id := Finset.le_sup (f := id) member
  rw [Disk.fresh] at below
  omega

/-- A directory on which everything works, at the given time. -/
def Disk.manages (clock : Int) (disk : Disk) : (request : FileCall) → FileReply request × Disk
  | .lock => ((), disk.setHolder .keeper)
  | .unlock => ((), disk.setHolder .nobody)
  | .putFile text => (true, disk.install ⟨disk.fresh, text, true, clock⟩)
  | .removeFile => ((), disk.unlink)
  | .openAppend =>
      match disk.file with
      | some _ => (true, disk)
      | none => (true, disk.install ⟨disk.fresh, [], true, clock⟩)
  | request => disk.serves clock request

def Disk.takes (disk : Disk) : FileCall → Bool
  | .lock => disk.holder == .nobody
  | .finishLastLine | .writeAll _ => disk.file.isSome
  | _ => true

theorem Disk.manages_faultless {clock : Int} {disk : Disk} {request : FileCall}
    (takes : disk.takes request = true) :
    faultless.answers disk request (disk.manages clock request).1 (disk.manages clock request).2 := by
  cases request with
  | metadata => exact ⟨⟨rfl, .inr rfl⟩, trivial⟩
  | readToString =>
      cases found : disk.file with
      | none => simp [faultless, manages, serves, shows, found, Answers, Goes]
      | some file =>
          cases legible : file.legible with
          | true => simp [faultless, manages, serves, shows, found, legible, Answers, Goes]
          | false => simp [faultless, manages, serves, shows, found, legible, Answers, Goes]
  | clock => exact ⟨rfl, trivial⟩
  | lock => exact ⟨⟨beq_iff_eq.mp takes, rfl⟩, trivial⟩
  | unlock => exact ⟨rfl, trivial⟩
  | openAppend =>
      cases found : disk.file with
      | none =>
          simp only [manages, found]
          exact ⟨.inr ⟨rfl, found, _, _, disk.fresh_notMem, rfl⟩, rfl⟩
      | some file =>
          simp only [manages, found]
          exact ⟨.inl ⟨rfl, fun _ => by simp [found]⟩, rfl⟩
  | finishLastLine =>
      obtain ⟨file, found⟩ := Option.isSome_iff_exists.mp takes
      simp only [manages, serves, found]
      exact ⟨.inr ⟨file, file.modified, found, trivial, rfl⟩, rfl⟩
  | writeAll text =>
      obtain ⟨file, found⟩ := Option.isSome_iff_exists.mp takes
      simp only [manages, serves, found]
      exact ⟨⟨file, text, file.modified, found, List.prefix_refl _, fun _ => rfl, rfl⟩, rfl⟩
  | putFile text => exact ⟨.inr ⟨rfl, _, _, disk.fresh_notMem, rfl⟩, rfl⟩
  | removeFile => exact ⟨.inr rfl, rfl⟩

def Site.manages : Handler CheckCall CheckReply Site
  | site, .file request =>
      ((site.disk.manages 5 request).1, { site with disk := (site.disk.manages 5 request).2 })
  | site, .putIndex _ => (true, site)
  | site, .setSelfFdb index mac add => site.write index mac add
  | site, .dumpFdb =>
      (.ok ((ascending (site.card 2)).map fun mac => ⟨2, none, mac, nudPermanent, ntfSelf⟩), site)

def Site.takes (site : Site) : CheckCall → Bool
  | .file request => site.disk.takes request
  | _ => true

theorem Site.manages_checking {site : Site} {request : CheckCall} (takes : site.takes request = true) :
    checking.answers site request (site.manages request).1 (site.manages request).2 := by
  cases request with
  | file request => exact ⟨_, Disk.manages_faultless takes, rfl⟩
  | putIndex index => exact ⟨rfl, rfl⟩
  | setSelfFdb index mac add => rfl
  | dumpFdb => rfl

def soleTopology : Topology where
  links := [{ name := "nic1", index := 2, mac := some ⟨2, 0, 0, 0, 0, 0x10⟩ }]
  distinct := by decide

/-- A check of the only uplink, by a process that remembers nothing. -/
def checkSole (site : Site) : Program CheckCall CheckReply (Bool × NoteMemory) × Site :=
  (checkPair soleTopology "nic1" {}).advance Site.manages Site.takes site

theorem runs_checkSole {site : Site} {outcome : Bool}
    (ended : (checkSole site).1.outcome.map (·.1) = some outcome) :
    ∃ left, Runs checking (checkPair soleTopology "nic1") {} site outcome left (checkSole site).2 := by
  obtain ⟨⟨out, left⟩, whole, same⟩ := Option.map_eq_some_iff.mp ended
  obtain rfl : out = outcome := same
  refine ⟨left, ?_⟩
  have path : (checkPair soleTopology "nic1" {}).Reaches checking site (checkSole site).1 (checkSole site).2 :=
    Program.advance_reaches (fun _ _ takes => Site.manages_checking takes) _ site
  rwa [Program.of_outcome whole] at path

/-- No note, and one entry on the card. -/
def holding (mac : Mac) : Site where
  disk := ⟨none, .nobody, ∅, []⟩
  card := Function.update (fun _ => ∅) 2 {mac}

/-- Somebody else's entry happens to have the probe's address. -/
theorem check_takes_foreign_entry :
    ¬ ∀ (topo : Topology) (dev : Name) (memory left : NoteMemory) (site after : Site) (outcome : Bool)
      (leftovers : Set Mac), Honest memory site.disk → memory.unreadable = false →
      Runs checking (checkPair topo dev) memory site outcome left after → Spares leftovers site after := by
  intro spares
  obtain ⟨left, ran⟩ := @runs_checkSole (holding (probeOf ⟨2, 0, 0, 0, 0, 0x10⟩)) true (by decide +kernel)
  have kept := (spares _ _ _ _ _ _ _ ∅ (honest_fresh _) rfl ran).entries 2 (probeOf ⟨2, 0, 0, 0, 0, 0x10⟩)
    (by decide +kernel) (by decide +kernel) (by simp)
  exact absurd kept (by decide +kernel)

theorem check_spares_iff_another : ∃ left,
    Runs checking (checkPair soleTopology "nic1") {} (holding ⟨2, 0, 0, 0, 0, 1⟩) true left
        (checkSole (holding ⟨2, 0, 0, 0, 0, 1⟩)).2 ∧
      (Spares ∅ (holding ⟨2, 0, 0, 0, 0, 1⟩) (checkSole (holding ⟨2, 0, 0, 0, 0, 1⟩)).2 ↔
        ∀ link mac, soleTopology.get "nic1" = some link → link.mac = some mac →
          (holding ⟨2, 0, 0, 0, 0, 1⟩).disk.Legible →
            Unclaimed ∅ (holding ⟨2, 0, 0, 0, 0, 1⟩) link.index (probeOf mac)) := by
  obtain ⟨left, ran⟩ := @runs_checkSole (holding ⟨2, 0, 0, 0, 0, 1⟩) true (by decide +kernel)
  exact ⟨left, ran, check_spares_iff (honest_fresh _) rfl ran⟩

end Examples

end SriovMacSync.Cache
