import Mathlib.Data.String.Basic
import SriovMacSync.Interaction.Locking
import SriovMacSync.Sync.Flush

namespace SriovMacSync

open Data Netlink Interaction Interaction.Action

/-! # The notes' locks

What a section does inside its lock.  A note is rewritten under its own lock; a filter
and a port memory are written under some lock. -/

def lockMove : Call → LockMove Name
  | .lock dev _ => .takes dev
  | .unlock dev => .gives dev
  | _ => .leaves

/-- The locks a write is made under. -/
def Call.Guarded : Call → List Name → Prop
  | .putNote dev _, held | .appendNote dev _, held | .removeNote dev, held
  | .removeIndex dev, held => dev ∈ held
  | .setSelfFdb .., held | .putPorts .., held | .removePorts _, held => held ≠ []
  | _, _ => True

def noteLocking : Locking Call Name := ⟨lockMove, Call.Guarded⟩

/-- What may be asked while these locks are held and stay held. -/
def Inside (held : List Name) (request : Call) : Prop :=
  lockMove request = .leaves ∧ request.Guarded held

variable {held : List Name} {dev : Name} {index : Index} {syncer : Syncer}

theorem inside_safe {α : Type} {body : Sync α} {post : α → Syncer → Prop}
    (within : Within (Inside held) body post syncer) :
    Safe noteLocking.discipline body (fun value after held' => post value after ∧ held' = held)
      syncer held := by
  refine within.frame (fun held' request (same : held' = held) inside => ?_) rfl
  subst same
  obtain ⟨leaves, guarded⟩ := inside
  have move : noteLocking.move request = .leaves := leaves
  refine ⟨⟨?_, guarded⟩, fun reply after answered => ?_⟩
  · rw [move]
    exact True.intro
  · change after = _ at answered
    rw [answered, move]
    rfl

theorem asks_safe {α : Type} {body : Sync α} (asks : Asks (Inside held) body) :
    Safe noteLocking.discipline body (fun _ _ held' => held' = held) syncer held :=
  (inside_safe (asks syncer)).mono fun _ _ _ holds => holds.2

/-- A section on a note whose lock comes after all that are held. -/
theorem locked_ordered {α : Type} {work : Section} {body : Sync α} {post : α → Syncer → Prop}
    (beyond : ∀ other ∈ held, other < dev)
    (inside : Safe noteLocking.discipline body
      (fun value after held' => post value after ∧ held' = dev :: held) syncer (dev :: held)) :
    Safe noteLocking.discipline (locked dev work body)
      (fun value after held' => post value after ∧ held' = held) syncer held := by
  refine safe_bind.mpr (safe_ask.mpr ⟨⟨beyond, True.intro⟩, fun _ now taken => ?_⟩)
  subst taken
  refine safe_bind.mpr (inside.mono ?_)
  intro value after now ⟨holds, same⟩
  subst same
  refine safe_bind.mpr (safe_ask.mpr ⟨⟨rfl, True.intro⟩, fun _ now given => safe_pure.mpr ⟨holds, ?_⟩⟩)
  rw [given]
  change (dev :: held).erase dev = held
  simp

/-- A section of a process that holds nothing yet. -/
theorem section_within {α : Type} {work : Section} {body : Sync α} {post : α → Syncer → Prop}
    (within : Within (Inside [dev]) body post syncer) :
    Safe noteLocking.discipline (locked dev work body)
      (fun value after held => post value after ∧ held = []) syncer [] :=
  locked_ordered (by simp) (inside_safe within)

theorem section_unlocks {α : Type} {work : Section} {body : Sync α} (asks : Asks (Inside [dev]) body) :
    Safe noteLocking.discipline (locked dev work body) (fun _ _ held => held = []) syncer [] :=
  (section_within (asks syncer)).mono fun _ _ _ holds => holds.2

section Notes

theorem readOwned_inside : Asks (Inside held) (readOwned dev) :=
  .bind (.ask ⟨rfl, True.intro⟩) fun _ => .bind .modify fun _ => .pure

theorem loadOwned_inside : Asks (Inside held) (loadOwned dev) :=
  .bind (.ask ⟨rfl, True.intro⟩) fun _ => .bind .modify fun _ => .pure

theorem noteIsReadable_inside : Asks (Inside held) (noteIsReadable dev) :=
  .bind .get fun _ => .pure

theorem noteIndex_inside : Asks (Inside held) (noteIndex dev index) :=
  .bind .get fun _ => .ite (.bind (.ask ⟨rfl, True.intro⟩) fun _ => .ite .modify .pure) .pure

theorem recordedIndex_inside : Asks (Inside held) (recordedIndex dev) := by
  refine .bind .get fun syncer => ?_
  split
  · exact .pure
  · exact .ask ⟨rfl, True.intro⟩

theorem removeNote_inside (member : dev ∈ held) : Asks (Inside held) (removeNote dev) :=
  .bind (.ask ⟨rfl, member⟩) fun _ => .bind (.ask ⟨rfl, member⟩) fun _ =>
    .bind (.ask ⟨rfl, List.ne_nil_of_mem member⟩) fun _ => .modify

theorem writeOwned_inside (member : dev ∈ held) {set : Finset Mac} :
    Asks (Inside held) (writeOwned dev set) :=
  .bind noteIsReadable_inside fun _ => .ite
    (.bind loadOwned_inside fun _ => .ite .pure (.ask ⟨rfl, member⟩)) .pure

theorem appendOwnedLocked_inside (member : dev ∈ held) {added : List Mac} :
    Asks (Inside held) (appendOwnedLocked dev added) :=
  .bind loadOwned_inside fun _ => .bind noteIsReadable_inside fun _ => .ite
    (.ite .pure (.bind (.ask ⟨rfl, member⟩) fun _ => .pure)) .pure

theorem unnoteLocked_inside (member : dev ∈ held) {macs : List Mac} :
    Asks (Inside held) (unnoteLocked dev macs) :=
  .bind noteIsReadable_inside fun _ => .ite
    (.bind loadOwned_inside fun _ => .ite .pure (writeOwned_inside member)) .pure

theorem forgetLocked_inside (member : dev ∈ held) {dropped : List Mac} :
    Asks (Inside held) (forgetLocked dev dropped) :=
  .ite (.bind readOwned_inside fun _ => .bind (writeOwned_inside member) fun _ => .pure) .pure

theorem migrateLocked_inside {old new : Name} (oldHeld : old ∈ held) (newHeld : new ∈ held) :
    Asks (Inside held) (migrateLocked old new index) := by
  refine .bind loadOwned_inside fun owned => .bind (.ask ⟨rfl, True.intro⟩) fun macs =>
    .bind noteIsReadable_inside fun readable => .ite (.ite ?_ ?_) .pure
  · exact .bind (removeNote_inside oldHeld) fun _ => .pure
  · refine .bind noteIndex_inside fun _ => .bind (appendOwnedLocked_inside newHeld) fun appended => ?_
    split
    · exact .pure
    · exact .bind (removeNote_inside oldHeld) fun _ => .pure

end Notes

section Card

theorem setEach_inside (holds : held ≠ []) {add : Bool} {macs : List Mac} :
    Asks (Inside held) (setEach index add macs) := by
  induction macs with
  | nil => exact .pure
  | cons mac rest ih => exact .bind (.ask ⟨rfl, holds⟩) fun _ => .bind ih fun _ => .pure

theorem unregisterAll_inside (holds : held ≠ []) {owned : Finset Mac} :
    Asks (Inside held) (unregisterAll index owned) :=
  .bind (.ask ⟨rfl, True.intro⟩) fun _ => .bind (setEach_inside holds) fun _ => .pure

theorem notedLink_inside {topo : Topology} : Asks (Inside held) (notedLink dev topo) := by
  unfold notedLink
  split
  · exact .pure
  · refine .bind recordedIndex_inside fun recorded => ?_
    split
    · exact .pure
    · exact .pure

theorem renamedTarget_inside {topo : Topology} : Asks (Inside held) (renamedTarget dev topo) := by
  refine .bind (.ask ⟨rfl, True.intro⟩) fun recorded => ?_
  split
  · exact .pure
  · split
    · exact .pure
    · exact .pure

end Card

section Parts

/-- Two notes are locked in the order of their names. -/
theorem migrateNote_unlocks {old new : Name} :
    Safe noteLocking.discipline (migrateNote old new index) (fun _ _ held => held = []) syncer [] := by
  have twice {first second : Name} {body : Sync Bool} (apart : first ≠ second)
      (inOrder : first ≤ second) (asks : Asks (Inside [second, first]) body) :
      Safe noteLocking.discipline (locked first (.migrate old new index) <|
        locked second (.migrate old new index) body) (fun _ _ held => held = []) syncer [] := by
    have inner : Safe noteLocking.discipline (locked second (.migrate old new index) body)
        (fun _ _ held => True ∧ held = [first]) syncer [first] :=
      (locked_ordered (by simpa using lt_of_le_of_ne inOrder apart) (inside_safe (asks syncer))).mono
        fun _ _ _ holds => ⟨True.intro, holds.2⟩
    exact (locked_ordered (by simp) inner).mono fun _ _ _ holds => holds.2
  rw [migrateNote]
  split
  · rfl
  · rename_i apart
    split
    · exact twice apart ‹_› (migrateLocked_inside (by simp) (by simp))
    · rename_i behind
      exact twice (Ne.symm apart) (not_le.mp behind).le (migrateLocked_inside (by simp) (by simp))

theorem takeOut_inside (holds : held ≠ []) {topo : Topology} {owned : Finset Mac} :
    Asks (Inside held) (takeOut dev topo owned) := by
  refine .bind notedLink_inside fun found => ?_
  split
  · exact .bind (unregisterAll_inside holds) fun _ => .pure
  · exact .pure

theorem sweepNote_unlocks {topo : Topology} :
    Safe noteLocking.discipline (sweepNote dev topo) (fun _ _ held => held = []) syncer [] := by
  have member : dev ∈ [dev] := by simp
  refine section_unlocks (.bind loadOwned_inside fun owned =>
    .ite (.bind noteIsReadable_inside fun readable => ?_) ?_)
  · exact .ite (.bind (removeNote_inside member) fun _ => .pure) .pure
  · refine .bind (takeOut_inside (by simp)) fun kept => .bind noteIsReadable_inside fun readable => ?_
    exact .ite (.bind (removeNote_inside member) fun _ => .pure)
      (.bind (writeOwned_inside member) fun _ => .pure)

theorem flushEntries_inside (holds : held ≠ []) {topo : Topology} {owned : Finset Mac} :
    Asks (Inside held) (flushEntries dev topo owned) := by
  refine .bind (.bind notedLink_inside fun found => ?_) fun target => ?_
  · split
    · exact .pure
    · exact .bind renamedTarget_inside fun _ => .pure
  · split
    · exact .bind (unregisterAll_inside holds) fun _ => .pure
    · exact .pure

theorem flushNote_unlocks {topo : Topology} :
    Safe noteLocking.discipline (flushNote dev topo) (fun _ _ held => held = []) syncer [] := by
  have member : dev ∈ [dev] := by simp
  refine section_unlocks (.bind loadOwned_inside fun owned =>
    .bind (flushEntries_inside (by simp)) fun kept => .bind noteIsReadable_inside fun readable =>
      .ite (.ite ?_ ?_) .pure)
  · exact .bind (removeNote_inside member) fun _ => .pure
  · exact .bind (writeOwned_inside member) fun _ => .pure

theorem registerBatchLocked_unlocks {macs : List Mac} :
    Safe noteLocking.discipline (registerBatchLocked dev index macs) (fun _ _ held => held = [])
      syncer [] := by
  have member : dev ∈ [dev] := by simp
  refine section_unlocks (.bind (appendOwnedLocked_inside member) fun appended => ?_)
  split
  · exact .pure
  · refine .bind (setEach_inside (by simp)) fun answers => .ite ?_ .pure
    exact .bind (unnoteLocked_inside member) fun _ => .pure

theorem retire_unlocks {work : Section} {macs : List Mac} :
    Safe noteLocking.discipline (retire work dev index macs) (fun _ _ held => held = []) syncer [] :=
  section_unlocks (.bind (setEach_inside (by simp)) fun _ =>
    .bind (forgetLocked_inside (by simp)) fun _ => .pure)

theorem saveOwnedMerged_unlocks {before after : Finset Mac} :
    Safe noteLocking.discipline (saveOwnedMerged dev before after) (fun _ _ held => held = [])
      syncer [] := by
  refine safe_bind.mpr (safe_get.mpr ?_)
  split
  · exact section_unlocks (.bind readOwned_inside fun _ =>
      .bind (writeOwned_inside (by simp)) fun _ => .pure)
  · rfl

end Parts

end SriovMacSync
