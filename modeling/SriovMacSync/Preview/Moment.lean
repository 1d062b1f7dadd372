import SriovMacSync.Memory.Turn

namespace SriovMacSync

open Data Netlink Interaction Interaction.Action

/-! # One moment of a host

Nobody else is at work, the clock stands, every reading says the same however often it is
made, and every write asked for succeeds. -/

/-- What the readings of a moment say, beside what is on the shelf. -/
structure Moment where
  legible : Name → Bool
  driver : List Index → Except Errno (List (Index × Mac))
  noted : Except Errno (List Name)
  now : Nat

namespace Moment

variable (moment : Moment)

def Tells (shelf : Shelf) : (request : Call) → Reply request → Shelf → Prop
  | .setSelfFdb _ _ _, reply, _ => reply = .ok ()
  | .vfMacsOf pfs, reply, _ => reply = moment.driver pfs
  | .bootMillis, _, after => after = shelf
  | .now, reply, _ => reply = moment.now
  | .listNotes, reply, _ => reply = moment.noted
  | .readNote dev, reply, _ => reply.isReadable = moment.legible dev
  | .readIndex dev, reply, _ => reply = (shelf.drawer dev).record
  | .putNote _ _, reply, _ => reply = true
  | .appendNote _ _, reply, _ => reply = true
  | .putIndex _ _, reply, _ => reply = true
  | _, _, _ => True

def Reads (dev : Name) : Prop := moment.legible dev = true

/-- A host whose readings are those of a moment, and whose writes all succeed. -/
def still : Environment Call Reply Shelf where
  permits _ _ := True
  answers shelf request reply after :=
    shelf.Answers moment.Reads moment.Reads request reply after ∧ moment.Tells shelf request reply after

/-- The addresses a process is told it owns. -/
def owned (shelf : Shelf) (dev : Name) : Finset Mac :=
  if moment.legible dev then (shelf.drawer dev).note else ∅

end Moment

variable {moment : Moment} {shelf : Shelf} {syncer : Syncer} {dev : Name} {index : Index} {topo : Topology}
  {reading : Reading}

section Answers

variable {α : Type} {action : Sync α} {post : α → Syncer → Shelf → Prop}

/-- What is known of every host is known of one that stands still. -/
theorem still_of_shelf (safe : Safe (shelving moment.Reads moment.Reads) action post syncer shelf) :
    Safe moment.still action post syncer shelf :=
  Program.Safe.weaken safe (fun _ _ permitted => permitted) fun _ _ _ _ answered => answered.1

theorem still_ask {request : Call} {post : Reply request → Syncer → Shelf → Prop}
    (next : ∀ reply after, shelf.Answers moment.Reads moment.Reads request reply after →
      moment.Tells shelf request reply after → post reply syncer after) :
    Safe moment.still (ask request) post syncer shelf :=
  safe_ask.mpr ⟨trivial, fun reply after answered => next reply after answered.1 answered.2⟩

theorem within_still {allowed : Call → Prop} {post : α → Syncer → Prop} (within : Within allowed action post syncer) :
    Safe moment.still action (fun value after _ => post value after) syncer shelf :=
  still_of_shelf (within_shelf within)

theorem always_still : Safe moment.still action (fun _ _ _ => True) syncer shelf := still_of_shelf always_shelf

/-- Several things known of a process are known at once. -/
theorem still_all {ι : Type} {post : ι → α → Syncer → Shelf → Prop}
    (each : ∀ place, Safe moment.still action (post place) syncer shelf) :
    Safe moment.still action (fun value after shelf' => ∀ place, post place value after shelf') syncer shelf := by
  have together : ∀ (program : Program Call Reply (α × Syncer)) (world : Shelf),
      (∀ place, program.Safe moment.still (fun result after => post place result.1 result.2 after) world) →
        program.Safe moment.still (fun result after => ∀ place, post place result.1 result.2 after) world := by
    intro program
    induction program with
    | done value => exact fun _ safe => safe
    | call request next ih =>
        intro world safe
        exact ⟨trivial, fun reply after answered => ih reply after fun place => (safe place).2 reply after answered⟩
  exact together (action syncer) shelf each

theorem clock_answered {request : Call} {reply : Reply request} {after : Shelf}
    (answered : moment.still.answers shelf request reply after) : after.clock = shelf.clock := by
  obtain ⟨answered, told⟩ := answered
  cases request with
  | bootMillis => exact congrArg Shelf.clock told
  | dumpFdb => exact answered.1 ▸ rfl
  | setSelfFdb place mac add =>
      obtain ⟨list, _, written⟩ := answered
      rw [written, Shelf.does]
      split <;> rfl
  | lock named work =>
      obtain rfl : after = _ := answered
      rfl
  | unlock named =>
      obtain rfl : after = _ := answered
      rfl
  | readNote named => cases reply <;> exact answered.1 ▸ rfl
  | putNote named macs => rcases answered with ⟨_, written⟩ | ⟨_, _, written⟩ <;> exact written ▸ rfl
  | appendNote named macs => rcases answered with ⟨_, written⟩ | ⟨_, _, part, _, written⟩ <;> exact written ▸ rfl
  | removeNote named => rcases answered with written | ⟨_, written⟩ <;> exact written ▸ rfl
  | readIndex named => exact answered.1 ▸ rfl
  | putIndex named place => rcases answered with ⟨_, written⟩ | ⟨_, _, written⟩ <;> exact written ▸ rfl
  | removeIndex named => rcases answered with written | ⟨_, written⟩ <;> exact written ▸ rfl
  | readPorts named => exact answered.1 ▸ rfl
  | portsExist named => exact answered.1 ▸ rfl
  | putPorts named text =>
      replace answered : if _ then _ else _ := answered
      split at answered <;> exact answered.2 ▸ rfl
  | removePorts named =>
      replace answered : if _ then _ else _ := answered
      split at answered <;> exact answered.2 ▸ rfl
  | _ =>
      obtain rfl : after = shelf := answered
      rfl

/-- Nothing a process does moves the clock of a moment. -/
theorem clock_still : Safe moment.still action (fun _ _ after => after.clock = shelf.clock) syncer shelf :=
  Program.safe_of_kept (fun _ _ same => ⟨trivial, fun _ _ answered => (clock_answered answered).trans same⟩) rfl

end Answers

section Notes

theorem loadOwned_still :
    Safe moment.still (loadOwned dev) (fun owned after shelf' => shelf' = shelf ∧ NoteMarks Set.univ syncer after ∧
      owned = moment.owned shelf dev ∧ (dev ∉ after.unreadable ↔ moment.legible dev = true)) syncer shelf := by
  have sees : Safe moment.still (loadOwned dev) (fun _ after _ =>
      dev ∉ after.unreadable ↔ moment.legible dev = true) syncer shelf := by
    apply safe_bind.mpr
    apply still_ask
    intro answer shelf' _ told
    have same : answer.isReadable = moment.legible dev := told
    refine safe_bind.mpr (safe_modify.mpr (safe_pure.mpr ?_))
    rw [← same]
    dsimp only
    cases answer.isReadable <;> split <;> simp [Syncer.sawNote, Syncer.setIndex]
  apply ((still_of_shelf loadOwned_shelf).and sees).mono
  intro owned after shelf' facts
  obtain ⟨⟨same, marks, reads⟩, readable⟩ := facts
  refine ⟨same, marks, ?_, readable⟩
  rcases reads with ⟨marked, empty, _, illegible⟩ | ⟨unmarked, names⟩
  · exact empty.trans (if_neg illegible).symm
  · rw [Moment.owned, if_pos (readable.mp unmarked), names]

/-- Whether a note is readable, once it was read. -/
theorem noteIsReadable_still : Safe moment.still (noteIsReadable dev) (fun readable after shelf' =>
    after = syncer ∧ shelf' = shelf ∧ (readable = true ↔ dev ∉ syncer.unreadable)) syncer shelf :=
  safe_bind.mpr (safe_get.mpr (safe_pure.mpr ⟨rfl, rfl, decide_eq_true_iff⟩))

theorem appendOwnedLocked_still {added : List Mac} (legible : moment.legible dev = true) :
    Safe moment.still (appendOwnedLocked dev added) (fun fresh _ _ => fresh.isSome) syncer shelf := by
  apply (still_of_shelf appendOwnedLocked_shelf).mono
  intro fresh after shelf' ⟨_, note, _, _, _, _, taken⟩
  exact taken legible

theorem setEach_still {add : Bool} {macs : List Mac} :
    Safe moment.still (setEach index add macs)
      (fun answers _ _ => answers = macs.map fun mac => (mac, .ok ())) syncer shelf := by
  induction macs generalizing shelf with
  | nil => exact rfl
  | cons mac rest ih =>
      apply safe_bind.mpr
      apply still_ask
      intro reply shelf' _ told
      obtain rfl : reply = .ok () := told
      apply safe_bind.mpr
      apply ih.mono
      intro answers _ _ same
      rw [same]
      rfl

theorem answeredOk_ok {macs : List Mac} : answeredOk (macs.map fun mac => (mac, .ok ())) = macs := by
  simp [answeredOk, List.filterMap_map]

theorem absentOrOk_ok {macs : List Mac} : absentOrOk (macs.map fun mac => (mac, .ok ())) = macs := by
  simp [absentOrOk, List.filterMap_map]

/-- What comes of work under a lock is what comes of the work. -/
theorem locked_still {α : Type} {work : Section} {body : Sync α} {post : α → Prop}
    (worked : ∀ between, Safe moment.still body (fun value _ _ => post value) syncer between) :
    Safe moment.still (locked dev work body) (fun value _ _ => post value) syncer shelf := by
  apply safe_bind.mpr
  apply still_ask
  intro _ between _ _
  apply safe_bind.mpr
  apply (worked between).mono
  intro value _ _ holds
  apply safe_bind.mpr
  apply still_ask
  intro _ _ _ _
  exact holds

/-- A batch put into a note that can be read goes into the card as a whole. -/
theorem registerBatchLocked_still {macs : List Mac} (legible : moment.legible dev = true) :
    Safe moment.still (registerBatchLocked dev index macs)
      (fun registered _ _ => ∃ failures, registered = some ⟨macs, failures⟩) syncer shelf := by
  apply locked_still
  intro between
  apply safe_bind.mpr
  apply (appendOwnedLocked_still legible).mono
  intro fresh _ _ taken
  obtain ⟨fresh, same⟩ := Option.isSome_iff_exists.mp taken
  subst same
  apply safe_bind.mpr
  apply setEach_still.mono
  intro answers _ _ same
  subst same
  dsimp only
  rw [answeredOk_ok]
  split
  · apply safe_bind.mpr
    apply always_still.mono
    intro _ _ _ _
    exact ⟨_, rfl⟩
  · exact ⟨_, rfl⟩

theorem retire_still {work : Section} {macs : List Mac} :
    Safe moment.still (retire work dev index macs) (fun retired _ _ => retired.dropped = macs) syncer shelf := by
  apply @locked_still _ _ _ _ _ _ _ fun retired : Retired => retired.dropped = macs
  intro between
  apply safe_bind.mpr
  apply setEach_still.mono
  intro answers _ _ same
  subst same
  apply safe_bind.mpr
  apply always_still.mono
  intro _ _ _ _
  exact absentOrOk_ok

end Notes

end SriovMacSync
