import SriovMacSync.Custody.Pass
import SriovMacSync.Removals.Tame

namespace SriovMacSync

open Data Netlink Interaction Interaction.Action

/-! Every section of a process, seen from one note. -/

variable {dev name : Name} {index : Index} {syncer : Syncer} {topo : Topology} {note : Finset Mac}
  {α : Type}

theorem section_rests {work : Section} {body : Sync α}
    (safe : ∀ note, work.victims ⊆ note →
      Safe (guarding dev) body (fun _ _ sight => sight ≠ none) syncer (some note)) :
    Safe (guarding dev) (locked dev work body) (fun _ _ sight => sight = none) syncer none := by
  have sectioned : Safe (guarding dev) (locked dev work body) (fun _ _ sight => True ∧ sight = none)
      syncer none :=
    section_safe fun note noted => (safe note noted).mono fun _ _ _ held => ⟨trivial, held⟩
  exact sectioned.mono fun _ _ _ held => held.2

theorem tame_held {body : Sync α} (tame : Asks (·.Tame dev) body) :
    Safe (guarding dev) body (fun _ _ sight => sight ≠ none) syncer (some note) :=
  (tame_safe (tame syncer)).mono fun _ _ _ held => held.2

/-- A section of this note that takes nothing out. -/
theorem tame_section {work : Section} {body : Sync α} (tame : Asks (·.Tame dev) body) :
    Safe (guarding dev) (locked dev work body) (fun _ _ sight => sight = none) syncer none :=
  section_rests fun _ _ => tame_held tame

/-- Whatever is asked only of other notes. -/
theorem apart_rests {action : Sync α} {post : α → Syncer → Prop}
    (within : Within (InScope {name | name ≠ dev} Set.univ) action post syncer) :
    Safe (guarding dev) action (fun _ _ sight => sight = none) syncer none := by
  refine (apart_safe (within.mono (fun request scope => ?_) fun _ _ holds => holds)).mono
    fun _ _ _ held => held.2
  have other {name : Name} (about : request.about = some name) : name ≠ dev := scope.1 name about
  cases request <;> first | exact other rfl | exact trivial

theorem registerBatchLocked_guarding {macs : List Mac} :
    Safe (guarding dev) (registerBatchLocked dev index macs) (fun _ _ sight => sight = none)
      syncer none := by
  refine tame_section (.bind appendOwnedLocked_tame fun appended => ?_)
  split
  · exact .pure
  · exact .bind setEach_tame fun _ => .ite (.bind unnoteLocked_tame fun _ => .pure) .pure

theorem saveOwnedMerged_guarding {before after : Finset Mac} :
    Safe (guarding dev) (saveOwnedMerged dev before after) (fun _ _ sight => sight = none)
      syncer none := by
  refine safe_bind.mpr (safe_get.mpr ?_)
  split
  · exact tame_section (.bind readOwned_tame fun _ => .bind writeOwned_tame fun _ => .pure)
  · exact rfl

theorem migrateNote_guarding {old new : Name} :
    Safe (guarding dev) (migrateNote old new index) (fun _ _ sight => sight = none) syncer none := by
  have sections {first second : Name} (apart : first ≠ second) (own : first = dev ∨ second = dev) :
      Safe (guarding dev) (locked first (.migrate old new index)
        (locked second (.migrate old new index) (migrateLocked old new index)))
        (fun _ _ sight => sight = none) syncer none := by
    rcases own with rfl | rfl
    · exact tame_section (locked_tame apart.symm migrateLocked_tame)
    · refine safe_bind.mpr (safe_ask.mpr ⟨fun same => absurd same apart, fun _ _ becomes => ?_⟩)
      obtain rfl := (if_neg apart).mp becomes
      refine safe_bind.mpr ((tame_section migrateLocked_tame).mono ?_)
      rintro value after _ rfl
      refine safe_bind.mpr (safe_ask.mpr ⟨fun same => absurd same apart, fun _ _ becomes => ?_⟩)
      exact becomes.trans (if_neg apart)
  by_cases own : old = dev ∨ new = dev
  · unfold migrateNote
    split
    · exact rfl
    · rename_i apart
      split
      · exact sections apart own
      · exact sections (Ne.symm apart) own.symm
  · rw [not_or] at own
    exact apart_rests (migrateNote_within own.1 own.2 (Set.mem_univ (index, true)))

/-- Removals of what the note names. -/
theorem setEach_guarding {macs : List Mac} (noted : ∀ mac ∈ macs, mac ∈ note) :
    Safe (guarding dev) (setEach index false macs)
      (fun _ after sight => after = syncer ∧ sight = some note) syncer (some note) := by
  induction macs with
  | nil => exact ⟨rfl, rfl⟩
  | cons mac rest ih =>
      refine safe_bind.mpr (safe_ask.mpr ⟨?_, ?_⟩)
      · rintro _ ⟨⟩
        exact noted mac (List.mem_cons_self ..)
      · rintro reply _ rfl
        refine safe_bind.mpr ((ih fun other member => noted other (List.mem_cons_of_mem _ member)).mono ?_)
        exact fun _ _ _ same => same

theorem retire_guarding {work : Section} {macs : List Mac}
    (victims : ∀ mac ∈ macs, mac ∈ work.victims) :
    Safe (guarding dev) (retire work dev index macs) (fun _ _ sight => sight = none) syncer none := by
  refine section_rests fun note noted => ?_
  refine safe_bind.mpr ((setEach_guarding fun mac member => noted (victims mac member)).mono ?_)
  rintro answers _ _ ⟨rfl, rfl⟩
  exact safe_bind.mpr ((tame_held forgetLocked_tame).mono fun _ _ _ held => held)

/-- What is read under the lock is what the note names, or nothing. -/
theorem loadOwned_guarding :
    Safe (guarding dev) (loadOwned dev)
      (fun owned _ sight => sight = some note ∧ owned ⊆ note) syncer (some note) := by
  refine safe_bind.mpr (safe_ask.mpr ⟨trivial, ?_⟩)
  rintro reading _ ⟨rfl, shows⟩
  refine safe_bind.mpr (safe_modify.mpr (safe_pure.mpr ⟨rfl, ?_⟩))
  rcases shows rfl note rfl with ⟨-, shown⟩ | rfl
  · exact shown.subset
  · exact Finset.empty_subset note

theorem unregisterAll_guarding {owned : Finset Mac} (noted : owned ⊆ note) :
    Safe (guarding dev) (unregisterAll index owned) (fun _ _ sight => sight = some note)
      syncer (some note) := by
  refine safe_bind.mpr (safe_ask.mpr ⟨trivial, ?_⟩)
  rintro order _ rfl
  refine safe_bind.mpr ((setEach_guarding fun mac member =>
    noted ((order.mem_iff mac).mp member)).mono ?_)
  exact fun _ _ _ held => held.2

theorem notedLink_guarding :
    Safe (guarding dev) (notedLink name topo) (fun _ _ sight => sight = some note)
      syncer (some note) :=
  (look_safe (notedLink_looks syncer)).mono fun _ _ _ held => held.2

theorem sweepNote_guarding :
    Safe (guarding dev) (sweepNote dev topo) (fun _ _ sight => sight = none) syncer none := by
  refine section_rests fun note _ => ?_
  refine safe_bind.mpr (loadOwned_guarding.mono ?_)
  rintro owned now _ ⟨rfl, noted⟩
  split
  · exact tame_held (.bind noteIsReadable_tame fun _ => .ite
      (.bind removeNote_tame fun _ => .pure) .pure)
  · have taken : Safe (guarding dev) (takeOut dev topo owned) (fun _ _ sight => sight = some note)
        now (some note) := by
      refine safe_bind.mpr (notedLink_guarding.mono ?_)
      rintro found now _ rfl
      split
      · exact safe_bind.mpr ((unregisterAll_guarding noted).mono fun _ _ _ held => held)
      · rfl
    refine safe_bind.mpr (taken.mono ?_)
    rintro kept now _ rfl
    exact tame_held (.bind noteIsReadable_tame fun _ => .ite
      (.bind removeNote_tame fun _ => .pure) (.bind writeOwned_tame fun _ => .pure))

theorem flushNote_guarding :
    Safe (guarding dev) (flushNote dev topo) (fun _ _ sight => sight = none) syncer none := by
  refine section_rests fun note _ => ?_
  refine safe_bind.mpr (loadOwned_guarding.mono ?_)
  rintro owned now _ ⟨rfl, noted⟩
  have flushed : Safe (guarding dev) (flushEntries dev topo owned)
      (fun _ _ sight => sight = some note) now (some note) := by
    refine safe_bind.mpr ((look_safe (flushTarget_looks now)).mono ?_)
    rintro found now _ ⟨-, rfl⟩
    split
    · exact safe_bind.mpr ((unregisterAll_guarding noted).mono fun _ _ _ held => held)
    · rfl
  refine safe_bind.mpr (flushed.mono ?_)
  rintro kept now _ rfl
  exact tame_held (.bind noteIsReadable_tame fun _ => .ite
    (.ite (.bind removeNote_tame fun _ => .pure) (.bind writeOwned_tame fun _ => .pure)) .pure)

theorem flushNote_apart (apart : name ≠ dev) :
    Safe (guarding dev) (flushNote name topo) (fun _ _ sight => sight = none) syncer none := by
  refine safe_bind.mpr (safe_ask.mpr ⟨fun same => absurd same apart, fun _ _ becomes => ?_⟩)
  obtain rfl := (if_neg apart).mp becomes
  have unlocked {clean : Bool} {now : Syncer} :
      Safe (guarding dev) (do let _ ← ask (.unlock name); return clean)
        (fun _ _ sight => sight = none) now none := by
    refine safe_bind.mpr (safe_ask.mpr ⟨fun same => absurd same apart, fun _ _ becomes => ?_⟩)
    exact becomes.trans (if_neg apart)
  refine safe_bind.mpr (safe_bind.mpr ((apart_rests (loadOwned_within apart)).mono ?_))
  rintro owned now _ rfl
  have flushed : Safe (guarding dev) (flushEntries name topo owned)
      (fun _ _ sight => sight = none) now none := by
    refine safe_bind.mpr ((look_safe (flushTarget_looks now)).mono ?_)
    rintro found now _ ⟨-, rfl⟩
    split
    · exact safe_bind.mpr ((apart_rests (unregisterAll_within (Set.mem_univ _))).mono
        fun _ _ _ held => held)
    · rfl
  refine safe_bind.mpr (flushed.mono ?_)
  rintro kept now _ rfl
  refine safe_bind.mpr (safe_bind.mpr (safe_get.mpr (safe_pure.mpr ?_)))
  split
  · split
    · refine safe_bind.mpr ((apart_rests (removeNote_within apart)).mono ?_)
      rintro _ now _ rfl
      exact unlocked
    · refine safe_bind.mpr ((apart_rests (writeOwned_within apart)).mono ?_)
      rintro _ now _ rfl
      exact unlocked
  · exact unlocked

/-- Between its sections a process holds no lock. -/
def guardingDiscipline (dev : Name) (topo : Topology) : Discipline (guarding dev) topo where
  stage _ _ sight := sight = none
  rest_of_held standing := standing
  afresh standing := standing
  rest_of_moving standing := standing
  forgets _ standing := standing
  looks {at' syncer sight request} looks standing := by
    have leaves : request.LeavesNote dev := by
      cases request <;> first | exact trivial | cases looks
    exact ⟨leavesNote_permits leaves fun _ => standing,
      fun _ _ becomes => (leavesNote_becomes leaves becomes).trans standing⟩
  ports {at' name syncer sight α body} standing within := by
    subst standing
    have tame : Within (·.Tame dev) body (fun _ after => after = syncer) syncer :=
      within.mono (fun request files => by cases request <;> first | rfl | cases files)
        fun _ _ holds => holds
    have leaves : Within (·.LeavesNote dev) body (fun _ after => after = syncer) syncer :=
      within.mono (fun request files => by cases request <;> trivial)
        fun _ _ holds => holds
    by_cases own : name = dev
    · subst own
      exact section_safe fun _ _ => tame_safe tame
    · refine safe_bind.mpr (safe_ask.mpr ⟨fun same => absurd same own, fun _ _ becomes => ?_⟩)
      obtain rfl := (if_neg own).mp becomes
      refine safe_bind.mpr ((apart_safe leaves).mono ?_)
      rintro value _ _ ⟨rfl, rfl⟩
      refine safe_bind.mpr (safe_ask.mpr ⟨fun same => absurd same own, fun _ _ becomes => ?_⟩)
      exact ⟨rfl, becomes.trans (if_neg own)⟩
  loads {name index syncer sight} standing := by
    subst standing
    have leaves : Asks (·.LeavesNote dev) (loadOwned name) :=
      .bind (.ask trivial) fun _ => .bind .modify fun _ => .pure
    exact (apart_safe (leaves syncer)).mono fun _ _ _ held => held.2
  stamps {name index owned dropped syncer sight} standing := by
    subst standing
    have leaves : Asks (·.LeavesNote dev) (noteIndex name index) :=
      .bind .get fun _ => .ite (.bind (.ask trivial) fun _ => .ite .modify .pure) .pure
    exact (apart_safe (leaves syncer)).mono fun _ _ _ held => held.2
  registers {name index owned macs syncer sight} _ standing := by
    subst standing
    by_cases own : name = dev
    · exact own ▸ registerBatchLocked_guarding
    · exact apart_rests (registerBatchLocked_within own (Set.mem_univ _))
  retires {name index owned macs syncer sight} _ _ standing := by
    subst standing
    by_cases own : name = dev
    · exact own ▸ retire_guarding fun _ member => List.mem_toFinset.mpr member
    · exact apart_rests (retire_within own (Set.mem_univ _))
  sheds {name index macs pool syncer sight} _ inPool standing := by
    subst standing
    by_cases own : name = dev
    · exact own ▸ retire_guarding inPool
    · exact apart_rests (retire_within own (Set.mem_univ _))
  merges {name index before owned dropped syncer sight} _ standing := by
    subst standing
    by_cases own : name = dev
    · exact own ▸ saveOwnedMerged_guarding
    · exact apart_rests (saveOwnedMerged_within own)
  targets {name syncer sight} standing := by
    subst standing
    exact (look_safe (renamedTarget_looks syncer)).mono fun _ _ _ held => ⟨held.2, fun _ _ _ => held.2⟩
  migrates {old new index syncer sight} standing := by
    subst standing
    exact migrateNote_guarding
  sweeps {name syncer sight} standing := by
    subst standing
    by_cases own : name = dev
    · exact own ▸ sweepNote_guarding
    · exact apart_rests (sweepNote_within own fun _ _ => Set.mem_univ _)

end SriovMacSync
