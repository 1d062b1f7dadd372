import SriovMacSync.Custody.Clearing

namespace SriovMacSync

open Data Netlink Interaction Interaction.Action

/-! Passes, batches and flushes keep the books of an uplink, whatever other devices
they work on. -/

variable {regime : Regime} {dev : Name} {home : Index} {syncer : Syncer} {books : Books}
  {topo : Topology}

section Elsewhere

def Call.locks : Call → Option Name
  | .lock name _ => some name
  | _ => none

/-- The requests that leave an uplink's note and card alone. -/
def Call.Spares (request : Call) (dev : Name) (home : Index) : Prop :=
  ¬ request.Touches dev home ∧ request.RecordsRight dev home ∧ request.locks ≠ some dev

theorem spares_looks {request : Call} (looks : request.looks = true) : request.Spares dev home := by
  cases request <;> simp_all [Call.looks, Call.Spares, Call.Touches, Call.RecordsRight, Call.locks]

theorem spares_filesPorts {request : Call} (files : request.filesPorts = true) :
    request.Spares dev home := by
  cases request <;>
    simp_all [Call.filesPorts, Call.Spares, Call.Touches, Call.RecordsRight, Call.locks]

/-- Everything but an uplink. -/
def elsewhere (home : Index) : Set (Index × Bool) := {filter | filter.1 ≠ home}

theorem spares_elsewhere {request : Call} (scope : InScope {dev}ᶜ (elsewhere home) request) :
    request.Spares dev home := by
  obtain ⟨about, writes, records⟩ := scope
  cases request <;>
    simp_all [Call.about, Call.writes, Call.records, Call.Spares, Call.Touches, Call.RecordsRight,
      Call.locks, elsewhere]

def Books.Sound (books : Books) : Prop := ∀ ledger, books = some ledger → ledger.Sound

theorem Books.Rest.sound (rest : books.Rest regime) : books.Sound := by
  rintro ledger rfl
  exact rest.2.1

theorem spares_same {request : Call} (sound : books.Sound) (spares : request.Spares dev home) :
    (bookkeeping regime dev home).permits books request ∧
      ∀ reply after, (bookkeeping regime dev home).answers books request reply after →
        after = books := by
  obtain ⟨untouched, right, unlocked⟩ := spares
  cases books with
  | none =>
      refine ⟨⟨right, untouched⟩, ?_⟩
      rintro reply after ⟨-, becomes⟩
      cases request <;> simp_all [Books.Becomes, Call.locks]
  | some ledger =>
      refine ⟨⟨right, sound ledger rfl, ?_⟩, ?_⟩
      · cases request <;> simp_all [Call.Touches, Ledger.Allows]
        split <;> simp_all
      · rintro reply after ⟨-, becomes⟩
        cases request <;> simp_all [Books.Becomes, Ledger.Becomes, Call.Touches]

theorem spares_safe {α : Type} {action : Sync α} {post : α → Syncer → Prop}
    (within : Within (·.Spares dev home) action post syncer) (sound : books.Sound) :
    Safe (bookkeeping regime dev home) action
      (fun value after books' => post value after ∧ books' = books) syncer books := by
  refine Within.frame within ?_ (rfl : books = books)
  rintro _ request rfl spares
  exact spares_same sound spares

theorem elsewhere_safe {α : Type} {action : Sync α}
    (within : Within (InScope {dev}ᶜ (elsewhere home)) action
      (fun _ after => NoteMarks {dev}ᶜ syncer after) syncer)
    (rest : books.Rest regime) (recalls : syncer.Recalls dev home) :
    Safe (bookkeeping regime dev home) action
      (fun _ after books' => after.Recalls dev home ∧ books' = books) syncer books := by
  refine (spares_safe (within.mono (fun _ => spares_elsewhere) fun _ _ marks => marks)
    rest.sound).mono ?_
  rintro _ after _ ⟨⟨_, indices, same, rfl⟩, rfl⟩
  have kept : indices dev = syncer.indices dev := same dev (by simp)
  exact ⟨by simpa [Syncer.Recalls, kept] using recalls, rfl⟩

end Elsewhere

section Pieces

theorem ports_rest {name : Name} {α : Type} {body : Sync α} (rest : books.Rest regime)
    (recalls : syncer.Recalls dev home)
    (within : Within (·.filesPorts = true) body (fun _ after => after = syncer) syncer) :
    Safe (bookkeeping regime dev home) (locked name .ports body)
      (fun _ after books' => after = syncer ∧ books' = books) syncer books := by
  have spared : Within (·.Spares dev home) body (fun _ after => after = syncer) syncer :=
    within.mono (fun _ => spares_filesPorts) fun _ _ same => same
  by_cases own : name = dev
  · subst own
    refine (locked_rests (fun _ after ledger' => after = syncer ∧
      (regime ≠ .crowd → books = some ledger')) rest ?_).mono ?_
    · intro ledger settled _ known
      have sound : Books.Sound (some ledger) := by
        rintro _ ⟨⟩
        exact settled.1
      refine Safe.mono (spares_safe spared sound) ?_
      rintro _ _ _ ⟨rfl, rfl⟩
      exact ⟨ledger, rfl, recalls, settled, rfl, known⟩
    · rintro _ _ books' ⟨rest', -, ledger', ⟨rfl, known⟩, only⟩
      refine ⟨rfl, ?_⟩
      cases books' with
      | none =>
          cases books with
          | none => rfl
          | some ledger => exact absurd rest' rest.1
      | some ledger =>
          obtain rfl := only ledger rfl
          exact (known rest'.1).symm
  · have other {work : Call} (spares : work.Spares dev home) :
        Within (·.Spares dev home) (ask work) (fun _ after => after = syncer) syncer :=
      within_ask.mpr ⟨spares, fun _ => rfl⟩
    refine spares_safe ?_ rest.sound
    refine (other ?_).bind ?_
    · simp [Call.Spares, Call.Touches, Call.RecordsRight, Call.locks, own]
    · rintro _ _ rfl
      refine spared.bind ?_
      rintro _ _ rfl
      refine (other ?_).bind fun _ _ same => within_pure.mpr same
      simp [Call.Spares, Call.Touches, Call.RecordsRight, Call.locks, own]

theorem loadOwned_names (rest : books.Rest regime)
    (recalls : syncer.Recalls dev home) :
    Safe (bookkeeping regime dev home) (loadOwned dev)
      (fun owned after books' => after.Recalls dev home ∧ books' = books ∧ books'.Names owned ∅)
      syncer books := by
  cases books with
  | none =>
      refine safe_bind.mpr (safe_ask.mpr ⟨⟨trivial, id⟩, ?_⟩)
      rintro reading _ ⟨-, rfl⟩
      refine safe_bind.mpr (safe_modify.mpr (safe_pure.mpr ⟨?_, rfl, by simp [Books.Names]⟩))
      dsimp only
      split
      · exact recalls
      · exact .inl (by simp [Syncer.setIndex])
  | some ledger =>
      refine Safe.mono (loadOwned_keeps rest.2.1 recalls) ?_
      rintro owned after _ ⟨_, rfl, recalls, rfl, read⟩
      refine ⟨recalls, rfl, ?_⟩
      rintro _ ⟨⟩
      rcases read with ⟨-, rfl⟩ | ⟨-, -, rfl⟩ <;> simp

theorem noteIndex_stays (rest : books.Rest regime) (recalls : syncer.Recalls dev home) :
    Safe (bookkeeping regime dev home) (noteIndex dev home)
      (fun _ after books' => after.Recalls dev home ∧ books' = books) syncer books := by
  refine safe_bind.mpr (safe_get.mpr ?_)
  split
  · have spares : (Call.putIndex dev home).Spares dev home := by
      simp [Call.Spares, Call.Touches, Call.RecordsRight, Call.locks]
    obtain ⟨permitted, same⟩ := spares_same rest.sound spares
    refine safe_bind.mpr (safe_ask.mpr ⟨permitted, fun written after answered => ?_⟩)
    obtain rfl := same written after answered
    split
    · exact safe_modify.mpr ⟨.inr (by simp [Syncer.setIndex]), rfl⟩
    · exact ⟨recalls, rfl⟩
  · exact ⟨recalls, rfl⟩

theorem notedIndex_identifies {name : Name} (rest : books.Rest regime) :
    Safe (bookkeeping regime dev home) (notedIndex name)
      (fun record after books' => after = syncer ∧ books' = books ∧
        (name = dev → record = none ∨ record = some home) ∧ (name ≠ dev → record ≠ some home))
      syncer books := by
  obtain ⟨permitted, same⟩ := spares_same rest.sound
    (spares_looks rfl : Call.Spares (.readIndex name) dev home)
  refine safe_ask.mpr ⟨permitted, fun record after answered => ?_⟩
  exact ⟨rfl, same record after answered, answered.1⟩

/-- A rename never leads to an interface that is in its place. -/
theorem renamedTarget_elsewhere {name : Name} (keeps : topo.Keeps dev home)
    (rest : books.Rest regime) :
    Safe (bookkeeping regime dev home) (renamedTarget name topo)
      (fun found after books' => after = syncer ∧ books' = books ∧
        ∀ index new, found = some (index, new) → name ≠ dev ∧ new ≠ dev ∧ index ≠ home)
      syncer books := by
  refine safe_bind.mpr ((notedIndex_identifies rest).mono ?_)
  rintro record _ _ ⟨rfl, rfl, ownRecord, otherRecord⟩
  split
  · exact ⟨rfl, rfl, by simp⟩
  · rename_i index
    split
    · exact ⟨rfl, rfl, by simp⟩
    · rename_i link located
      have atIndex := Topology.index_of_linkAt located
      have here := keeps.2 link (Topology.mem_of_linkAt located)
      rw [atIndex] at here
      split
      · exact ⟨rfl, rfl, by simp⟩
      · rename_i renamed
        refine ⟨rfl, rfl, ?_⟩
        rintro _ _ ⟨⟩
        have apart : name ≠ dev := by
          rintro rfl
          rcases ownRecord rfl with none | same
          · cases none
          · exact renamed (here.mpr (Option.some.inj same))
        have notHome : index ≠ home := fun same => otherRecord apart (congrArg some same)
        exact ⟨apart, fun same => notHome (here.mp same), notHome⟩

end Pieces

section Discipline

variable (regime dev home)

/-- Where a process stands with the books of one uplink. -/
def bookStage : Stage → Syncer → Books → Prop
  | .rest, syncer, books => books.Rest regime ∧ syncer.Recalls dev home
  | .held name index owned dropped, syncer, books =>
      books.Rest regime ∧ syncer.Recalls dev home ∧ (name = dev ↔ index = home) ∧
        (name = dev → books.Names owned dropped)
  | .moving old new index, syncer, books =>
      books.Rest regime ∧ syncer.Recalls dev home ∧ old ≠ dev ∧ new ≠ dev ∧ index ≠ home

variable {regime dev home}

theorem bookStage_basic {stage : Stage} (standing : bookStage regime dev home stage syncer books) :
    books.Rest regime ∧ syncer.Recalls dev home := by
  cases stage with
  | rest => exact standing
  | held => exact ⟨standing.1, standing.2.1⟩
  | moving => exact ⟨standing.1, standing.2.1⟩

theorem bookStage_congr {stage : Stage} {after : Syncer}
    (standing : bookStage regime dev home stage syncer books) (recalls : after.Recalls dev home) :
    bookStage regime dev home stage after books := by
  cases stage with
  | rest => exact ⟨standing.1, recalls⟩
  | held => exact ⟨standing.1, recalls, standing.2.2⟩
  | moving => exact ⟨standing.1, recalls, standing.2.2⟩

/-- Working on another uplink. -/
theorem bookStage_elsewhere {name : Name} {index : Index} {owned dropped : Finset Mac}
    (rest : books.Rest regime) (recalls : syncer.Recalls dev home)
    (place : name = dev ↔ index = home) (apart : name ≠ dev) :
    bookStage regime dev home (.held name index owned dropped) syncer books :=
  ⟨rest, recalls, place, fun same => absurd same apart⟩

theorem mem_elsewhere {index : Index} (add : Bool) (apart : index ≠ home) :
    (index, add) ∈ elsewhere home := apart

/-- The discipline of one uplink's books. -/
def bookDiscipline (keeps : topo.Keeps dev home) : Discipline (bookkeeping regime dev home) topo where
  stage := bookStage regime dev home
  rest_of_held standing := bookStage_basic standing
  afresh standing := ⟨standing.1, standing.2.1, standing.2.2.1, fun _ => .nothing⟩
  rest_of_moving standing := bookStage_basic standing
  forgets forgotten standing := by
    refine bookStage_congr standing ?_
    rcases forgotten dev with same | none
    · simpa only [Syncer.Recalls, same] using (bookStage_basic standing).2
    · exact .inl none
  looks looks standing := by
    obtain ⟨permitted, same⟩ := spares_same (bookStage_basic standing).1.sound
      (spares_looks looks : Call.Spares _ dev home)
    exact ⟨permitted, fun reply after answered => same reply after answered ▸ standing⟩
  ports standing within := by
    obtain ⟨rest, recalls⟩ := bookStage_basic standing
    refine (ports_rest rest recalls within).mono ?_
    rintro _ _ _ ⟨rfl, rfl⟩
    exact ⟨rfl, standing⟩
  loads {name index syncer books} standing := by
    obtain ⟨rest, recalls, place, -⟩ := standing
    by_cases own : name = dev
    · subst own
      refine (loadOwned_names rest recalls).mono ?_
      rintro owned after _ ⟨recalls, rfl, names⟩
      exact ⟨rest, recalls, place, fun _ => names⟩
    · refine (elsewhere_safe (loadOwned_within own) rest recalls).mono ?_
      rintro owned after _ ⟨recalls, rfl⟩
      exact bookStage_elsewhere rest recalls place own
  stamps {name index owned dropped syncer books} standing := by
    obtain ⟨rest, recalls, place, -⟩ := id standing
    by_cases own : name = dev
    · obtain rfl := place.mp own
      subst own
      refine (noteIndex_stays rest recalls).mono ?_
      rintro _ after _ ⟨recalls, rfl⟩
      exact bookStage_congr standing recalls
    · refine (elsewhere_safe (noteIndex_within own
        (mem_elsewhere true fun same => own (place.mpr same))) rest recalls).mono ?_
      rintro _ after _ ⟨recalls, rfl⟩
      exact bookStage_congr standing recalls
  registers {name index owned macs syncer books} distinct standing := by
    obtain ⟨rest, recalls, place, names⟩ := standing
    by_cases own : name = dev
    · obtain rfl := place.mp own
      subst own
      refine (registerBatchLocked_rests distinct rest recalls (names rfl)).mono ?_
      rintro result after books' ⟨rest, recalls, names⟩
      exact ⟨rest, recalls, place, fun _ => names⟩
    · refine (elsewhere_safe (registerBatchLocked_within own
        (mem_elsewhere _ fun same => own (place.mpr same))) rest recalls).mono ?_
      rintro result after _ ⟨recalls, rfl⟩
      exact bookStage_elsewhere rest recalls place own
  retires {name index owned macs syncer books} distinct ours standing := by
    obtain ⟨rest, recalls, place, names⟩ := standing
    by_cases own : name = dev
    · obtain rfl := place.mp own
      subst own
      refine (retire_rests distinct rest recalls (names rfl) ?_).mono ?_
      · intro ledger same _ mac member
        exact (names rfl ledger same).1 (by simpa using ours mac member)
      · rintro retired after books' ⟨rest, recalls, names⟩
        exact ⟨rest, recalls, place, fun _ => names⟩
    · refine (elsewhere_safe (retire_within own
        (mem_elsewhere _ fun same => own (place.mpr same))) rest recalls).mono ?_
      rintro retired after _ ⟨recalls, rfl⟩
      exact bookStage_elsewhere rest recalls place own
  sheds {name index macs pool syncer books} distinct inPool standing := by
    obtain ⟨rest, recalls, place, names⟩ := standing
    by_cases own : name = dev
    · obtain rfl := place.mp own
      subst own
      refine (retire_rests distinct rest recalls (names rfl) ?_).mono ?_
      · intro ledger same admitted mac member
        exact admitted (rest.alone same) (inPool mac member)
      · rintro retired after books' ⟨rest, recalls, names⟩
        exact ⟨rest, recalls, place, fun _ => .nothing⟩
    · refine (elsewhere_safe (retire_within own
        (mem_elsewhere _ fun same => own (place.mpr same))) rest recalls).mono ?_
      rintro retired after _ ⟨recalls, rfl⟩
      exact bookStage_elsewhere rest recalls place own
  merges {name index before owned dropped syncer books} grown standing := by
    obtain ⟨rest, recalls, place, names⟩ := standing
    by_cases own : name = dev
    · subst own
      refine (saveOwnedMerged_rests grown rest recalls (names rfl)).mono ?_
      rintro _ after books' ⟨rest, recalls⟩
      exact ⟨rest, recalls, place, fun _ => .nothing⟩
    · refine (elsewhere_safe (saveOwnedMerged_within own) rest recalls).mono ?_
      rintro _ after _ ⟨recalls, rfl⟩
      exact bookStage_elsewhere rest recalls place own
  targets {name syncer books} standing := by
    obtain ⟨rest, recalls⟩ := standing
    refine (renamedTarget_elsewhere keeps rest).mono ?_
    rintro found _ _ ⟨rfl, rfl, apart⟩
    exact ⟨⟨rest, recalls⟩, fun index new same => ⟨rest, recalls, apart index new same⟩⟩
  migrates {old new index syncer books} standing := by
    obtain ⟨rest, recalls, oldApart, newApart, indexApart⟩ := standing
    refine (elsewhere_safe (migrateNote_within oldApart newApart
      (mem_elsewhere true indexApart)) rest recalls).mono ?_
    rintro _ after _ ⟨recalls, rfl⟩
    exact ⟨rest, recalls⟩
  sweeps {name syncer books} standing := by
    obtain ⟨rest, recalls⟩ := standing
    by_cases own : name = dev
    · subst own
      exact sweepNote_rests keeps rest recalls
    · refine (elsewhere_safe (sweepNote_within own fun link located => ?_) rest recalls).mono ?_
      · exact fun same => own ((keeps.get_iff (Topology.get_spec located).1).mpr same)
      · rintro _ after _ ⟨recalls, rfl⟩
        exact ⟨rest, recalls⟩

end Discipline

end SriovMacSync
