import SriovMacSync.Memory.Shelf

namespace SriovMacSync

open Data Netlink Interaction Interaction.Action

/-! What working on a note leaves of it, and what is done to a filter under its lock. -/

variable {legible sure : Name → Prop} {shelf : Shelf} {syncer : Syncer} {dev : Name} {index : Index}

section Notes

/-- What a reading says, and what it leaves. -/
def ReadAs (legible sure : Name → Prop) (shelf : Shelf) (dev : Name) (owned : Finset Mac) (after : Syncer) : Prop :=
  dev ∈ after.unreadable ∧ owned = ∅ ∧ ¬ sure dev ∧ ¬ legible dev ∨
    dev ∉ after.unreadable ∧ owned = (shelf.drawer dev).note

theorem readNote_shelf {post : NoteReading → Syncer → Shelf → Prop}
    (next : ∀ reading : NoteReading, (reading.isReadable = true → reading.owned = (shelf.drawer dev).note) →
      (reading.isReadable = false → reading.owned = ∅ ∧ ¬ sure dev ∧ ¬ legible dev) → post reading syncer shelf) :
    Safe (shelving legible sure) (ask (.readNote dev)) post syncer shelf := by
  refine safe_ask.mpr ⟨trivial, fun reading after answered => ?_⟩
  cases reading with
  | absent =>
      obtain ⟨rfl, empty⟩ := answered
      exact next .absent (fun _ => empty.symm) nofun
  | lines macs steady =>
      obtain ⟨rfl, names⟩ := answered
      exact next (.lines macs steady) (fun _ => names.symm) nofun
  | unreadable =>
      obtain ⟨rfl, unsure⟩ := answered
      exact next .unreadable nofun fun _ => ⟨rfl, unsure⟩

theorem sawNote_reads {reading : NoteReading} {after : Syncer}
    (readable : reading.isReadable = true → reading.owned = (shelf.drawer dev).note)
    (failed : reading.isReadable = false → reading.owned = ∅ ∧ ¬ sure dev ∧ ¬ legible dev)
    (marks : after.unreadable = (syncer.sawNote dev reading.isReadable).unreadable) :
    ReadAs legible sure shelf dev reading.owned after := by
  cases known : reading.isReadable with
  | true => exact .inr ⟨by simp [marks, Syncer.sawNote, known], readable known⟩
  | false => exact .inl ⟨by simp [marks, Syncer.sawNote, known], failed known⟩

theorem readOwned_shelf :
    Safe (shelving legible sure) (readOwned dev) (fun owned after shelf' =>
      shelf' = shelf ∧ NoteMarks Set.univ syncer after ∧ ReadAs legible sure shelf dev owned after)
      syncer shelf := by
  refine safe_bind.mpr (readNote_shelf fun reading readable failed => ?_)
  exact safe_bind.mpr (safe_modify.mpr ⟨rfl, .sawNote, sawNote_reads readable failed rfl⟩)

theorem loadOwned_shelf :
    Safe (shelving legible sure) (loadOwned dev) (fun owned after shelf' =>
      shelf' = shelf ∧ NoteMarks Set.univ syncer after ∧ ReadAs legible sure shelf dev owned after)
      syncer shelf := by
  refine safe_bind.mpr (readNote_shelf fun reading readable failed => ?_)
  refine safe_bind.mpr (safe_modify.mpr ?_)
  dsimp only
  split
  · exact ⟨rfl, .sawNote, sawNote_reads readable failed rfl⟩
  · exact ⟨rfl, NoteMarks.sawNote.trans (.setIndex (Set.mem_univ dev)),
      sawNote_reads readable failed rfl⟩

theorem writeOwned_shelf {set : Finset Mac} :
    Safe (shelving legible sure) (writeOwned dev set) (fun _ after shelf' =>
      NoteMarks Set.univ syncer after ∧ ∃ note, shelf' = shelf.setNote dev note ∧
        (dev ∉ syncer.unreadable ∧ note = set ∨
          note = (shelf.drawer dev).note ∧ (sure dev → dev ∈ syncer.unreadable))) syncer shelf := by
  refine safe_bind.mpr (safe_bind.mpr (safe_get.mpr (safe_pure.mpr ?_)))
  split
  · rename_i readable
    have readable' : dev ∉ syncer.unreadable := of_decide_eq_true readable
    refine safe_bind.mpr (loadOwned_shelf.mono ?_)
    rintro current after _ ⟨rfl, marks, reads⟩
    split
    · rename_i same
      refine ⟨marks, _, Shelf.setNote_self.symm, ?_⟩
      rcases reads with ⟨-, -, unsure, -⟩ | ⟨-, names⟩
      · exact .inr ⟨rfl, fun certain => absurd certain unsure⟩
      · exact .inl ⟨readable', names.symm.trans same⟩
    · refine safe_ask.mpr ⟨trivial, fun done shelf' answered => ⟨marks, ?_⟩⟩
      rcases answered with ⟨-, rfl⟩ | ⟨-, unsure, rfl⟩
      · exact ⟨_, rfl, .inl ⟨readable', ascending_toFinset set⟩⟩
      · exact ⟨_, Shelf.setNote_self.symm, .inr ⟨rfl, fun certain => absurd certain unsure⟩⟩
  · rename_i unreadable
    exact ⟨.refl _, _, Shelf.setNote_self.symm, .inr ⟨rfl, fun _ => by simpa using unreadable⟩⟩

theorem forgetLocked_shelf {dropped : List Mac} :
    Safe (shelving legible sure) (forgetLocked dev dropped) (fun _ after shelf' =>
      NoteMarks Set.univ syncer after ∧ ∃ note, shelf' = shelf.setNote dev note ∧
        (note = (shelf.drawer dev).note \ dropped.toFinset ∨
          ¬ sure dev ∧ note = (shelf.drawer dev).note)) syncer shelf := by
  unfold forgetLocked
  split
  · refine safe_bind.mpr (readOwned_shelf.mono ?_)
    rintro owned middle _ ⟨rfl, marks, reads⟩
    refine safe_bind.mpr (writeOwned_shelf.mono ?_)
    rintro done after shelf' ⟨marks', note, rfl, settles⟩
    refine ⟨marks.trans marks', note, rfl, ?_⟩
    rcases reads with ⟨marked, -, unsure, -⟩ | ⟨legible, rfl⟩
    · exact .inr ⟨unsure, (settles.resolve_left fun written => written.1 marked).1⟩
    · rcases settles with ⟨-, rfl⟩ | ⟨same, certain⟩
      · exact .inl rfl
      · exact .inr ⟨fun known => legible (certain known), same⟩
  · rename_i none
    obtain rfl : dropped = [] := by simpa using none
    exact ⟨.refl _, _, Shelf.setNote_self.symm, .inl (by simp)⟩

theorem appendOwnedLocked_shelf {added : List Mac} :
    Safe (shelving legible sure) (appendOwnedLocked dev added) (fun fresh after shelf' =>
      NoteMarks Set.univ syncer after ∧ ∃ note, shelf' = shelf.setNote dev note ∧
        (shelf.drawer dev).note ⊆ note ∧ note ⊆ (shelf.drawer dev).note ∪ added.toFinset ∧
        (∀ macs, fresh = some macs → (∀ mac ∈ macs, mac ∈ added) ∧
          note = (shelf.drawer dev).note ∪ added.toFinset) ∧
        (sure dev → fresh.isSome)) syncer shelf := by
  refine safe_bind.mpr (loadOwned_shelf.mono ?_)
  rintro set after shelf ⟨rfl, marks, reads⟩
  refine safe_bind.mpr (safe_bind.mpr (safe_get.mpr (safe_pure.mpr ?_)))
  rcases reads with ⟨marked, -, unsure, -⟩ | ⟨legible, rfl⟩
  · rw [if_neg (by simpa using marked)]
    exact ⟨marks, _, Shelf.setNote_self.symm, Finset.Subset.refl _, Finset.subset_union_left, nofun,
      fun certain => absurd certain unsure⟩
  · rw [if_pos (by simpa using legible)]
    have whole : (shelf.drawer dev).note ∪ (added.filter (· ∉ (shelf.drawer dev).note)).toFinset =
        (shelf.drawer dev).note ∪ added.toFinset := by
      ext mac
      simp only [Finset.mem_union, List.mem_toFinset, List.mem_filter, decide_eq_true_eq]
      tauto
    have listed : ∀ mac ∈ added.filter (· ∉ (shelf.drawer dev).note), mac ∈ added :=
      fun mac member => List.mem_of_mem_filter member
    dsimp only
    split
    · rename_i none
      have all := whole
      rw [none, List.toFinset_nil, Finset.union_empty] at all
      refine ⟨marks, _, Shelf.setNote_self.symm, Finset.Subset.refl _, Finset.subset_union_left, ?_,
        fun _ => rfl⟩
      intro macs same
      obtain rfl := Option.some.inj same
      exact ⟨listed, all⟩
    · refine safe_bind.mpr (safe_ask.mpr ⟨trivial, fun written shelf' answered => ?_⟩)
      rcases answered with ⟨rfl, rfl⟩ | ⟨rfl, unsure, part, inside, rfl⟩
      · refine ⟨marks, _, rfl, Finset.subset_union_left, whole.subset, ?_, fun _ => rfl⟩
        intro macs same
        obtain rfl := Option.some.inj same
        exact ⟨listed, whole⟩
      · refine ⟨marks, _, rfl, Finset.subset_union_left, ?_, nofun, fun certain => absurd certain unsure⟩
        exact (Finset.union_subset_union_right inside).trans whole.subset

theorem unnoteLocked_shelf {macs : List Mac} :
    Safe (shelving legible sure) (unnoteLocked dev macs) (fun _ after shelf' =>
      NoteMarks Set.univ syncer after ∧ ∃ note, shelf' = shelf.setNote dev note ∧
        (shelf.drawer dev).note \ macs.toFinset ⊆ note ∧ note ⊆ (shelf.drawer dev).note)
      syncer shelf := by
  refine safe_bind.mpr (safe_bind.mpr (safe_get.mpr (safe_pure.mpr ?_)))
  have idle {after : Syncer} (marks : NoteMarks Set.univ syncer after) :
      NoteMarks Set.univ syncer after ∧ ∃ note, shelf = shelf.setNote dev note ∧
        (shelf.drawer dev).note \ macs.toFinset ⊆ note ∧ note ⊆ (shelf.drawer dev).note :=
    ⟨marks, _, Shelf.setNote_self.symm, Finset.sdiff_subset, Finset.Subset.refl _⟩
  split
  · refine safe_bind.mpr (loadOwned_shelf.mono ?_)
    rintro before after _ ⟨rfl, marks, reads⟩
    dsimp only
    split
    · exact idle marks
    · refine writeOwned_shelf.mono ?_
      rintro done last shelf' ⟨marks', note, rfl, settles⟩
      refine ⟨marks.trans marks', note, rfl, ?_⟩
      rcases settles with ⟨legible, rfl⟩ | ⟨rfl, -⟩
      · obtain ⟨-, rfl⟩ := reads.resolve_left fun failed => legible failed.1
        exact ⟨Finset.Subset.refl _, Finset.sdiff_subset⟩
      · exact ⟨Finset.sdiff_subset, Finset.Subset.refl _⟩
  · exact idle (.refl _)

theorem noteIndex_shelf :
    Safe (shelving legible sure) (noteIndex dev index) (fun _ after shelf' =>
      NoteMarks Set.univ syncer after ∧ ∃ record, shelf' = shelf.setRecord dev record) syncer shelf := by
  have same : shelf = shelf.setRecord dev (shelf.drawer dev).record := by
    simp [Shelf.setRecord, Shelf.setDrawer]
  refine safe_bind.mpr (safe_get.mpr ?_)
  split
  · refine safe_bind.mpr (safe_ask.mpr ⟨trivial, fun written shelf' answered => ?_⟩)
    rcases answered with ⟨rfl, rfl⟩ | ⟨rfl, -, rfl⟩
    · exact ⟨.setIndex (Set.mem_univ dev), _, rfl⟩
    · exact ⟨.refl _, _, same⟩
  · exact ⟨.refl _, _, same⟩

end Notes

section Writes

/-- What one lock window does to the filters, and what is remembered of it. -/
structure Writing (dev : Name) (work : Section) (index : Index) (add : Bool)
    (answers : List (Mac × Except Errno Unit)) (shelf after : Shelf) : Prop where
  drawer : after.drawer dev = { shelf.drawer dev with
    deeds := (answers.map fun answer => ⟨work, index, answer.1, add, answer.2⟩).reverse ++
      (shelf.drawer dev).deeds }
  others : ∀ other ≠ dev, after.drawer other = shelf.drawer other
  places : ∀ place ≠ index, after.lists place = shelf.lists place
  held : after.held = shelf.held
  fdb : after.fdb = shelf.fdb
  unasked : ∀ mac ∉ answers.map (·.1), (mac ∈ after.lists index ↔ mac ∈ shelf.lists index)
  gone : add = false → after.lists index ⊆ shelf.lists index ∧
    ∀ mac ∈ absentOrOk answers, mac ∉ after.lists index

theorem setEach_shelf {work : Section} {add : Bool} {macs : List Mac}
    (holding : shelf.held = some (dev, work)) :
    Safe (shelving legible sure) (setEach index add macs) (fun answers after shelf' =>
      after = syncer ∧ answers.map (·.1) = macs ∧ Writing dev work index add answers shelf shelf')
      syncer shelf := by
  induction macs generalizing shelf with
  | nil =>
      refine ⟨rfl, rfl, ?_⟩
      exact ⟨rfl, fun _ _ => rfl, fun _ _ => rfl, rfl, rfl, fun _ _ => Iff.rfl,
        fun _ => ⟨Finset.Subset.refl _, by simp [absentOrOk]⟩⟩
  | cons mac rest ih =>
      refine safe_bind.mpr (safe_ask.mpr ⟨trivial, ?_⟩)
      rintro reply _ ⟨list, leaves, rfl⟩
      have held' : (shelf.does index mac add reply list).held = some (dev, work) := by
        simp [Shelf.does, holding, Shelf.setDrawer]
      refine safe_bind.mpr ((ih held').mono ?_)
      rintro answers _ shelf' ⟨rfl, asked, later⟩
      refine ⟨rfl, by rw [List.map_cons, asked], ?_⟩
      have first : (shelf.does index mac add reply list).drawer dev = { shelf.drawer dev with
          deeds := ⟨work, index, mac, add, reply⟩ :: (shelf.drawer dev).deeds } := by
        simp [Shelf.does, holding, Shelf.setDrawer]
      have lists : (shelf.does index mac add reply list).lists =
          Function.update shelf.lists index list := by
        simp [Shelf.does, holding, Shelf.setDrawer]
      refine ⟨?_, fun other apart => ?_, fun place apart => ?_, ?_, ?_, fun other unasked => ?_, ?_⟩
      · rw [later.drawer, first]
        simp
      · rw [later.others other apart]
        simp [Shelf.does, holding, Shelf.setDrawer, apart]
      · rw [later.places place apart, lists, Function.update_of_ne apart]
      · rw [later.held, held', holding]
      · rw [later.fdb, Shelf.does, holding]
        rfl
      · simp only [List.map_cons, List.mem_cons, not_or] at unasked
        rw [later.unasked other unasked.2, lists, Function.update_self]
        cases add <;> cases reply <;> simp only [Shelf.Leaves] at leaves
        · split at leaves
          · rw [leaves.2]
          · rcases leaves with rfl | rfl <;> simp [unasked.1]
        · rw [leaves]
          simp [unasked.1]
        · rw [leaves]
        · rw [leaves]
          simp [unasked.1]
      · rintro rfl
        obtain ⟨shrinks, absent⟩ := later.gone rfl
        rw [lists, Function.update_self] at shrinks
        have fewer : list ⊆ shelf.lists index ∧ ((mac, reply) = (mac, .ok ()) ∨
            (mac, reply) = (mac, .error .noEntry) → mac ∉ list) := by
          cases reply with
          | ok done =>
              obtain rfl : list = _ := leaves
              exact ⟨Finset.erase_subset .., fun _ => Finset.notMem_erase mac _⟩
          | error errno =>
              replace leaves : if _ then _ else _ := leaves
              split at leaves
              · exact ⟨leaves.2.subset, fun _ => leaves.2 ▸ leaves.1⟩
              · rename_i other
                refine ⟨?_, fun told => ?_⟩
                · rcases leaves with rfl | rfl
                  · exact Finset.Subset.refl _
                  · exact Finset.erase_subset ..
                · simp [other] at told
        refine ⟨shrinks.trans fewer.1, fun other settled => ?_⟩
        rcases mem_absentOrOk.mp settled with answered | answered
        · rcases List.mem_cons.mp answered with same | answered
          · obtain ⟨rfl, same'⟩ := Prod.mk.inj same
            exact fun still => fewer.2 (.inl (by rw [same'])) (shrinks still)
          · exact absent other (mem_absentOrOk.mpr (.inl answered))
        · rcases List.mem_cons.mp answered with same | answered
          · obtain ⟨rfl, same'⟩ := Prod.mk.inj same
            exact fun still => fewer.2 (.inr (by rw [same'])) (shrinks still)
          · exact absent other (mem_absentOrOk.mpr (.inr answered))

end Writes

end SriovMacSync
