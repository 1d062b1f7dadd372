import SriovMacSync.Flushing.Plant

namespace SriovMacSync

open Data Netlink Interaction Interaction.Action

/-! Each step of a flush, and what it may make of the plant. -/

variable {home : Name → Index} {topo : Topology} {plant : Plant home} {dev : Name}
  {index : Index} {mac : Mac} {syncer : Syncer} {owned : Finset Mac}

namespace Plant

/-- The interface a note is about can be told: it still bears the note's name, or the
record says which it is and it bears another name now. -/
def Locates (plant : Plant home) (topo : Topology) (dev : Name) (index : Index) : Prop :=
  topo.indexOf dev = some index ∨
    plant.records dev = some index ∧ topo.nameOf index ≠ some dev

/-- A note that names an entry and is either left alone or leads to the entry. -/
def Guards (plant : Plant home) (topo : Topology) (dev : Name) (index : Index) (mac : Mac) : Prop :=
  ∃ note, plant.notes.lookup dev = some note ∧ mac ∈ note.macs ∧
    (note.legible = true → plant.Locates topo dev index)

theorem Guards.congr {after : Plant home} (guards : plant.Guards topo dev index mac)
    (note : after.notes.lookup dev = plant.notes.lookup dev)
    (record : after.records dev = plant.records dev) : after.Guards topo dev index mac := by
  obtain ⟨found, noted, names, locates⟩ := guards
  refine ⟨found, note.trans noted, names, fun legible => ?_⟩
  rw [Locates, record]
  exact locates legible

theorem Guards.names (guards : plant.Guards topo dev index mac) : mac ∈ plant.names dev := by
  obtain ⟨note, noted, names, -⟩ := guards
  simpa [Plant.names, noted] using names

/-- Entries were taken out of filters and nothing else happened. -/
structure Drained (plant after : Plant home) : Prop where
  notes : after.notes = plant.notes
  records : after.records = plant.records
  fewer : after.card ≤ plant.card

theorem Drained.refl : Drained plant plant := ⟨rfl, rfl, le_rfl⟩

theorem Drained.trans {middle after : Plant home} (first : Drained plant middle)
    (second : Drained middle after) : Drained plant after :=
  ⟨second.notes.trans first.notes, second.records.trans first.records,
    second.fewer.trans first.fewer⟩

theorem Drained.works {after : Plant home} (drained : Drained plant after) : Works dev plant after :=
  ⟨drained.fewer, fun other _ => ⟨by rw [drained.notes], by rw [drained.records]⟩⟩

end Plant

open Plant

theorem loadOwned_plant (flushes : syncer.Flushes) :
    Safe (emptying home topo) (loadOwned dev) (fun owned after plant' =>
      after.Flushes ∧ plant' = plant ∧
        (dev ∈ after.unreadable ∧ owned = ∅ ∨
          dev ∉ after.unreadable ∧ owned = plant.names dev ∧
            ∀ note, plant.notes.lookup dev = some note → note.legible = true)) syncer plant := by
  refine safe_bind.mpr (safe_ask.mpr ⟨not_false, ?_⟩)
  rintro reading _ ⟨rfl, shows⟩
  refine safe_bind.mpr (safe_modify.mpr (safe_pure.mpr ?_))
  refine ⟨?_, rfl, ?_⟩
  · dsimp only
    split
    · exact flushes.sawNote
    · exact flushes.sawNote.setIndex
  · have unreadable {other : Syncer} (same : other.unreadable = (syncer.sawNote dev reading.isReadable).unreadable) :
        dev ∈ other.unreadable ↔ reading.isReadable = false := by
      rw [same]
      cases readable : reading.isReadable <;> simp [Syncer.sawNote]
    rw [unreadable (by split <;> rfl)]
    cases reading with
    | absent =>
        change _ = none at shows
        exact .inr ⟨by simp [NoteReading.isReadable], by simp [NoteReading.owned, names, shows],
          by simp [shows]⟩
    | lines macs steady =>
        change _ = some _ at shows
        exact .inr ⟨by simp [NoteReading.isReadable], by simp [NoteReading.owned, names, shows],
          by simp [shows]⟩
    | unreadable => exact .inl ⟨rfl, rfl⟩

theorem locked_plant {α : Type} {work : Section} {body : Sync α}
    {post : α → Syncer → Plant home → Prop}
    (safe : Safe (emptying home topo) body post syncer plant) :
    Safe (emptying home topo) (locked dev work body) post syncer plant := by
  refine safe_bind.mpr (safe_ask.mpr ⟨not_false, ?_⟩)
  rintro _ _ rfl
  refine safe_bind.mpr (safe.mono fun value after plant' holds => ?_)
  refine safe_bind.mpr (safe_ask.mpr ⟨not_false, ?_⟩)
  rintro _ _ rfl
  exact holds

theorem noteIsReadable_plant {env : Environment Call Reply (Plant home)}
    {post : Bool → Syncer → Plant home → Prop}
    (holds : post (decide (dev ∉ syncer.unreadable)) syncer plant) :
    Safe env (noteIsReadable dev) post syncer plant :=
  safe_bind.mpr (safe_get.mpr (safe_pure.mpr holds))

theorem removeNote_plant (flushes : syncer.Flushes) :
    Safe (emptying home topo) (removeNote dev) (fun _ after plant' =>
      after.Flushes ∧ Works dev plant plant' ∧ plant'.card = plant.card ∧
        plant'.names dev ⊆ plant.names dev) syncer plant := by
  refine safe_bind.mpr (safe_ask.mpr ⟨not_false, fun _ first unlinked => ?_⟩)
  have gone : Works dev plant first ∧ first.card = plant.card ∧
      first.names dev ⊆ plant.names dev := by
    rcases unlinked with rfl | rfl
    · exact ⟨.refl, rfl, subset_rfl⟩
    · exact ⟨.unlink, rfl, by simp [names]⟩
  refine safe_bind.mpr (safe_ask.mpr ⟨not_false, fun _ second unrecorded => ?_⟩)
  have left : Works dev first second ∧ second.card = first.card ∧ second.notes = first.notes := by
    rcases unrecorded with rfl | rfl
    · exact ⟨.refl, rfl, rfl⟩
    · exact ⟨.unrecord, rfl, rfl⟩
  refine safe_bind.mpr (safe_ask.mpr ⟨not_false, ?_⟩)
  rintro _ _ rfl
  refine ⟨flushes.setIndex, gone.1.trans left.1, left.2.1.trans gone.2.1, ?_⟩
  rw [names, left.2.2]
  exact gone.2.2

theorem writeOwned_plant {set : Finset Mac} (flushes : syncer.Flushes) :
    Safe (emptying home topo) (writeOwned dev set) (fun _ after plant' =>
      after.Flushes ∧ (plant' = plant ∨ plant' = plant.setNote dev ⟨set, true⟩)) syncer plant := by
  refine safe_bind.mpr (safe_bind.mpr (safe_get.mpr (safe_pure.mpr ?_)))
  split
  · refine safe_bind.mpr ((loadOwned_plant flushes).mono ?_)
    rintro current after _ ⟨flushes, rfl, -⟩
    split
    · exact ⟨flushes, .inl rfl⟩
    · refine safe_ask.mpr ⟨not_false, ?_⟩
      rintro done plant' (⟨-, rfl⟩ | ⟨-, rfl⟩)
      · exact ⟨flushes, .inr (by rw [ascending_toFinset])⟩
      · exact ⟨flushes, .inl rfl⟩
  · exact ⟨flushes, .inl rfl⟩

/-- Removals one after another: what is still there was refused. -/
theorem setEach_plant {macs : List Mac} :
    Safe (emptying home topo) (setEach index false macs) (fun answers after plant' =>
      after = syncer ∧ Drained plant plant' ∧
        (∀ mac ∈ macs, mac ∈ plant'.card index → mac ∈ (refusedBut .noEntry answers).map (·.1)) ∧
        ∀ mac ∈ (refusedBut .noEntry answers).map (·.1), mac ∈ macs) syncer plant := by
  induction macs generalizing plant with
  | nil => exact ⟨rfl, .refl, by simp, by simp [refusedBut]⟩
  | cons mac rest ih =>
      refine safe_bind.mpr (safe_ask.mpr ⟨not_false, fun reply middle removes => ?_⟩)
      have drained : Drained plant middle ∧
          (mac ∈ middle.card index → ∃ errno, errno ≠ .noEntry ∧ reply = .error errno) := by
        cases reply with
        | ok done =>
            obtain rfl : middle = plant.release index mac := removes
            exact ⟨⟨rfl, rfl, card_release_le⟩, fun held => absurd held notMem_release⟩
        | error errno =>
            change if errno = .noEntry then _ else _ at removes
            split at removes
            · obtain ⟨rfl, absent⟩ := removes
              exact ⟨.refl, fun held => absurd held absent⟩
            · rename_i refused
              refine ⟨?_, fun _ => ⟨errno, refused, rfl⟩⟩
              rcases removes with rfl | rfl
              · exact .refl
              · exact ⟨rfl, rfl, card_release_le⟩
      refine safe_bind.mpr (ih.mono ?_)
      rintro answers _ plant' ⟨rfl, later, refused, among⟩
      refine ⟨rfl, drained.1.trans later, ?_, ?_⟩
      · intro other member held
        rw [mem_refusedBut]
        rcases List.mem_cons.mp member with rfl | member
        · obtain ⟨errno, apart, answered⟩ := drained.2 (later.fewer index held)
          exact ⟨errno, apart, by rw [answered]; exact List.mem_cons_self ..⟩
        · obtain ⟨errno, apart, answered⟩ := mem_refusedBut.mp (refused other member held)
          exact ⟨errno, apart, List.mem_cons_of_mem _ answered⟩
      · intro other member
        obtain ⟨errno, apart, answered⟩ := mem_refusedBut.mp member
        rcases List.mem_cons.mp answered with same | answered
        · cases same
          exact List.mem_cons_self ..
        · exact List.mem_cons_of_mem _ (among other (mem_refusedBut.mpr ⟨errno, apart, answered⟩))

theorem unregisterAll_plant :
    Safe (emptying home topo) (unregisterAll index owned) (fun result after plant' =>
      after = syncer ∧ Drained plant plant' ∧ result.2 ⊆ owned ∧
        ∀ mac ∈ owned, mac ∈ plant'.card index → mac ∈ result.2) syncer plant := by
  refine safe_bind.mpr (safe_ask.mpr ⟨not_false, ?_⟩)
  rintro order _ rfl
  refine safe_bind.mpr (setEach_plant.mono ?_)
  rintro answers _ plant' ⟨rfl, drained, refused, among⟩
  refine ⟨rfl, drained, fun mac member => ?_, fun mac member held => ?_⟩
  · exact (order.mem_iff mac).mp (among mac (List.mem_toFinset.mp member))
  · exact List.mem_toFinset.mpr (refused mac ((order.mem_iff mac).mpr member) held)

theorem recordedIndex_plant (flushes : syncer.Flushes) :
    Safe (emptying home topo) (recordedIndex dev) (fun recorded after plant' =>
      after = syncer ∧ plant' = plant ∧ recorded = plant.records dev) syncer plant := by
  refine safe_bind.mpr (safe_get.mpr ?_)
  rw [flushes.unstamped]
  exact safe_ask.mpr ⟨not_false, fun _ _ answered => ⟨rfl, answered⟩⟩

/-- The interface that still bears a note's name, unless the record disowns it. -/
theorem notedLink_plant (flushes : syncer.Flushes) :
    Safe (emptying home topo) (notedLink dev topo) (fun found after plant' =>
      after = syncer ∧ plant' = plant ∧ ∀ link, found = some link ↔
        topo.get dev = some link ∧ ∀ index, plant.records dev = some index → index = link.index)
      syncer plant := by
  rw [notedLink]
  cases located : topo.get dev with
  | none => exact ⟨rfl, rfl, by simp⟩
  | some link =>
      refine safe_bind.mpr ((recordedIndex_plant flushes).mono ?_)
      rintro recorded _ _ ⟨rfl, rfl, rfl⟩
      split
      · rename_i index recorded
        refine ⟨rfl, rfl, fun other => ?_⟩
        by_cases same : index = link.index
        · simp only [same, if_true, recorded, Option.some.injEq]
          exact ⟨by rintro rfl; simp, fun found => found.1⟩
        · simp only [same, if_false, recorded, Option.some.injEq, reduceCtorEq, false_iff]
          rintro ⟨rfl, agrees⟩
          exact same (agrees index rfl)
      · rename_i unrecorded
        exact ⟨rfl, rfl, by simp [unrecorded]⟩

/-- The recorded interface, where it bears another name. -/
theorem renamedTarget_plant :
    Safe (emptying home topo) (renamedTarget dev topo) (fun found after plant' =>
      after = syncer ∧ plant' = plant ∧ ∀ index, found.map (·.1) = some index ↔
        plant.records dev = some index ∧ (topo.linkAt index).isSome ∧ topo.nameOf index ≠ some dev)
      syncer plant := by
  refine safe_bind.mpr (safe_ask.mpr ⟨not_false, ?_⟩)
  rintro recorded _ ⟨rfl, rfl⟩
  split
  · rename_i unrecorded
    exact ⟨rfl, rfl, by simp [unrecorded]⟩
  · rename_i index recorded
    cases there : topo.linkAt index with
    | none =>
        refine ⟨rfl, rfl, fun other => ⟨nofun, ?_⟩⟩
        rintro ⟨found, present, -⟩
        obtain rfl : index = other := Option.some.inj (recorded.symm.trans found)
        rw [there] at present
        cases present
    | some link =>
        refine ⟨rfl, rfl, fun other => ?_⟩
        have bears : topo.nameOf index = some link.name := by rw [Topology.nameOf, there]; rfl
        by_cases same : link.name = dev
        · simp only [same, if_true, Option.map_none, reduceCtorEq, false_iff]
          rintro ⟨found, -, apart⟩
          obtain rfl : index = other := Option.some.inj (recorded.symm.trans found)
          exact apart (bears.trans (congrArg some same))
        · simp only [same, if_false, Option.map_some, Option.some.injEq, recorded]
          constructor
          · rintro rfl
            exact ⟨rfl, by simp [there], by simp [bears, same]⟩
          · exact fun found => found.1

/-- The filter a flush works on is the one of the note's interface exactly where that
can be told. -/
theorem flushTarget_plant (flushes : syncer.Flushes) :
    Safe (emptying home topo) (flushTarget dev topo) (fun found after plant' =>
      after = syncer ∧ plant' = plant ∧ ((topo.linkAt (home dev)).isSome →
        (found = some (home dev) ↔ plant.Locates topo dev (home dev)))) syncer plant := by
  refine safe_bind.mpr ((notedLink_plant flushes).mono ?_)
  rintro found _ _ ⟨rfl, rfl, bears⟩
  cases found with
  | some link =>
      obtain ⟨located, agrees⟩ := (bears link).mp rfl
      have named := (Topology.get_spec located).1
      refine ⟨rfl, rfl, fun _ => ?_⟩
      rw [Locates, named]
      refine ⟨.inl, ?_⟩
      rintro (same | ⟨recorded, -⟩)
      · exact same
      · exact congrArg some (agrees _ recorded).symm
  | none =>
      refine safe_bind.mpr (renamedTarget_plant.mono ?_)
      rintro target _ _ ⟨rfl, rfl, follows⟩
      refine ⟨rfl, rfl, fun there => (follows _).trans ?_⟩
      constructor
      · rintro ⟨recorded, -, apart⟩
        exact .inr ⟨recorded, apart⟩
      · rintro (named | ⟨recorded, apart⟩)
        · obtain ⟨link, located, same, -⟩ := Topology.get_of_indexOf named
          have agrees : none = some link := (bears link).mpr ⟨located, fun index recorded =>
            (Plant.truthful _ dev index recorded).symm.trans same.symm⟩
          cases agrees
        · exact ⟨recorded, there, apart⟩

end SriovMacSync
