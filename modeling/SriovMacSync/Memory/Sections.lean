import SriovMacSync.Memory.Notes

namespace SriovMacSync

open Data Netlink Interaction Interaction.Action

/-! Whole lock windows: removals, registrations, and the memory file. -/

variable {legible sure : Name → Prop} {shelf : Shelf} {syncer : Syncer} {dev : Name} {index : Index}
  {topo : Topology}

section Windows

theorem locked_shelf {α : Type} {work : Section} {body : Sync α} {post : α → Syncer → Shelf → Prop}
    (safe : Safe (shelving legible sure) body (fun value after shelf' => post value after (shelf'.hold none))
      syncer (shelf.hold (some (dev, work)))) :
    Safe (shelving legible sure) (locked dev work body) post syncer shelf := by
  refine safe_bind.mpr (safe_ask.mpr ⟨trivial, ?_⟩)
  rintro _ _ rfl
  refine safe_bind.mpr (safe.mono fun value after shelf' holds => ?_)
  refine safe_bind.mpr (safe_ask.mpr ⟨trivial, ?_⟩)
  rintro _ _ rfl
  exact holds

theorem retire_shelf {work : Section} {macs : List Mac} :
    Safe (shelving legible sure) (retire work dev index macs) (fun retired after shelf' =>
      NoteMarks Set.univ syncer after ∧ ∃ answers note middle, answers.map (·.1) = macs ∧
        retired = ⟨absentOrOk answers, answeredOk answers, refusedBut .noEntry answers⟩ ∧
        (note = (shelf.drawer dev).note \ (absentOrOk answers).toFinset ∨
          ¬ sure dev ∧ note = (shelf.drawer dev).note) ∧
        Writing dev work index false answers (shelf.hold (some (dev, work))) middle ∧
        shelf' = (middle.setNote dev note).hold none) syncer shelf := by
  refine locked_shelf (safe_bind.mpr ((setEach_shelf rfl).mono ?_))
  rintro answers _ middle ⟨rfl, asked, writes⟩
  refine safe_bind.mpr (forgetLocked_shelf.mono ?_)
  rintro _ after _ ⟨marks, note, rfl, settles⟩
  have noted : (middle.drawer dev).note = (shelf.drawer dev).note := by
    rw [writes.drawer]
    rfl
  rw [noted] at settles
  exact ⟨marks, answers, note, middle, asked, rfl, settles, writes, rfl⟩

/-- What registering addresses leaves alone. -/
structure Enters (dev : Name) (index : Index) (macs : List Mac) (shelf after : Shelf) : Prop where
  others : ∀ other ≠ dev, after.drawer other = shelf.drawer other
  places : ∀ place ≠ index, after.lists place = shelf.lists place
  fdb : after.fdb = shelf.fdb
  free : after.held = none
  note : ∀ mac ∉ macs, (mac ∈ (after.drawer dev).note ↔ mac ∈ (shelf.drawer dev).note)
  list : ∀ mac ∉ macs, (mac ∈ after.lists index ↔ mac ∈ shelf.lists index)
  files : (after.drawer dev).ports = (shelf.drawer dev).ports ∧
    (after.drawer dev).stuck = (shelf.drawer dev).stuck
  deeds : ∃ new, (after.drawer dev).deeds = new ++ (shelf.drawer dev).deeds ∧
    ∀ deed ∈ new, deed.work = .register ∧ deed.index = index ∧ deed.add = true ∧ deed.mac ∈ macs

theorem registerBatchLocked_shelf {macs : List Mac} :
    Safe (shelving legible sure) (registerBatchLocked dev index macs) (fun registered after shelf' =>
      NoteMarks Set.univ syncer after ∧ Enters dev index macs shelf shelf' ∧
        ∀ done, registered = some done → ∀ mac ∈ done.put, mac ∈ macs) syncer shelf := by
  refine locked_shelf (safe_bind.mpr (appendOwnedLocked_shelf.mono ?_))
  rintro fresh syncer₁ _ ⟨marks, note, rfl, kept, bounded, -, -⟩
  have apart {mac : Mac} (unasked : mac ∉ macs) : mac ∈ note ↔ mac ∈ (shelf.drawer dev).note := by
    constructor
    · intro named
      have either := bounded named
      simp only [Finset.mem_union, List.mem_toFinset, Shelf.drawer_hold, unasked, or_false] at either
      exact either
    · exact fun named => kept named
  cases fresh with
  | none =>
      refine ⟨marks, ⟨fun other apart => ?_, fun _ _ => rfl, rfl, rfl, fun mac unasked => ?_,
        fun _ _ => Iff.rfl, ⟨by simp, by simp⟩, [], by simp, by simp⟩, nofun⟩
      · simp [Shelf.drawer_setNote_of_ne apart]
      · simpa using apart unasked
  | some fresh =>
      have holding : ((shelf.hold (some (dev, .register))).setNote dev note).held =
          some (dev, .register) := rfl
      refine safe_bind.mpr ((setEach_shelf holding).mono ?_)
      rintro answers _ middle ⟨rfl, asked, writes⟩
      have enters {last : Finset Mac} (less : ∀ mac ∉ macs, (mac ∈ last ↔ mac ∈ note)) :
          Enters dev index macs shelf ((middle.setNote dev last).hold none) := by
        refine ⟨fun other apart => ?_, fun place apart => ?_, writes.fdb, rfl, fun mac unasked => ?_,
          fun mac unasked => ?_, ?_, (answers.map fun answer =>
            (⟨.register, index, answer.1, true, answer.2⟩ : Deed)).reverse, ?_, fun deed listed => ?_⟩
        · rw [Shelf.drawer_hold, Shelf.drawer_setNote_of_ne apart, writes.others other apart,
            Shelf.drawer_setNote_of_ne apart, Shelf.drawer_hold]
        · exact writes.places place apart
        · simpa using (less mac unasked).trans (apart unasked)
        · exact writes.unasked mac (asked ▸ unasked)
        · simp [writes.drawer]
        · simp only [Shelf.drawer_hold, Shelf.drawer_setNote, writes.drawer]
        · obtain ⟨answer, given, rfl⟩ := List.mem_map.mp (List.mem_reverse.mp listed)
          exact ⟨rfl, rfl, rfl, asked ▸ List.mem_map_of_mem given⟩
      have went (done : Registered)
          (same : some (⟨answeredOk answers, refusedBut .exists answers⟩ : Registered) = some done) :
          ∀ mac ∈ done.put, mac ∈ macs := by
        obtain rfl := Option.some.inj same
        exact fun mac put => asked ▸ List.mem_map_of_mem (mem_answeredOk.mp put)
      dsimp only
      split
      · refine safe_bind.mpr (unnoteLocked_shelf.mono ?_)
        rintro _ after _ ⟨marks', last, rfl, most, least⟩
        have noted : (middle.drawer dev).note = note := by
          rw [writes.drawer]
          simp
        rw [noted] at most least
        refine ⟨marks.trans marks', enters fun mac unasked => ⟨fun named => least named, fun named => ?_⟩, went⟩
        refine most (Finset.mem_sdiff.mpr ⟨named, fun unclaimed => unasked ?_⟩)
        have refused := mem_answeredWith.mp (List.mem_of_mem_filter (List.mem_toFinset.mp unclaimed))
        exact asked ▸ List.mem_map_of_mem refused
      · have noted : middle.setNote dev note = middle := by
          have same : note = (middle.drawer dev).note := by
            rw [writes.drawer]
            simp
          rw [same, Shelf.setNote_self]
        exact ⟨marks, noted ▸ enters fun _ _ => Iff.rfl, went⟩

end Windows

end SriovMacSync
