import SriovMacSync.Flushing.Clean

namespace SriovMacSync

open Data Netlink Interaction Interaction.Action Plant

/-! # What a flush may leave behind

An entry every note of which is read and leads elsewhere stays, and the notes go. -/

variable {home : Name → Index} {topo : Topology} {plant : Plant home} {dev : Name}
  {index : Index} {mac : Mac} {syncer : Syncer} {owned : Finset Mac}

/-- What is there to be read of a note. -/
def Plant.reading (plant : Plant home) (dev : Name) : NoteReading :=
  match plant.notes.lookup dev with
  | some note => if note.legible then .lines (ascending note.macs) true else .unreadable
  | none => .absent

/-- A host that refuses every removal on one interface and does everything else it is
asked. -/
def stubborn (home : Name → Index) (topo : Topology) (index : Index) :
    Handler Call Reply (Plant home)
  | plant, .dumpLinks => (.ok topo, plant)
  | plant, .listNotes => (.ok plant.notes.keys, plant)
  | plant, .readNote dev => (plant.reading dev, plant)
  | plant, .readIndex dev => (plant.records dev, plant)
  | plant, .setSelfFdb place mac false =>
      if place = index then (.error (.other 16), plant) else (.ok (), plant.release place mac)
  | plant, .putNote dev macs => (true, plant.setNote dev ⟨macs.toFinset, true⟩)
  | plant, .removeNote dev => ((), plant.unlink dev)
  | plant, .removeIndex dev => ((), plant.unrecord dev)
  | plant, .walkMacs set => (arrangeAscending set, plant)
  | plant, .walkNames set => (arrangeAscending set, plant)
  | plant, .dumpFdb | plant, .dumpFdbOf _ | plant, .vfMacsOf _ => (.ok [], plant)
  | plant, .setSelfFdb _ _ true => (.ok (), plant)
  | plant, .bootMillis | plant, .now => ((0 : Nat), plant)
  | plant, .lock .. | plant, .unlock _ | plant, .released .. => ((), plant)
  | plant, .appendNote .. | plant, .putIndex .. | plant, .portsExist _ | plant, .putPorts ..
  | plant, .removePorts _ => (false, plant)
  | plant, .readPorts _ => (none, plant)

theorem shows_reading : plant.Shows dev (plant.reading dev) := by
  unfold Plant.reading
  split
  · rename_i note noted
    split
    · rename_i legible
      simp [Shows, noted, ascending_toFinset, ← legible]
    · exact trivial
  · assumption

theorem stubborn_answers (index : Index) (plant : Plant home) (request : Call) :
    (emptying home topo).answers plant request (stubborn home topo index plant request).1
      (stubborn home topo index plant request).2 := by
  cases request with
  | dumpLinks => exact ⟨rfl, fun _ same => (Except.ok.inj same).symm⟩
  | listNotes => exact ⟨rfl, fun _ same => Except.ok.inj same ▸ .refl _⟩
  | readNote dev => exact ⟨rfl, shows_reading⟩
  | readIndex dev => exact ⟨rfl, rfl⟩
  | setSelfFdb place mac add =>
      cases add with
      | true => rfl
      | false =>
          change plant.Removes place mac _ _
          rw [stubborn]
          split
          · exact .inl rfl
          · rfl
  | putNote dev macs => exact .inl ⟨rfl, rfl⟩
  | removeNote dev => exact .inr rfl
  | removeIndex dev => exact .inr rfl
  | _ => rfl

theorem stubborn_safe {α : Type} {action : Sync α} {post : α → Syncer → Plant home → Prop}
    (safe : Safe (emptying home topo) action post syncer plant) :
    Safe (.handled (stubborn home topo index)) action post syncer plant := by
  refine Program.Safe.weaken safe (fun _ _ _ => trivial) fun world request reply after same => ?_
  obtain ⟨rfl, rfl⟩ := Prod.mk.inj (same : stubborn home topo index world request = (reply, after))
  exact stubborn_answers index world request

theorem stubborn_card (plant : Plant home) (request : Call) :
    (stubborn home topo index plant request).2.card index = plant.card index := by
  cases request with
  | setSelfFdb place mac add =>
      cases add with
      | true => rfl
      | false =>
          rw [stubborn]
          split
          · rfl
          · rename_i apart
            exact Function.update_of_ne (Ne.symm apart) ..
  | _ => rfl

/-- Elsewhere nothing is refused. -/
theorem setEach_stubborn {place : Index} {macs : List Mac} (apart : place ≠ index) :
    Safe (.handled (stubborn home topo index)) (setEach place false macs)
      (fun answers _ _ => refusedBut .noEntry answers = []) syncer plant := by
  induction macs generalizing plant with
  | nil => rfl
  | cons mac rest ih =>
      refine safe_bind.mpr (safe_ask.mpr ⟨trivial, fun reply middle answered => ?_⟩)
      obtain ⟨rfl, rfl⟩ : reply = .ok () ∧ middle = plant.release place mac := by
        change (if place = index then _ else _) = _ at answered
        rw [if_neg apart] at answered
        exact ⟨(Prod.mk.inj answered).1.symm, (Prod.mk.inj answered).2.symm⟩
      refine safe_bind.mpr (ih.mono ?_)
      rintro answers _ _ none
      exact safe_pure.mpr (by simpa [refusedBut] using none)

section Astray

variable (here : home dev = index) (there : (topo.linkAt index).isSome)
  (astray : ¬ plant.Locates topo dev index) (flushes : syncer.Flushes)
include here there astray flushes

theorem flushEntries_stubborn :
    Safe (.handled (stubborn home topo index)) (flushEntries dev topo owned)
      (fun kept _ _ => kept = ∅) syncer plant := by
  subst here
  refine safe_bind.mpr ((stubborn_safe (flushTarget_plant flushes)).mono ?_)
  rintro found _ _ ⟨rfl, rfl, leads⟩
  cases found with
  | none => rfl
  | some place =>
      have apart : place ≠ home dev := by
        rintro rfl
        exact astray ((leads there).mp rfl)
      refine safe_bind.mpr (safe_bind.mpr (safe_ask.mpr ⟨trivial, fun order _ _ => ?_⟩))
      refine safe_bind.mpr ((setEach_stubborn apart).mono ?_)
      rintro answers _ _ none
      simp [none]

/-- A note that is read and leads elsewhere goes. -/
theorem flushNote_stubborn {note : Note} (noted : plant.notes.lookup dev = some note)
    (legible : note.legible = true) :
    Safe (.handled (stubborn home topo index)) (flushNote dev topo)
      (fun _ _ after => after.notes.lookup dev = none) syncer plant := by
  refine safe_bind.mpr (safe_ask.mpr ⟨trivial, ?_⟩)
  rintro _ _ ⟨⟩
  refine safe_bind.mpr (safe_bind.mpr ?_)
  have loaded : Safe (.handled (stubborn home topo index)) (loadOwned dev)
      (fun _ after plant' => plant' = plant ∧ dev ∉ after.unreadable) syncer plant := by
    refine safe_bind.mpr (safe_ask.mpr ⟨trivial, ?_⟩)
    rintro reading _ ⟨⟩
    refine safe_bind.mpr (safe_modify.mpr (safe_pure.mpr ⟨rfl, ?_⟩))
    simp [reading, noted, legible, NoteReading.isReadable, NoteReading.isSteady, Syncer.sawNote]
  refine ((stubborn_safe (loadOwned_plant flushes)).and loaded).mono ?_
  rintro owned memory plant ⟨⟨flushes, rfl, -⟩, -, readable⟩
  refine safe_bind.mpr (((stubborn_safe (flushEntries_plant flushes)).and
    (flushEntries_stubborn here there astray flushes)).mono ?_)
  rintro kept memory emptied ⟨⟨rfl, drained, -⟩, rfl⟩
  refine safe_bind.mpr (noteIsReadable_plant ?_)
  rw [if_pos (by simpa using readable), if_pos rfl]
  refine safe_bind.mpr (safe_bind.mpr (safe_ask.mpr ⟨trivial, ?_⟩))
  rintro _ _ ⟨⟩
  refine safe_bind.mpr (safe_ask.mpr ⟨trivial, ?_⟩)
  rintro _ _ ⟨⟩
  refine safe_bind.mpr (safe_ask.mpr ⟨trivial, ?_⟩)
  rintro _ _ ⟨⟩
  refine safe_modify.mpr (safe_pure.mpr (safe_bind.mpr (safe_ask.mpr ⟨trivial, ?_⟩)))
  rintro _ _ ⟨⟩
  exact lookup_unlink

end Astray

section Run

/-- No note about the interface that names the entry is left alone or leads to it. -/
def Doomed (topo : Topology) (plant : Plant home) (index : Index) (mac : Mac) : Prop :=
  ∀ dev, home dev = index → ¬ plant.Guards topo dev index mac

/-- One note's turn on the stubborn host. -/
theorem flushNote_doomed (there : (topo.linkAt index).isSome) (doomed : Doomed topo plant index mac)
    (flushes : syncer.Flushes) :
    Safe (.handled (stubborn home topo index)) (flushNote dev topo) (fun _ after plant' =>
      after.Flushes ∧ Doomed topo plant' index mac ∧ (∀ other, plant'.names other ⊆ plant.names other) ∧
        (home dev = index → mac ∉ plant'.names dev)) syncer plant := by
  have turned : Safe (.handled (stubborn home topo index)) (flushNote dev topo)
      (fun clean after plant' => after.Flushes ∧ Turn topo dev plant plant' clean) syncer plant :=
    stubborn_safe (flushNote_plant flushes)
  have gone : Safe (.handled (stubborn home topo index)) (flushNote dev topo)
      (fun _ _ after => home dev = index → mac ∈ plant.names dev → mac ∉ after.names dev)
      syncer plant := by
    by_cases named : home dev = index ∧ mac ∈ plant.names dev
    · obtain ⟨here, names⟩ := named
      obtain ⟨note, noted, member⟩ : ∃ note, plant.notes.lookup dev = some note ∧ mac ∈ note.macs := by
        rw [Plant.names] at names
        cases noted : plant.notes.lookup dev with
        | none => simp [noted] at names
        | some note => exact ⟨note, rfl, by simpa [noted] using names⟩
      have known : ¬ (note.legible = true → plant.Locates topo dev index) :=
        fun leads => doomed dev here ⟨note, noted, member, leads⟩
      obtain ⟨legible, astray⟩ := Classical.not_imp.mp known
      refine (flushNote_stubborn here there astray flushes noted legible).mono ?_
      intro _ _ after unlinked _ _
      simp [Plant.names, unlinked]
    · exact turned.mono fun _ _ _ _ here names => absurd ⟨here, names⟩ named
  refine (turned.and gone).mono ?_
  rintro clean memory after ⟨⟨flushes, turn⟩, gone⟩
  have shrinks (other : Name) : after.names other ⊆ plant.names other := by
    by_cases same : other = dev
    · exact same ▸ turn.shrinks
    · exact (names_congr (turn.works.others other same).1).subset
  have cleared (here : home dev = index) : mac ∉ after.names dev :=
    fun names => gone here (shrinks dev names) names
  refine ⟨flushes, fun other here guards => ?_, shrinks, cleared⟩
  by_cases same : other = dev
  · exact cleared (same ▸ here) (same ▸ guards.names)
  · obtain ⟨note, record⟩ := turn.works.others other same
    exact doomed other here (guards.congr note.symm record.symm)

theorem flushNotes_doomed {devs : List Name} (there : (topo.linkAt index).isSome)
    (doomed : Doomed topo plant index mac) (flushes : syncer.Flushes) :
    Safe (.handled (stubborn home topo index)) (flushNotes topo devs) (fun _ _ after =>
      (∀ other, after.names other ⊆ plant.names other) ∧
        ∀ dev ∈ devs, home dev = index → mac ∉ after.names dev) syncer plant := by
  induction devs generalizing syncer plant with
  | nil => exact ⟨fun _ => subset_rfl, by simp⟩
  | cons dev rest ih =>
      refine safe_bind.mpr (safe_get.mpr ?_)
      rw [flushes.acts]
      refine safe_bind.mpr ((flushNote_doomed there doomed flushes).mono ?_)
      rintro clean _ middle ⟨flushes, doomed, shrinks, cleared⟩
      refine safe_bind.mpr ((ih doomed flushes).mono ?_)
      rintro cleanRest _ after ⟨shrinks', cleared'⟩
      refine ⟨fun other => (shrinks' other).trans (shrinks other), fun other member here => ?_⟩
      rcases List.mem_cons.mp member with rfl | member
      · exact fun names => cleared here (shrinks' _ names)
      · exact cleared' other member here

theorem flush_doomed (there : (topo.linkAt index).isSome) (doomed : Doomed topo plant index mac)
    (flushes : syncer.Flushes) :
    Safe (.handled (stubborn home topo index)) flush (fun _ _ after =>
      after.card index = plant.card index ∧ ¬ after.Noted index mac) syncer plant := by
  have still : Safe (.handled (stubborn home topo index)) flush
      (fun _ _ after => after.card index = plant.card index) syncer plant := by
    refine Program.safe_of_kept (fun world request same => ⟨trivial, ?_⟩) rfl
    rintro reply after answered
    obtain rfl : (stubborn home topo index world request).2 = after := congrArg Prod.snd answered
    exact (stubborn_card world request).trans same
  refine still.and ?_
  refine safe_bind.mpr (safe_ask.mpr ⟨trivial, ?_⟩)
  rintro _ _ ⟨⟩
  refine safe_bind.mpr (safe_bind.mpr (safe_ask.mpr ⟨trivial, ?_⟩))
  rintro _ _ ⟨⟩
  refine safe_pure.mpr (safe_bind.mpr ((flushNotes_doomed there doomed flushes).mono ?_))
  rintro clean _ after ⟨shrinks, cleared⟩ ⟨dev, here, names⟩
  refine cleared dev ?_ here names
  have before := shrinks dev names
  rw [List.mem_insertionSort, ← AList.mem_keys, ← AList.lookup_isSome]
  cases noted : plant.notes.lookup dev with
  | none => simp [Plant.names, noted] at before
  | some note => rfl

end Run

section Examples

/-- The interface that was `eth0` is called `eth1` now. -/
def renamedTopology : Topology where
  links := [{ name := "eth1", index := 2 }]
  distinct := by decide

/-- A note about it under the old name, with a record or without. -/
def renamedPlant (recorded : Bool) : Plant fun _ => 2 where
  notes := AList.singleton "eth0" ⟨{guest}, true⟩
  records _ := if recorded then some 2 else none
  truthful := by
    intro dev index found
    cases recorded <;> simp_all
  card _ := {guest}

theorem renamedPlant_tracked {recorded : Bool} :
    (renamedPlant recorded).Tracked renamedTopology 2 guest := by
  refine ⟨by decide, Finset.mem_singleton_self guest, "eth0", rfl, ?_⟩
  exact Finset.mem_singleton_self guest

end Examples

end SriovMacSync
