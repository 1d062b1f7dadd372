import SriovMacSync.Flushing.Steps
import SriovMacSync.World.Host

namespace SriovMacSync

open Data Netlink Interaction Interaction.Action Plant

/-! # A flush that reports success

The entries of this program that are still on an existing interface and named by a
note about it: what a flush is for. -/

variable {home : Name → Index} {topo : Topology} {plant : Plant home} {dev : Name}
  {index : Index} {mac : Mac} {syncer : Syncer} {owned : Finset Mac}

/-- A note about the interface names the entry. -/
def Plant.Noted (plant : Plant home) (index : Index) (mac : Mac) : Prop :=
  ∃ dev, home dev = index ∧ mac ∈ plant.names dev

/-- An entry of this program on an existing interface, with a note about it. -/
def Plant.Tracked (plant : Plant home) (topo : Topology) (index : Index) (mac : Mac) : Prop :=
  (topo.linkAt index).isSome ∧ mac ∈ plant.card index ∧ plant.Noted index mac

/-- Whatever the kernel answers, success means that every such entry is gone, and what
remains is still named by a note. -/
def LeavesNothing (topo : Topology) (syncer : Syncer) (plant : Plant home) : Prop :=
  ∀ outcome memory after,
    (flush syncer).Reaches (emptying home topo) plant (.done (outcome, memory)) after →
    ∀ index mac, plant.Tracked topo index mac →
      (outcome = .ok true → mac ∉ after.card index) ∧
        (mac ∈ after.card index → after.Noted index mac)

/-- Every such entry is named by a note about its interface that cannot be read or leads
to it. -/
def Traceable (topo : Topology) (plant : Plant home) : Prop :=
  ∀ index mac, plant.Tracked topo index mac →
    ∃ dev, home dev = index ∧ plant.Guards topo dev index mac

section Kept

theorem flushEntries_plant (flushes : syncer.Flushes) :
    Safe (emptying home topo) (flushEntries dev topo owned) (fun kept after plant' =>
      after = syncer ∧ Drained plant plant' ∧ kept ⊆ owned ∧
        ((topo.linkAt (home dev)).isSome → plant.Locates topo dev (home dev) →
          ∀ mac ∈ owned, mac ∈ plant'.card (home dev) → mac ∈ kept)) syncer plant := by
  refine safe_bind.mpr ((flushTarget_plant flushes).mono ?_)
  rintro found _ _ ⟨rfl, rfl, leads⟩
  cases found with
  | none =>
      refine ⟨rfl, .refl, by simp, fun there locates => ?_⟩
      cases (leads there).mpr locates
  | some index =>
      refine safe_bind.mpr (unregisterAll_plant.mono ?_)
      rintro result _ plant' ⟨rfl, drained, among, refused⟩
      refine ⟨rfl, drained, among, fun there locates => ?_⟩
      obtain rfl : index = home dev := Option.some.inj ((leads there).mpr locates)
      exact refused

/-- What one note's turn may make of the plant.  While an entry the note guards
remains, the note goes on guarding it and the turn is no success. -/
structure Turn (topo : Topology) (dev : Name) (plant after : Plant home) (clean : Bool) : Prop where
  works : Works dev plant after
  shrinks : after.names dev ⊆ plant.names dev
  guards {mac : Mac} : (topo.linkAt (home dev)).isSome → plant.Guards topo dev (home dev) mac →
    mac ∈ after.card (home dev) → clean = false ∧ after.Guards topo dev (home dev) mac

theorem Plant.names_congr {after : Plant home}
    (same : after.notes.lookup dev = plant.notes.lookup dev) : after.names dev = plant.names dev := by
  rw [names, names, same]

/-- Read, unregister and unlink. -/
theorem flushNote_plant (flushes : syncer.Flushes) :
    Safe (emptying home topo) (flushNote dev topo) (fun clean after plant' =>
      after.Flushes ∧ Turn topo dev plant plant' clean) syncer plant := by
  refine locked_plant (safe_bind.mpr ((loadOwned_plant flushes).mono ?_))
  rintro owned loaded plant ⟨flushes, rfl, known⟩
  refine safe_bind.mpr ((flushEntries_plant flushes).mono ?_)
  rintro kept loaded emptied ⟨rfl, drained, among, refused⟩
  have same : emptied.names dev = plant.names dev := names_congr (by rw [drained.notes])
  have guarding {mac : Mac} (guards : plant.Guards topo dev (home dev) mac) :
      emptied.Guards topo dev (home dev) mac :=
    guards.congr (by rw [drained.notes]) (by rw [drained.records])
  refine safe_bind.mpr (noteIsReadable_plant ?_)
  rcases known with ⟨unreadable, rfl⟩ | ⟨readable, rfl, legible⟩
  · rw [if_neg (by simpa using unreadable)]
    exact ⟨flushes, drained.works, same.subset, fun _ guards _ => ⟨rfl, guarding guards⟩⟩
  rw [if_pos (by simpa using readable)]
  have held {mac : Mac} (there : (topo.linkAt (home dev)).isSome)
      (guards : plant.Guards topo dev (home dev) mac) (left : mac ∈ emptied.card (home dev)) :
      mac ∈ kept := by
    obtain ⟨note, noted, -, locates⟩ := id guards
    exact refused there (locates (legible note noted)) mac guards.names left
  split
  · rename_i nothing
    refine safe_bind.mpr ((removeNote_plant flushes).mono ?_)
    rintro _ after removed ⟨flushes, works, card, shrinks⟩
    refine ⟨flushes, drained.works.trans works, shrinks.trans same.subset, ?_⟩
    intro mac there guards left
    rw [card] at left
    exact absurd (nothing ▸ held there guards left) (Finset.notMem_empty mac)
  · refine safe_bind.mpr ((writeOwned_plant flushes).mono ?_)
    rintro _ after written ⟨flushes, rfl | rfl⟩
    · exact ⟨flushes, drained.works, same.subset, fun _ guards _ => ⟨rfl, guarding guards⟩⟩
    · refine ⟨flushes, drained.works.trans .setNote, ?_, ?_⟩
      · simpa [names] using among
      · intro mac there guards left
        obtain ⟨note, noted, -, locates⟩ := id (guarding guards)
        rw [drained.notes] at noted
        exact ⟨rfl, _, lookup_setNote, held there guards left, fun _ => locates (legible note noted)⟩

/-- A note's turn keeps what another note guards. -/
theorem Turn.keeps {after : Plant home} {other : Name} {clean : Bool}
    (turn : Turn topo other plant after clean) (there : (topo.linkAt (home dev)).isSome)
    (guards : mac ∈ plant.card (home dev) → plant.Guards topo dev (home dev) mac)
    (left : mac ∈ after.card (home dev)) : after.Guards topo dev (home dev) mac := by
  have guards := guards (turn.works.fewer _ left)
  by_cases same : dev = other
  · subst same
    exact (turn.guards there guards left).2
  · obtain ⟨note, record⟩ := turn.works.others dev same
    exact guards.congr note record

/-- Over all notes: an entry a note guards stays guarded, and is gone once all went
well. -/
theorem flushNotes_plant {devs : List Name} (flushes : syncer.Flushes)
    (there : (topo.linkAt (home dev)).isSome)
    (guards : mac ∈ plant.card (home dev) → plant.Guards topo dev (home dev) mac) :
    Safe (emptying home topo) (flushNotes topo devs) (fun clean _ after =>
      (mac ∈ after.card (home dev) → after.Guards topo dev (home dev) mac) ∧
        after.card ≤ plant.card ∧
        (dev ∈ devs → clean = true → mac ∉ after.card (home dev))) syncer plant := by
  induction devs generalizing syncer plant with
  | nil => exact ⟨guards, le_rfl, by simp⟩
  | cons other rest ih =>
      refine safe_bind.mpr (safe_get.mpr ?_)
      rw [flushes.acts]
      refine safe_bind.mpr ((flushNote_plant flushes).mono ?_)
      rintro clean middle turned ⟨flushes, turn⟩
      refine safe_bind.mpr ((ih flushes (turn.keeps there guards)).mono ?_)
      rintro cleanRest _ after ⟨guards', fewer, gone⟩
      refine ⟨guards', fewer.trans turn.works.fewer, fun member allClean left => ?_⟩
      obtain ⟨restClean, firstClean⟩ := Bool.and_eq_true_iff.mp allClean
      rcases List.mem_cons.mp member with rfl | member
      · have before := guards (turn.works.fewer _ (fewer _ left))
        cases firstClean.symm.trans (turn.guards there before (fewer _ left)).1
      · exact gone member restClean left

theorem flush_plant (flushes : syncer.Flushes) (there : (topo.linkAt (home dev)).isSome)
    (guards : plant.Guards topo dev (home dev) mac) :
    Safe (emptying home topo) flush (fun outcome _ after =>
      (mac ∈ after.card (home dev) → after.Guards topo dev (home dev) mac) ∧
        (outcome = .ok true → mac ∉ after.card (home dev))) syncer plant := by
  refine safe_bind.mpr (safe_ask.mpr ⟨not_false, ?_⟩)
  rintro reading plant ⟨rfl, truly⟩
  cases reading with
  | error errno => exact ⟨fun _ => guards, nofun⟩
  | ok found =>
      obtain rfl := truly found rfl
      refine safe_bind.mpr (safe_bind.mpr (safe_ask.mpr ⟨not_false, ?_⟩))
      rintro listing plant ⟨rfl, complete⟩
      cases listing with
      | error errno => exact ⟨fun _ => guards, nofun⟩
      | ok devs =>
          have listed : dev ∈ devs.insertionSort (· ≤ ·) := by
            obtain ⟨note, noted, -⟩ := guards
            rw [List.mem_insertionSort, (complete devs rfl).mem_iff, ← AList.mem_keys,
              ← AList.lookup_isSome, noted]
            rfl
          refine safe_pure.mpr (safe_bind.mpr ?_)
          refine (flushNotes_plant flushes there fun _ => guards).mono ?_
          rintro clean _ after ⟨guards', -, gone⟩
          exact ⟨guards', fun success => gone listed (Except.ok.inj success)⟩

theorem Traceable.leavesNothing (traceable : Traceable topo plant) (flushes : syncer.Flushes) :
    LeavesNothing topo syncer plant := by
  intro outcome memory after path index mac tracked
  obtain ⟨dev, rfl, guards⟩ := traceable index mac tracked
  obtain ⟨guards', gone⟩ := Program.Safe.result (flush_plant flushes tracked.1 guards) path
  exact ⟨gone, fun left => ⟨dev, rfl, (guards' left).names⟩⟩

end Kept

end SriovMacSync
