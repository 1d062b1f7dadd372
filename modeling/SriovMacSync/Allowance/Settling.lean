import Mathlib.Tactic.Tauto
import SriovMacSync.Allowance.Sharing

namespace SriovMacSync

open Data Netlink Interaction Interaction.Action

/-! What one uplink's part of a pass does to the filters: exactly the additions its
note could take, and exactly the removals it decided on. -/

variable {topo : Topology} {filters : Filters} {syncer : Syncer} {dev : Name} {index : Index}

section Sections

/-- A reading marks its note. -/
theorem loadOwned_marks :
    Safe (sharing topo) (loadOwned dev) (fun _ syncer' after =>
      decide (dev ∉ syncer'.unreadable) = filters.legible dev 0 ∧ after.own = filters.own)
      syncer filters := by
  simp only [loadOwned, safe_bind, safe_ask, safe_modify, safe_pure]
  refine ⟨trivial, fun reading after answered => ?_⟩
  obtain ⟨rfl, agrees⟩ : after = filters.read dev ∧ reading.isReadable = filters.legible dev 0 :=
    answered
  refine ⟨?_, rfl⟩
  rw [← agrees]
  cases reading with
  | absent => simp [Syncer.sawNote, Syncer.setIndex, NoteReading.isReadable, NoteReading.isSteady]
  | lines macs steady =>
      cases steady <;>
        simp [Syncer.sawNote, Syncer.setIndex, NoteReading.isReadable, NoteReading.isSteady]
  | unreadable =>
      simp [Syncer.sawNote, Syncer.setIndex, NoteReading.isReadable, NoteReading.isSteady]

/-- A note takes lines just when it can be read. -/
theorem appendOwnedLocked_takes {macs : List Mac} :
    Safe (sharing topo) (appendOwnedLocked dev macs)
      (fun fresh _ after => fresh.isSome = filters.legible dev 0 ∧ after.own = filters.own)
      syncer filters := by
  refine safe_bind.mpr (loadOwned_marks.mono ?_)
  rintro set syncer' after ⟨readable, same⟩
  simp only [noteIsReadable, safe_bind, safe_get, safe_pure]
  rw [← readable]
  split
  · rename_i legible
    rw [legible]
    split
    · exact ⟨rfl, same⟩
    · refine ⟨trivial, fun written last answered => ?_⟩
      obtain ⟨rfl, rfl⟩ : last = after ∧ written = true := answered
      exact ⟨rfl, same⟩
  · rename_i illegible
    exact ⟨by simpa using illegible, same⟩

/-- Whoever else waits for the lock does not matter to the filters. -/
theorem locked_shares {α : Type} {work : Section} {body : Sync α} {post : α → Syncer → Filters → Prop}
    (safe : Safe (sharing topo) body post syncer filters) :
    Safe (sharing topo) (locked dev work body) post syncer filters := by
  refine safe_bind.mpr (safe_ask.mpr ⟨trivial, ?_⟩)
  rintro _ filters rfl
  refine safe_bind.mpr (safe.mono fun value syncer' after holds => ?_)
  refine safe_bind.mpr (safe_ask.mpr ⟨trivial, ?_⟩)
  rintro _ after rfl
  exact holds

/-- The additions of an uplink, or none where its note cannot take them. -/
theorem registerBatchLocked_gives {macs : List Mac} :
    Safe (sharing topo) (registerBatchLocked dev index macs) (fun registered _ after =>
      after.own = (if filters.legible dev 0 then filters.given topo index macs.toFinset
        else filters.own) ∧
      ∀ done, registered = some done → done.put ⊆ macs) syncer filters := by
  refine locked_shares (safe_bind.mpr (appendOwnedLocked_takes.mono ?_))
  rintro fresh syncer' noted ⟨takes, same⟩
  cases fresh with
  | none => exact ⟨by rw [same, ← takes]; rfl, by simp⟩
  | some fresh =>
      rw [← takes, Option.isSome_some, if_pos rfl]
      refine safe_bind.mpr (setEach_gives.mono ?_)
      rintro answers syncer' after ⟨gave, asked⟩
      have settled : after.own = filters.given topo index macs.toFinset := by
        rw [gave, Filters.given, Filters.given, same]
      have put : answeredOk answers ⊆ macs := by
        intro mac member
        rw [← asked]
        exact List.mem_map.mpr ⟨_, mem_answeredOk.mp member, rfl⟩
      dsimp only
      split
      · refine safe_bind.mpr ((sparing_safe unnoteLocked_spares).mono fun _ _ last kept => ?_)
        exact ⟨kept.trans settled, by rintro done ⟨⟩; exact put⟩
      · exact ⟨settled, by rintro done ⟨⟩; exact put⟩

/-- The removals of an uplink. -/
theorem retire_drops {work : Section} {macs : List Mac} :
    Safe (sharing topo) (retire work dev index macs) (fun _ _ after =>
      after.own = Function.update filters.own index (filters.own index \ macs.toFinset))
      syncer filters := by
  refine locked_shares (safe_bind.mpr (setEach_drops.mono ?_))
  rintro answers syncer' after dropped
  refine safe_bind.mpr ((sparing_safe forgetLocked_spares).mono fun _ _ last kept => ?_)
  exact kept.trans dropped

end Sections

section Card

/-- What an uplink's note takes of what the pass wants added. -/
def Filters.brings (filters : Filters) (fdb : List FdbEntry) (dev : Name) (index : Index)
    (want : Finset Mac) : Finset Mac :=
  if filters.legible dev 0 then want \ selfList fdb index else ∅

/-- The filters once one uplink has been brought to what it should hold. -/
def Filters.settled (filters : Filters) (topo : Topology) (index : Index)
    (brings takes : Finset Mac) : Index → Finset Mac :=
  Function.update filters.own index
    ((filters.own index ∪ (brings \ topo.held filters.own index)) \ takes)

@[simp] theorem given_empty : filters.given topo index ∅ = filters.own := by
  simp [Filters.given]

theorem recordOwner_shares {needed : Bool} :
    Safe (sharing topo) (recordOwner needed dev index) (fun _ _ after => after = filters)
      syncer filters := by
  unfold recordOwner
  split
  · simp only [noteIndex, safe_bind, safe_get]
    split
    · refine safe_bind.mpr (safe_ask.mpr ⟨trivial, fun written after answered => ?_⟩)
      split <;> exact answered
    · rfl
  · rfl

theorem registerMissing_gives {toAdd : List Mac} :
    Safe (sharing topo) (registerMissing true dev index toAdd) (fun put _ after =>
      after.own = (if filters.legible dev 0 then filters.given topo index toAdd.toFinset
        else filters.own) ∧ put ⊆ toAdd) syncer filters := by
  unfold registerMissing
  split
  · refine safe_bind.mpr (registerBatchLocked_gives.mono ?_)
    rintro registered syncer' after ⟨gave, put⟩
    cases registered with
    | none => exact ⟨gave, List.nil_subset _⟩
    | some done => exact ⟨gave, put done rfl⟩
  · rename_i idle
    obtain rfl : toAdd = [] := by simpa using idle
    exact ⟨by simp, List.nil_subset _⟩

theorem retireStale_drops {stale : List Mac} :
    Safe (sharing topo) (retireStale true dev index stale) (fun _ _ after =>
      after.own = Function.update filters.own index (filters.own index \ stale.toFinset))
      syncer filters := by
  unfold retireStale
  split
  · exact safe_bind.mpr (retire_drops.mono fun _ _ _ dropped => dropped)
  · rename_i idle
    obtain rfl : stale = [] := by simpa using idle
    simp

theorem settleCard_settles {reading : Reading} {want owned : Finset Mac}
    (applies : reading.apply = true) (acts : syncer.dryRun = false) :
    Safe (sharing topo) (settleCard reading dev index want owned) (fun _ _ after =>
      after.own = filters.settled topo index (filters.brings reading.fdb dev index want)
        (owned \ want)) syncer filters := by
  simp only [settleCard, safe_bind, safe_get, safe_ask, safe_pure, applies, acts, Bool.not_false,
    Bool.and_self]
  refine ⟨trivial, fun order filters answered => ?_⟩
  obtain rfl : filters = _ := answered
  refine recordOwner_shares.mono ?_
  rintro _ syncer' filters rfl
  refine registerMissing_gives.mono ?_
  rintro put syncer' given ⟨gave, asked⟩
  refine ⟨trivial, fun ownedOrder noted answered => ?_⟩
  obtain rfl : noted = given := answered
  refine retireStale_drops.mono ?_
  rintro retired syncer' after dropped
  refine (sparing_safe mergeOwned_spares).mono fun _ _ last kept => ?_
  have added : (order.list.filter (· ∉ selfList reading.fdb index)).toFinset =
      want \ selfList reading.fdb index := by
    ext mac
    simp [order.mem_iff]
  have stale : (ownedOrder.list.filter (· ∉ want)).toFinset = owned \ want := by
    ext mac
    have wanted : mac ∈ put → mac ∈ want := fun member =>
      (order.mem_iff mac).mp (List.mem_of_mem_filter (asked member))
    simp only [List.mem_toFinset, List.mem_filter, ownedOrder.mem_iff, Finset.mem_union,
      decide_eq_true_eq, Finset.mem_sdiff]
    tauto
  rw [kept, dropped, stale, gave, added, Filters.settled, Filters.brings]
  split <;> simp [Filters.given]

end Card

end SriovMacSync
