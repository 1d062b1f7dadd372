import SriovMacSync.Allowance.Turns

namespace SriovMacSync

open Data Netlink Interaction Interaction.Action

/-! # An uplink's reckoning and what its card ends up with

The room on a card is reckoned once per uplink, from one dump: what the uplink wants,
and what the dump shows on the card that is neither wanted nor on its note. -/

variable {reading : Reading} {worked : Worked} {mac : Mac}

section Valve

theorem surrender_spec (reserve limit : Nat) (candidates : List (Nat × Mac)) (occupied : Nat) :
    surrender reserve limit candidates occupied <+: candidates.map (·.2) ∧
      (surrender reserve limit candidates occupied = candidates.map (·.2) ∨
        occupied - (surrender reserve limit candidates occupied).length + reserve ≤ limit) := by
  induction candidates generalizing occupied with
  | nil => exact ⟨List.prefix_refl _, .inl rfl⟩
  | cons first rest ih =>
      rw [surrender]
      split
      · rename_i fits
        exact ⟨List.nil_prefix, .inr (by simpa using fits)⟩
      · obtain ⟨isPrefix, ends⟩ := ih (occupied - 1)
        refine ⟨by simpa using isPrefix, ends.imp (by simp) fun fits => ?_⟩
        rw [List.length_cons]
        omega

/-- The valve surrenders keeps, each once, and stops early only where the rest fits. -/
theorem pressAtPass_spec (syncer : Syncer) (dev card : Name) (occupied : Nat) (kept : Finset Mac) :
    (syncer.pressAtPass dev card occupied kept).Nodup ∧
      (syncer.pressAtPass dev card occupied kept).toFinset ⊆ kept ∧
      (kept ⊆ (syncer.pressAtPass dev card occupied kept).toFinset ∨
        occupied - (syncer.pressAtPass dev card occupied kept).length +
          headroom (syncer.limitOf card) ≤ syncer.limitOf card) := by
  have candidates : ((bySilence ((ascending kept).map fun mac =>
      (syncer.stampOf dev mac, mac))).map (·.2)).Perm (ascending kept) := by
    refine ((bySilence_perm _).map _).trans ?_
    simp [Function.comp_def]
  obtain ⟨isPrefix, ends⟩ := surrender_spec (headroom (syncer.limitOf card)) (syncer.limitOf card)
    (bySilence ((ascending kept).map fun mac => (syncer.stampOf dev mac, mac))) occupied
  refine ⟨isPrefix.sublist.nodup (candidates.nodup_iff.mpr (nodup_ascending kept)), ?_,
    ends.imp (fun all => ?_) id⟩
  · intro mac shed
    exact mem_ascending.mp (candidates.subset (isPrefix.subset (List.mem_toFinset.mp shed)))
  · intro mac keep
    rw [List.mem_toFinset, Syncer.pressAtPass, all]
    exact candidates.symm.subset (mem_ascending.mpr keep)

end Valve

namespace Worked

/-- What the reckoning counts on the card. -/
def counted (reading : Reading) (worked : Worked) : Finset Mac :=
  (worked.relieved reading).want ∪ (selfList reading.fdb worked.anat.card).filter fun mac =>
    mac ∉ (worked.wanted reading).want ∧ mac ∉ worked.owned

def limit (reading : Reading) (worked : Worked) : Nat :=
  worked.syncer.limitOf (worked.relieved reading).card

/-- The room the reckoning leaves under the allowance. -/
def spare (reading : Reading) (worked : Worked) : Nat :=
  worked.limit reading - headroom (worked.limit reading) - (worked.relieved reading).occupied

/-- What the other interfaces leave on the card. -/
def besides (reading : Reading) (course : List Worked) (own : Index → Finset Mac)
    (worked : Worked) : Finset Mac :=
  reading.topo.held (Function.update (leftAt reading course own) worked.anat.dev ∅) worked.anat.card

/-- What the reckoning overlooks: entries other interfaces leave on the card that it does
not want itself, and that the dump does not show there or that are on its own note. -/
def overlooked (reading : Reading) (course : List Worked) (own : Index → Finset Mac)
    (worked : Worked) : Finset Mac :=
  (worked.besides reading course own).filter fun mac =>
    mac ∉ (worked.relieved reading).want ∧
      (mac ∉ selfList reading.fdb worked.anat.card ∨ mac ∈ worked.owned)

/-- What the decisions of the whole pass leave on the card. -/
def left (reading : Reading) (course : List Worked) (own : Index → Finset Mac) (worked : Worked) :
    Finset Mac :=
  reading.topo.held (leftAt reading course own) worked.anat.card

end Worked

section Counting

theorem kept_facts : (worked.wanted reading).kept ⊆ (worked.wanted reading).want ∧
    (worked.wanted reading).kept ⊆ worked.owned :=
  ⟨Finset.subset_union_right, fun _ keep => (mem_quietSurvivors keep).1⟩

theorem relieved_want : (worked.relieved reading).want =
    (worked.wanted reading).want \ (worked.relieved reading).shed.toFinset := rfl

theorem shed_subset :
    (worked.relieved reading).shed.toFinset ⊆ (worked.wanted reading).kept :=
  (pressAtPass_spec ..).2.1

/-- The slots the reckoning comes to. -/
theorem card_counted : (worked.counted reading).card = (worked.relieved reading).occupied := by
  have apart : Disjoint (worked.relieved reading).want
      ((selfList reading.fdb worked.anat.card).filter fun mac =>
        mac ∉ (worked.wanted reading).want ∧ mac ∉ worked.owned) := by
    refine Finset.disjoint_left.mpr fun mac wanted foreign => ?_
    rw [relieved_want] at wanted
    exact (Finset.mem_filter.mp foreign).2.1 (Finset.mem_sdiff.mp wanted).1
  have fewer : (worked.relieved reading).shed.toFinset ⊆ (worked.wanted reading).want :=
    shed_subset.trans kept_facts.1
  have once : (worked.relieved reading).shed.toFinset.card = (worked.relieved reading).shed.length :=
    List.toFinset_card_of_nodup (pressAtPass_spec ..).1
  have few := Finset.card_le_card fewer
  have occupied : (worked.relieved reading).occupied = (worked.wanted reading).want.card +
      ((selfList reading.fdb worked.anat.card).filter fun mac =>
        mac ∉ (worked.wanted reading).want ∧ mac ∉ worked.owned).card -
        (worked.relieved reading).shed.length := rfl
  rw [Worked.counted, Finset.card_union_of_disjoint apart, relieved_want,
    Finset.card_sdiff_of_subset fewer, occupied]
  omega

variable {course : List Worked} {own : Index → Finset Mac}

/-- What an uplink leaves at its own interface is counted. -/
theorem leftAt_subset_counted (nodup : (course.map (·.anat.dev)).Nodup) (member : worked ∈ course)
    (shown : own worked.anat.dev ⊆ selfList reading.fdb worked.anat.card) :
    leftAt reading course own worked.anat.dev ⊆ worked.counted reading := by
  rw [leftAt_of_mem nodup member]
  intro mac leaves
  rw [Worked.counted, Finset.mem_union, Finset.mem_filter]
  rcases Finset.mem_union.mp leaves with stays | brought
  · obtain ⟨given, notTaken⟩ := Finset.mem_sdiff.mp stays
    rw [Worked.takes, Finset.mem_sdiff, not_and_not_right] at notTaken
    by_cases wanted : mac ∈ (worked.relieved reading).want
    · exact .inl wanted
    · have foreign : mac ∉ worked.owned := fun owned => wanted (notTaken owned)
      refine .inr ⟨shown given, fun inWant => ?_, foreign⟩
      -- wanted and not left wanted is surrendered, so it was kept and on the note
      rw [relieved_want, Finset.mem_sdiff, not_and_not_right] at wanted
      exact foreign (kept_facts.2 (shed_subset (wanted inWant)))
  · rw [Worked.brings, Filters.brings] at brought
    split at brought
    · exact .inl (Finset.mem_sdiff.mp brought).1
    · simp at brought

theorem mem_left (feeds : worked.anat.card ∈ reading.topo.filterChain worked.anat.dev) :
    mac ∈ worked.left reading course own ↔
      mac ∈ leftAt reading course own worked.anat.dev ∨ mac ∈ worked.besides reading course own := by
  rw [Worked.left, Worked.besides, Topology.mem_held, Topology.mem_held]
  constructor
  · rintro ⟨source, passes, leaves⟩
    by_cases same : source = worked.anat.dev
    · exact .inl (same ▸ leaves)
    · exact .inr ⟨source, passes, by rwa [Function.update_of_ne same]⟩
  · rintro (leaves | ⟨source, passes, leaves⟩)
    · exact ⟨_, feeds, leaves⟩
    · by_cases same : source = worked.anat.dev
      · simp [same] at leaves
      · exact ⟨source, passes, by rwa [Function.update_of_ne same] at leaves⟩

/-- What ends up on the card uncounted is what the reckoning overlooks. -/
theorem left_sdiff_counted (nodup : (course.map (·.anat.dev)).Nodup) (member : worked ∈ course)
    (feeds : worked.anat.card ∈ reading.topo.filterChain worked.anat.dev)
    (shown : own worked.anat.dev ⊆ selfList reading.fdb worked.anat.card) :
    worked.left reading course own \ worked.counted reading =
      worked.overlooked reading course own := by
  ext mac
  rw [Finset.mem_sdiff, mem_left feeds, Worked.overlooked, Finset.mem_filter]
  constructor
  · rintro ⟨leaves, uncounted⟩
    have elsewhere := leaves.resolve_left fun here =>
      uncounted (leftAt_subset_counted nodup member shown here)
    rw [Worked.counted, Finset.mem_union, Finset.mem_filter, not_or] at uncounted
    refine ⟨elsewhere, uncounted.1, ?_⟩
    by_cases onDump : mac ∈ selfList reading.fdb worked.anat.card
    · by_contra neither
      rw [not_or, not_not] at neither
      refine uncounted.2 ⟨onDump, fun inWant => ?_, neither.2⟩
      have notLeft := uncounted.1
      rw [relieved_want, Finset.mem_sdiff, not_and_not_right] at notLeft
      exact neither.2 (kept_facts.2 (shed_subset (notLeft inWant)))
    · exact .inl onDump
  · rintro ⟨elsewhere, unwanted, missed⟩
    refine ⟨.inr elsewhere, ?_⟩
    rw [Worked.counted, Finset.mem_union, Finset.mem_filter, not_or]
    refine ⟨unwanted, ?_⟩
    rintro ⟨onDump, -, foreign⟩
    rcases missed with notShown | owned
    · exact notShown onDump
    · exact foreign owned

/-- Either the card is within its allowance, or nothing this uplink keeps is on it. -/
def Worked.Spared (reading : Reading) (worked : Worked) (entries : Finset Mac) : Prop :=
  entries.card + headroom (worked.limit reading) ≤ worked.limit reading ∨
    Disjoint (worked.relieved reading).kept entries

/-- What the reckoning of an uplink that keeps something overlooks fits into the room it
leaves and the slots it counted that come free. -/
def Worked.Accounts (reading : Reading) (course : List Worked) (own : Index → Finset Mac)
    (worked : Worked) : Prop :=
  Disjoint (worked.relieved reading).kept (worked.left reading course own) ∨
    (worked.overlooked reading course own).card ≤
      worked.spare reading + (worked.counted reading \ worked.left reading course own).card

theorem spared_iff_accounts (nodup : (course.map (·.anat.dev)).Nodup) (member : worked ∈ course)
    (feeds : worked.anat.card ∈ reading.topo.filterChain worked.anat.dev)
    (shown : own worked.anat.dev ⊆ selfList reading.fdb worked.anat.card) :
    worked.Spared reading (worked.left reading course own) ↔ worked.Accounts reading course own := by
  rw [Worked.Spared, Worked.Accounts, or_comm]
  refine or_congr_right' fun keeps => ?_
  have fits : (worked.relieved reading).occupied + headroom (worked.limit reading) ≤
      worked.limit reading := by
    refine (pressAtPass_spec ..).2.2.resolve_left fun all => keeps ?_
    have none : (worked.relieved reading).kept = ∅ := Finset.sdiff_eq_empty_iff_subset.mpr all
    rw [none]
    exact Finset.disjoint_empty_left _
  have first := Finset.card_sdiff_add_card (worked.left reading course own) (worked.counted reading)
  have second := Finset.card_sdiff_add_card (worked.counted reading) (worked.left reading course own)
  rw [Finset.union_comm, left_sdiff_counted nodup member feeds shown, card_counted] at first
  rw [Worked.spare]
  omega

end Counting

end SriovMacSync
