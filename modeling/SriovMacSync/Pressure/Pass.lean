import SriovMacSync.Sync.Decide

namespace SriovMacSync

open Data

/-! # The pass's arm of the pressure valve

`Syncer.pressAtPass` lists what the valve surrenders.  The loop itself carries
two sets and two counters, one of which counts down and may not pass zero. -/

/-- What the valve's loop carries. -/
structure Pressing where
  occupied : Nat
  want : Finset Mac
  kept : Finset Mac
  shed : Nat := 0
deriving DecidableEq

/-- One turn of the loop; counting down from zero has no result. -/
def Pressing.surrender (mac : Mac) (now : Pressing) : Option Pressing :=
  if now.occupied = 0 then none
  else some {
    occupied := now.occupied - 1
    want := now.want \ {mac}
    kept := now.kept \ {mac}
    shed := now.shed + 1 }

def pressing (reserve limit : Nat) : List (Nat × Mac) → Pressing → Option Pressing
  | [], now => some now
  | (_, mac) :: rest, now =>
      if now.occupied + reserve ≤ limit then some now
      else do
        let next ← now.surrender mac
        pressing reserve limit rest next

/-- `press_at_pass` as the loop it is, for the card's own limit. -/
def Syncer.pressAtPassChecked (syncer : Syncer) (dev card : Name) (occupied : Nat)
    (want kept : Finset Mac) : Option Pressing :=
  let limit := syncer.limitOf card
  let reserve := headroom limit
  let start : Pressing := { occupied, want, kept }
  if kept = ∅ ∨ occupied + reserve ≤ limit then some start
  else
    pressing reserve limit
      (bySilence ((ascending kept).map fun mac => (syncer.stampOf dev mac, mac))) start

/-- The order the valve surrenders in. -/
def Quieter (first second : Nat × Mac) : Prop :=
  first.1 < second.1 ∨ first.1 = second.1 ∧ first.2 < second.2

section Order

/-- `bySilence` sorts by stamp, then address. -/
theorem pairwise_bySilence (candidates : List (Nat × Mac)) :
    (bySilence candidates).Pairwise fun first second =>
      first.1 < second.1 ∨ (first.1 = second.1 ∧ first.2 ≤ second.2) := by
  have total : Std.Total fun first second : Nat × Mac =>
      first.1 < second.1 ∨ (first.1 = second.1 ∧ first.2 ≤ second.2) := by
    refine ⟨fun first second => ?_⟩
    have stamps := Nat.lt_trichotomy first.1 second.1
    have addresses := le_total first.2 second.2
    grind
  have transitive : IsTrans (Nat × Mac) fun first second =>
      first.1 < second.1 ∨ (first.1 = second.1 ∧ first.2 ≤ second.2) := by
    refine ⟨fun first second third early late => ?_⟩
    rcases early with early | ⟨same, early⟩ <;> rcases late with late | ⟨same', late⟩
    · exact .inl (early.trans late)
    · exact .inl (same' ▸ early)
    · exact .inl (same ▸ late)
    · exact .inr ⟨same.trans same', early.trans late⟩
  exact List.pairwise_insertionSort _ candidates

variable {stampOf : Mac → Nat} {macs : List Mac}

/-- Each address is a candidate once, under its own stamp. -/
theorem bySilence_stamped :
    ∀ candidate ∈ bySilence (macs.map fun mac => (stampOf mac, mac)),
      candidate = (stampOf candidate.2, candidate.2) := by
  intro candidate listed
  obtain ⟨mac, -, rfl⟩ := List.mem_map.mp ((bySilence_perm _).subset listed)
  rfl

theorem map_bySilence_perm :
    ((bySilence (macs.map fun mac => (stampOf mac, mac))).map (·.2)).Perm macs := by
  have sorted := (bySilence_perm (macs.map fun mac => (stampOf mac, mac))).map (·.2)
  simpa [Function.comp_def] using sorted

/-- What the first candidates are taken before what is left. -/
theorem take_quieter {count : Nat} {gone left : Mac}
    (taken : gone ∈ ((bySilence (macs.map fun mac => (stampOf mac, mac))).map (·.2)).take count)
    (listed : left ∈ macs)
    (spared : left ∉ ((bySilence (macs.map fun mac => (stampOf mac, mac))).map (·.2)).take count) :
    Quieter (stampOf gone, gone) (stampOf left, left) := by
  set order := bySilence (macs.map fun mac => (stampOf mac, mac)) with order_def
  have sorted := pairwise_bySilence (macs.map fun mac => (stampOf mac, mac))
  rw [← order_def, ← List.take_append_drop count order, List.pairwise_append] at sorted
  have left_order : left ∈ order.map (·.2) := map_bySilence_perm.symm.subset listed
  rw [← List.take_append_drop count (order.map (·.2)), List.mem_append] at left_order
  have left_drop := left_order.resolve_left spared
  rw [← List.map_take, List.mem_map] at taken
  rw [← List.map_drop, List.mem_map] at left_drop
  obtain ⟨first, first_mem, rfl⟩ := taken
  obtain ⟨second, second_mem, rfl⟩ := left_drop
  have before := sorted.2.2 first first_mem second second_mem
  have apart : first.2 ≠ second.2 := by
    intro same
    rw [← same, ← List.map_take] at spared
    exact spared (List.mem_map_of_mem first_mem)
  rw [bySilence_stamped first (List.mem_of_mem_take first_mem),
    bySilence_stamped second (List.mem_of_mem_drop second_mem)] at before
  exact before.imp id fun tie => ⟨tie.1, lt_of_le_of_ne tie.2 apart⟩

end Order

section Loop

/-- What the valve surrenders is the shortest head of its order that suffices. -/
theorem surrender_eq_take {reserve limit : Nat} {candidates : List (Nat × Mac)} {occupied : Nat}
    (covered : candidates.length ≤ occupied) :
    surrender reserve limit candidates occupied =
      (candidates.map (·.2)).take (occupied + reserve - limit) := by
  induction candidates generalizing occupied with
  | nil => simp [surrender]
  | cons first rest ih =>
      rw [List.length_cons] at covered
      rw [surrender]
      split
      · rename_i fits
        rw [Nat.sub_eq_zero_of_le fits, List.take_zero]
      · rename_i crowded
        have excess : occupied + reserve - limit = occupied - 1 + reserve - limit + 1 := by omega
        rw [ih (by omega), List.map_cons, excess, List.take_succ_cons]

/-- The loop takes exactly what the valve surrenders out of both sets and never
counts below zero. -/
theorem pressing_spec {reserve limit : Nat} {candidates : List (Nat × Mac)} {now : Pressing}
    (covered : candidates.length ≤ now.occupied) :
    pressing reserve limit candidates now =
      some {
        occupied := now.occupied - (surrender reserve limit candidates now.occupied).length
        want := now.want \ (surrender reserve limit candidates now.occupied).toFinset
        kept := now.kept \ (surrender reserve limit candidates now.occupied).toFinset
        shed := now.shed + (surrender reserve limit candidates now.occupied).length } := by
  induction candidates generalizing now with
  | nil => simp [pressing, surrender]
  | cons first rest ih =>
      rw [List.length_cons] at covered
      rw [pressing, surrender]
      split
      · simp
      · have positive : now.occupied ≠ 0 := by omega
        rw [Pressing.surrender, if_neg positive]
        change pressing reserve limit rest _ = _
        rw [ih (by simp only; omega)]
        simp only [List.length_cons, List.toFinset_cons, sdiff_sdiff, Finset.insert_eq,
          Finset.sup_eq_union, Option.some.injEq, Pressing.mk.injEq, true_and]
        omega

end Loop

variable {syncer : Syncer} {dev card : Name} {occupied : Nat} {want kept : Finset Mac}

/-- The counted loop and the list of what the valve surrenders agree. -/
theorem pressAtPassChecked_spec (counted : kept.card ≤ occupied) :
    syncer.pressAtPassChecked dev card occupied want kept =
      some {
        occupied := occupied - (syncer.pressAtPass dev card occupied kept).length
        want := want \ (syncer.pressAtPass dev card occupied kept).toFinset
        kept := kept \ (syncer.pressAtPass dev card occupied kept).toFinset
        shed := (syncer.pressAtPass dev card occupied kept).length } := by
  have covered : (bySilence ((ascending kept).map fun mac =>
      (syncer.stampOf dev mac, mac))).length ≤ occupied := by
    rw [(bySilence_perm _).length_eq, List.length_map, length_ascending]
    exact counted
  rw [Syncer.pressAtPassChecked]
  split
  · rename_i early
    have nothing : syncer.pressAtPass dev card occupied kept = [] := by
      rw [Syncer.pressAtPass, surrender_eq_take covered]
      rcases early with none_kept | fits
      · have idle : ascending kept = [] := List.eq_nil_of_length_eq_zero (by simp [none_kept])
        simp [idle, bySilence]
      · rw [Nat.sub_eq_zero_of_le fits, List.take_zero]
    simp [nothing]
  · rw [pressing_spec covered]
    simp [Syncer.pressAtPass]

/-- The valve of a pass sheds exactly as much as it must, longest silent first,
out of both sets alike. -/
theorem valve_sheds_what_it_must (keeps : kept ⊆ want) (counted : want.card ≤ occupied) :
    ∃ shed ⊆ kept,
      syncer.pressAtPassChecked dev card occupied want kept =
        some { occupied := occupied - shed.card, want := want \ shed, kept := kept \ shed,
               shed := shed.card } ∧
      shed.card = min kept.card
        (occupied + headroom (syncer.limitOf card) - syncer.limitOf card) ∧
      shed.card ≤ occupied ∧
      ∀ gone ∈ shed, ∀ left ∈ kept \ shed,
        Quieter (syncer.stampOf dev gone, gone) (syncer.stampOf dev left, left) := by
  have kept_counted : kept.card ≤ occupied := (Finset.card_le_card keeps).trans counted
  have covered : (bySilence ((ascending kept).map fun mac =>
      (syncer.stampOf dev mac, mac))).length ≤ occupied := by
    rw [(bySilence_perm _).length_eq, List.length_map, length_ascending]
    exact kept_counted
  have taken : syncer.pressAtPass dev card occupied kept = _ := surrender_eq_take covered
  have order : ((bySilence ((ascending kept).map fun mac =>
      (syncer.stampOf dev mac, mac))).map (·.2)).Perm (ascending kept) := map_bySilence_perm
  have distinct : (syncer.pressAtPass dev card occupied kept).Nodup :=
    taken ▸ (order.nodup_iff.mpr (nodup_ascending kept)).sublist (List.take_sublist ..)
  have size := List.toFinset_card_of_nodup distinct
  have amount : (syncer.pressAtPass dev card occupied kept).length = min kept.card
      (occupied + headroom (syncer.limitOf card) - syncer.limitOf card) := by
    rw [taken, List.length_take, order.length_eq, length_ascending, min_comm]
  refine ⟨(syncer.pressAtPass dev card occupied kept).toFinset, ?_, ?_, size.trans amount, ?_, ?_⟩
  · intro mac shed
    rw [List.mem_toFinset, taken] at shed
    exact mem_ascending.mp (order.subset (List.mem_of_mem_take shed))
  · rw [pressAtPassChecked_spec kept_counted, size]
  · rw [size, amount]
    exact (min_le_left ..).trans kept_counted
  · intro gone shed left spared
    rw [List.mem_toFinset, taken] at shed
    rw [Finset.mem_sdiff, List.mem_toFinset, taken] at spared
    exact take_quieter shed (mem_ascending.mpr spared.1) spared.2

def silentGuest : Mac := ⟨2, 0, 0, 0, 0, 2⟩

def laterGuest : Mac := ⟨2, 0, 0, 0, 0, 1⟩

def talkingGuest : Mac := ⟨2, 0, 0, 0, 0, 3⟩

/-- A card of eight, and two guests last heard at different times. -/
def crowdedSyncer : Syncer where
  pairs := [⟨"nic1", "br0"⟩]
  maxMacs := 8
  carriedPorts dev :=
    if dev = "nic1" then some (AList.insert laterGuest (4, 7) (AList.singleton silentGuest (4, 3)))
    else none

theorem valve_sheds_what_it_must_crowded :
    ∃ shed ⊆ ({silentGuest, laterGuest} : Finset Mac),
      crowdedSyncer.pressAtPassChecked "nic1" "nic1" 5 {silentGuest, laterGuest, talkingGuest}
          {silentGuest, laterGuest} =
        some {
          occupied := 5 - shed.card
          want := {silentGuest, laterGuest, talkingGuest} \ shed
          kept := {silentGuest, laterGuest} \ shed
          shed := shed.card } ∧
      shed = {silentGuest} := by
  obtain ⟨shed, within, run, amount, -, order⟩ :=
    @valve_sheds_what_it_must crowdedSyncer "nic1" "nic1" 5
      {silentGuest, laterGuest, talkingGuest} {silentGuest, laterGuest} (by decide) (by decide)
  have one : shed.card = 1 := amount.trans (by decide)
  refine ⟨shed, within, run, ?_⟩
  obtain ⟨gone, rfl⟩ := Finset.card_eq_one.mp one
  have among := within (Finset.mem_singleton_self gone)
  rw [Finset.mem_insert, Finset.mem_singleton] at among
  rcases among with rfl | rfl
  · rfl
  · have late := order _ (Finset.mem_singleton_self _) silentGuest (by decide)
    exact absurd late (by unfold Quieter; decide)

end SriovMacSync
