import SriovMacSync.Cards.Declared

namespace SriovMacSync.Cards

open Data Netlink Interaction Interaction.Action Sysfs

/-! # The limits follow the drivers

After the cards were gone through, each uplink's list is limited by what its card's driver
holds of it, and the number to warn at is the least of them. -/

section Carriers

variable {picture : Picture} {devs : List Name} {name : Name}

theorem filterCarriers_append (dev : Name) :
    filterCarriers picture (devs ++ [dev]) =
      if carrierName picture dev ∈ filterCarriers picture devs then filterCarriers picture devs
      else filterCarriers picture devs ++ [carrierName picture dev] := by
  rw [filterCarriers, filterCarriers, List.foldl_append]
  rfl

theorem mem_filterCarriers :
    name ∈ filterCarriers picture devs ↔ ∃ dev ∈ devs, carrierName picture dev = name := by
  induction devs using List.reverseRecOn with
  | nil => simp [filterCarriers]
  | append_singleton devs dev ih =>
      have either : (∃ other ∈ devs ++ [dev], carrierName picture other = name) ↔
          name ∈ filterCarriers picture devs ∨ name = carrierName picture dev := by
        simp [ih, or_and_right, exists_or, eq_comm]
      rw [filterCarriers_append, either]
      split
      · rename_i already
        constructor
        · exact .inl
        · intro found
          rcases found with earlier | rfl
          · exact earlier
          · exact already
      · rw [List.mem_append, List.mem_singleton]

theorem filterCarriers_nodup : (filterCarriers picture devs).Nodup := by
  induction devs using List.reverseRecOn with
  | nil => exact .nil
  | append_singleton devs dev ih =>
      rw [filterCarriers_append]
      split
      · exact ih
      · rename_i fresh
        simpa using List.Nodup.concat fresh ih

end Carriers

section Numbers

variable {limits : List (Name × Nat)} {card : Name}

theorem numberFor_cons (name : Name) (limit : Option Nat) :
    numberFor ((limit.map (name, ·)).toList ++ limits) card =
      if name = card then limit.or (numberFor limits card) else numberFor limits card := by
  cases limit with
  | none => simp
  | some number =>
      by_cases same : name = card <;> simp [numberFor, same]

theorem leastOf_spec (first : ∀ name number, (name, number) ∈ limits → numberFor limits name = some number) :
    IsLeast {number | ∃ name, numberFor limits name = some number} (leastOf limits) ∨
      (∀ name, numberFor limits name = none) ∧ leastOf limits = assumed := by
  cases least : (limits.map (·.2)).min? with
  | none =>
      rw [List.min?_eq_none_iff, List.map_eq_nil_iff] at least
      subst least
      exact .inr ⟨fun name => rfl, rfl⟩
  | some number =>
      obtain ⟨member, atMost⟩ := List.min?_eq_some_iff.mp least
      obtain ⟨⟨name, _⟩, listed, rfl⟩ := List.mem_map.mp member
      rw [leastOf, least]
      refine .inl ⟨⟨name, first name _ listed⟩, ?_⟩
      intro other has
      obtain ⟨name, has⟩ := has
      obtain ⟨⟨_, _⟩, found, rfl⟩ := Option.map_eq_some_iff.mp has
      exact atMost _ (List.mem_map_of_mem (List.mem_of_find?_eq_some found))

end Numbers

section Steady

variable {picture : Picture} {told : Told}

/-- A card's number in a reading: what speaks for it declares it, and a card absent from the
reading keeps its last number. -/
def Given (picture : Picture) (told : Told) (before : Name → Option Nat) (card : Name)
    (limit : Option Nat) : Prop :=
  match (picture.byName card).bind (nodeAt picture) with
  | some link => ∃ number, limit = some number ∧ Declares picture told link number
  | none => limit = before card

theorem sayOnce_steady {card : Name} {driver : Option String} {filter : Option Filter}
    {standing : Option Standing} {books : Books} {said : List Message} :
    Safe (steady picture told) (sayOnce card driver filter standing)
      (fun _ books' _ => books'.syncer = books.syncer) books said := by
  unfold sayOnce
  cases driver with
  | none => exact rfl
  | some driver =>
      rw [safe_bind, safe_get]
      split
      · exact rfl
      · rw [safe_bind, safe_modify, safe_bind, ask, safe_ask]
        exact ⟨trivial, fun _ _ _ => rfl⟩

theorem limitFor_steady {card : Name} {books : Books} {said : List Message} :
    Safe (steady picture told) (limitFor picture card)
      (fun limit books' _ => Given picture told books.syncer.maxMacsPerCard card limit ∧
        books'.syncer = books.syncer) books said := by
  unfold limitFor Given
  cases found : (picture.byName card).bind (nodeAt picture) with
  | none => exact ⟨rfl, rfl⟩
  | some link =>
      obtain ⟨index, -, here⟩ := Option.bind_eq_some_iff.mp found
      refine safe_bind.mpr ((cardFilter_steady (nodeAt_spec here).1).mono ?_)
      intro out books' said' filtered
      obtain ⟨declared, rfl, rfl⟩ := filtered
      refine safe_bind.mpr (sayOnce_steady.mono ?_)
      intro _ books'' _ same
      exact ⟨⟨_, rfl, declared⟩, same⟩

/-- What the numbers of a list of cards are. -/
structure Numbered (picture : Picture) (told : Told) (before : Name → Option Nat) (cards : List Name)
    (limits : List (Name × Nat)) : Prop where
  given : ∀ card ∈ cards, Given picture told before card (numberFor limits card)
  only : ∀ card, card ∉ cards → numberFor limits card = none
  first : ∀ card number, (card, number) ∈ limits → numberFor limits card = some number

theorem Numbered.cons {before : Name → Option Nat} {card : Name} {cards : List Name}
    {limits : List (Name × Nat)} {limit : Option Nat} (numbered : Numbered picture told before cards limits)
    (fresh : card ∉ cards) (given : Given picture told before card limit) :
    Numbered picture told before (card :: cards) ((limit.map (card, ·)).toList ++ limits) := by
  have own : numberFor ((limit.map (card, ·)).toList ++ limits) card = limit := by
    rw [numberFor_cons, if_pos rfl, numbered.only card fresh, Option.or_none]
  have others : ∀ other, other ≠ card →
      numberFor ((limit.map (card, ·)).toList ++ limits) other = numberFor limits other := by
    intro other apart
    rw [numberFor_cons, if_neg (Ne.symm apart)]
  refine ⟨?_, ?_, ?_⟩
  · intro other member
    rcases List.mem_cons.mp member with rfl | later
    · rwa [own]
    · rw [others other fun same => fresh (same ▸ later)]
      exact numbered.given other later
  · intro other absent
    rw [List.mem_cons, not_or] at absent
    rw [others other absent.1]
    exact numbered.only other absent.2
  · intro other number listed
    rcases List.mem_append.mp listed with here | later
    · obtain ⟨held, same, both⟩ := Option.map_eq_some_iff.mp (Option.mem_toList.mp here)
      cases both
      rw [own, same]
    · have known := numbered.first other number later
      rw [others other, known]
      rintro rfl
      rw [numbered.only other fresh] at known
      cases known

theorem limitsFor_steady {cards : List Name} (distinct : cards.Nodup) {books : Books} {said : List Message} :
    Safe (steady picture told) (limitsFor picture cards)
      (fun limits books' _ => Numbered picture told books.syncer.maxMacsPerCard cards limits ∧
        books'.syncer = books.syncer) books said := by
  induction cards generalizing books said with
  | nil => exact ⟨⟨by simp, fun _ _ => rfl, by simp⟩, rfl⟩
  | cons card cards ih =>
      obtain ⟨fresh, distinct⟩ := List.nodup_cons.mp distinct
      refine safe_bind.mpr (limitFor_steady.mono ?_)
      intro limit books' said' known
      obtain ⟨given, same⟩ := known
      refine safe_bind.mpr ((ih distinct).mono ?_)
      intro limits books'' said'' known
      obtain ⟨numbered, later⟩ := known
      rw [same] at numbered later
      exact ⟨numbered.cons fresh given, later⟩

/-- The memory of a process after it went through the cards. -/
structure Settled (picture : Picture) (told : Told) (before after : Syncer) : Prop where
  /-- nothing else of the memory changed -/
  rest : after = { before with maxMacs := after.maxMacs, maxMacsPerCard := after.maxMacsPerCard }
  declared : ∀ pair ∈ before.pairs, ∀ dev card, picture.byName pair.dev = some dev →
    nodeAt picture (picture.topology.filterCarrier dev) = some card →
    picture.byName card.name = some card.index →
      Declares picture told card (after.limitOf card.name)
  /-- a card absent from the reading keeps its number -/
  kept : ∀ pair ∈ before.pairs, (picture.byName (carrierName picture pair.dev)).bind (nodeAt picture) = none →
    after.maxMacsPerCard (carrierName picture pair.dev) = before.maxMacsPerCard (carrierName picture pair.dev)
  only : ∀ card number, after.maxMacsPerCard card = some number →
    ∃ pair ∈ before.pairs, carrierName picture pair.dev = card
  least : IsLeast {number | ∃ card, after.maxMacsPerCard card = some number} after.maxMacs ∨
    (∀ card, after.maxMacsPerCard card = none) ∧ after.maxMacs = assumed

theorem Numbered.settled {before : Syncer} {limits : List (Name × Nat)}
    (numbered : Numbered picture told before.maxMacsPerCard
      (filterCarriers picture (before.pairs.map (·.dev))) limits) :
    Settled picture told before { before with maxMacs := leastOf limits, maxMacsPerCard := numberFor limits } := by
  have carried : ∀ pair ∈ before.pairs,
      carrierName picture pair.dev ∈ filterCarriers picture (before.pairs.map (·.dev)) :=
    fun pair watched => mem_filterCarriers.mpr ⟨pair.dev, List.mem_map_of_mem watched, rfl⟩
  refine ⟨rfl, ?_, ?_, ?_, leastOf_spec numbered.first⟩
  · intro pair watched dev card known carrier named
    have called : carrierName picture pair.dev = card.name := by
      simp [carrierName, known, carrier]
    have given := numbered.given _ (carried pair watched)
    have here : nodeAt picture card.index = some card := by
      rw [(nodeAt_spec carrier).2]
      exact carrier
    rw [called, Given, named, Option.bind_some, here] at given
    obtain ⟨number, same, declares⟩ := given
    simpa [Syncer.limitOf, same] using declares
  · intro pair watched absent
    have given := numbered.given _ (carried pair watched)
    rwa [Given, absent] at given
  · intro card number held
    by_contra unlisted
    have none := numbered.only card fun listed => unlisted (by
      obtain ⟨dev, member, same⟩ := mem_filterCarriers.mp listed
      obtain ⟨pair, watched, rfl⟩ := List.mem_map.mp member
      exact ⟨pair, watched, same⟩)
    have told := none.symm.trans held
    cases told

end Steady

end SriovMacSync.Cards
