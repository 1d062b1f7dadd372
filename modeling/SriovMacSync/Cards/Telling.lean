import Mathlib.Data.List.Chain
import SriovMacSync.Cards.Limits
import SriovMacSync.Interaction.Execution

namespace SriovMacSync.Cards

open Data Netlink Interaction Interaction.Action Sysfs

/-! # What a process says of the cards

Over the life of a process, through any readings and whatever the physical functions answer
from one question to the next, each card is said once, and the number to warn at is said
when it changes. -/

/-- The number a message warns at. -/
def Message.warned : Message → Option Nat
  | .warnAt limit => some limit
  | _ => none

/-- Surroundings that answer anything and write down what is said. -/
def telling : Environment CardCall CardReply (List Message) where
  permits _ _ := True
  answers said request _ after :=
    match request with
    | .vfInfoOf _ => after = said
    | .say message => after = said ++ [message]

section Bounded

variable {picture : Picture} {books : Books} {said : List Message}

/-- Any number of this filter is one a card can hold. -/
def Bounded (filter : Option Filter) : Prop :=
  ∀ given ∈ filter, ∀ number, given.holds = some number → 0 < number ∧ number ≤ 128

theorem bounded_filterOf {driver : String} {vf trusted : Bool} : Bounded (filterOf driver vf trusted) :=
  fun _ given _ holds => filterOf_bounds given holds

theorem holdsOf_bounded {driver : Option String} {filter : Option Filter} (bounded : Bounded filter) :
    0 < holdsOf driver filter ∧ holdsOf driver filter ≤ 128 := by
  unfold holdsOf
  split
  · rename_i given
    split
    · decide
    · decide
    · cases holds : given.holds with
      | none => decide
      | some number => exact bounded given rfl number holds
  · decide

theorem standingOf_telling {node : Node} :
    Safe telling (standingOf picture node) (fun _ books' said' => books' = books ∧ said' = said) books said := by
  unfold standingOf
  cases node.physfn with
  | none => exact ⟨rfl, rfl⟩
  | some pf =>
      cases node.vfNumber with
      | none => exact ⟨rfl, rfl⟩
      | some number =>
          rw [safe_bind, ask, safe_ask]
          refine ⟨trivial, ?_⟩
          intro reply after answered
          cases answered
          cases reply.toOption.bind (·.find? (·.vf = number)) with
          | none => exact ⟨rfl, rfl⟩
          | some info => exact ⟨rfl, rfl⟩

theorem judge_telling {node : Node} {driver : String} :
    Safe telling (judge picture node driver)
      (fun out books' said' => Bounded out.1 ∧ books' = books ∧ said' = said) books said := by
  unfold judge
  split
  · exact ⟨bounded_filterOf, rfl, rfl⟩
  · refine safe_bind.mpr (standingOf_telling.mono ?_)
    intro standing books' said' same
    exact ⟨bounded_filterOf, same⟩

theorem Bounded.orSmaller {best : Option Found} {driver : String} {filter : Option Filter}
    {standing : Option Standing} (bounded : Bounded (best.map (·.filter))) (new : Bounded filter) :
    Bounded ((Found.orSmaller best driver filter standing).map (·.filter)) := by
  unfold Found.orSmaller
  split
  · exact bounded
  · split
    · exact new
    · split
      · exact new
      · exact bounded

theorem smallestFrom_telling {name : Name} {fuel : Nat} {stack : List Index} {seen : Finset Index}
    {best : Option Found} (bounded : Bounded (best.map (·.filter))) :
    Safe telling (smallestFrom picture name fuel stack seen best)
      (fun best books' said' => Bounded (best.map (·.filter)) ∧ books' = books ∧ said' = said) books said := by
  induction fuel generalizing stack seen best with
  | zero => exact ⟨bounded, rfl, rfl⟩
  | succ fuel ih =>
      cases stack with
      | nil => exact ⟨bounded, rfl, rfl⟩
      | cons current stack =>
          rw [smallestFrom]
          split
          · exact ih bounded
          · split
            · exact ih bounded
            · split
              · refine safe_bind.mpr (judge_telling.mono ?_)
                intro out books' said' judged
                obtain ⟨new, rfl, rfl⟩ := judged
                exact ih (bounded.orSmaller new)
              · exact ih bounded

theorem cardFilter_telling {card : Node} :
    Safe telling (cardFilter picture card)
      (fun out books' said' => Bounded out.2.1 ∧ books' = books ∧ said' = said) books said := by
  have nothing : Bounded none := fun given none => by cases none
  unfold cardFilter
  split
  · exact safe_bind.mpr (judge_telling.mono fun _ _ _ judged => judged)
  · split
    · exact ⟨nothing, rfl, rfl⟩
    · refine safe_bind.mpr (Safe.mono (smallestFrom_telling ?_) ?_)
      · exact nothing
      intro best books' said' searched
      cases best with
      | none => exact searched
      | some found => exact searched

end Bounded

section Once

variable {books : Books} {said : List Message}

/-- Each card was said once at most, and is known to have been. -/
structure Once (said : List Message) (known : Finset Name) : Prop where
  once : (said.filterMap Message.card).Nodup
  known : ∀ card ∈ said.filterMap Message.card, card ∈ known

theorem messageOf_card (card : Name) (driver : String) (filter : Option Filter) (standing : Option Standing) :
    (messageOf card driver filter standing).card = some card := by
  unfold messageOf
  split
  · rfl
  · split
    · rfl
    · rfl
    · split <;> rfl

theorem messageOf_warned (card : Name) (driver : String) (filter : Option Filter) (standing : Option Standing) :
    (messageOf card driver filter standing).warned = none := by
  unfold messageOf
  split
  · rfl
  · split
    · rfl
    · rfl
    · split <;> rfl

theorem Once.say {known : Finset Name} {message : Message} {card : Name} (once : Once said known)
    (about : message.card = some card) (fresh : card ∉ known) : Once (said ++ [message]) (insert card known) := by
  have more : (said ++ [message]).filterMap Message.card = said.filterMap Message.card ++ [card] := by
    simp [about]
  refine ⟨?_, ?_⟩
  · rw [more]
    simpa using List.Nodup.concat (fun listed => fresh (once.known card listed)) once.once
  · intro other listed
    rw [more, List.mem_append, List.mem_singleton] at listed
    rw [Finset.mem_insert]
    rcases listed with earlier | last
    · exact .inr (once.known other earlier)
    · exact .inl last

theorem Once.warn {known : Finset Name} (once : Once said known) (limit : Nat) :
    Once (said ++ [.warnAt limit]) known := by
  have same : (said ++ [Message.warnAt limit]).filterMap Message.card = said.filterMap Message.card := by
    rw [List.filterMap_append]
    exact List.append_nil _
  exact ⟨same ▸ once.once, same ▸ once.known⟩

/-- What going through the cards leaves as it was, and what it keeps in order. -/
structure Through (books : Books) (said : List Message) (books' : Books) (said' : List Message) : Prop where
  syncer : books'.syncer = books.syncer
  once : Once said books.said → Once said' books'.said
  warned : said'.filterMap Message.warned = said.filterMap Message.warned

theorem Through.refl : Through books said books said := ⟨rfl, id, rfl⟩

theorem Through.trans {books' books'' : Books} {said' said'' : List Message}
    (first : Through books said books' said') (second : Through books' said' books'' said'') :
    Through books said books'' said'' :=
  ⟨second.syncer.trans first.syncer, fun once => second.once (first.once once),
    second.warned.trans first.warned⟩

theorem sayOnce_telling {card : Name} {driver : Option String} {filter : Option Filter}
    {standing : Option Standing} :
    Safe telling (sayOnce card driver filter standing)
      (fun _ books' said' => Through books said books' said') books said := by
  unfold sayOnce
  cases driver with
  | none => exact .refl
  | some driver =>
      rw [safe_bind, safe_get]
      split
      · exact .refl
      · rename_i fresh
        rw [safe_bind, safe_modify, safe_bind, ask, safe_ask]
        refine ⟨trivial, ?_⟩
        intro _ after written
        cases written
        refine ⟨rfl, fun once => once.say (messageOf_card ..) fresh, ?_⟩
        simp [messageOf_warned]

variable {picture : Picture}

theorem limitFor_telling {card : Name} :
    Safe telling (limitFor picture card)
      (fun limit books' said' => Through books said books' said' ∧
        ∀ number ∈ limit, books.syncer.maxMacsPerCard card = some number ∨ 0 < number ∧ number ≤ 128)
      books said := by
  unfold limitFor
  split
  · exact ⟨.refl, fun number held => .inl held⟩
  · refine safe_bind.mpr (cardFilter_telling.mono ?_)
    intro out books' said' filtered
    obtain ⟨bounded, rfl, rfl⟩ := filtered
    refine safe_bind.mpr (sayOnce_telling.mono ?_)
    intro _ books'' said'' through
    refine ⟨through, fun number held => .inr ?_⟩
    cases held
    exact holdsOf_bounded bounded

theorem limitsFor_telling {cards : List Name} :
    Safe telling (limitsFor picture cards)
      (fun limits books' said' => Through books said books' said' ∧
        ∀ card number, (card, number) ∈ limits →
          books.syncer.maxMacsPerCard card = some number ∨ 0 < number ∧ number ≤ 128)
      books said := by
  induction cards generalizing books said with
  | nil => exact ⟨.refl, fun _ _ listed => absurd listed List.not_mem_nil⟩
  | cons card cards ih =>
      refine safe_bind.mpr (limitFor_telling.mono ?_)
      intro limit books' said' known
      obtain ⟨first, held⟩ := known
      refine safe_bind.mpr (ih.mono ?_)
      intro limits books'' said'' known
      obtain ⟨second, rest⟩ := known
      refine ⟨first.trans second, ?_⟩
      intro other number listed
      rcases List.mem_append.mp listed with here | later
      · obtain ⟨own, got, both⟩ := Option.map_eq_some_iff.mp (Option.mem_toList.mp here)
        cases both
        exact held number got
      · rw [← first.syncer]
        exact rest other number later

end Once

section Life

/-- The numbers a process said it would warn at. -/
def warnings (said : List Message) : List Nat := said.filterMap Message.warned

/-- The numbers a process uses, and the one it said last. -/
structure Current (syncer : Syncer) (said : List Message) : Prop where
  changing : (assumed :: warnings said).IsChain (· ≠ ·)
  last : (assumed :: warnings said).getLast (List.cons_ne_nil _ _) = syncer.maxMacs
  positive : 0 < syncer.maxMacs
  bounded : syncer.maxMacs ≤ 128
  least : ∀ card number, syncer.maxMacsPerCard card = some number → syncer.maxMacs ≤ number ∧ number ≤ 128

/-- With a number of the operator's, it governs every card. -/
structure Fixed (syncer : Syncer) (said : List Message) : Prop where
  quiet : warnings said = []
  bare : ∀ card, syncer.maxMacsPerCard card = none

/-- The books of a process in order. -/
structure InOrder (maxSet : Bool) (books : Books) (said : List Message) : Prop where
  once : Once said books.said
  numbers : if maxSet then Fixed books.syncer said else Current books.syncer said

/-- The life of a process: it goes through the cards of one reading after another, and
between that does what leaves the numbers alone. -/
inductive Life (maxSet : Bool) : Books → List Message → Prop where
  | start {syncer : Syncer} (bare : ∀ card, syncer.maxMacsPerCard card = none)
      (unset : maxSet = false → syncer.maxMacs = assumed) : Life maxSet { syncer } []
  | reckon {books books' : Books} {said said' : List Message} (life : Life maxSet books said) (picture : Picture)
      (ran : Runs telling (applyCardLimits picture maxSet) books said ⟨⟩ books' said') :
      Life maxSet books' said'
  | work {books : Books} {said : List Message} (life : Life maxSet books said) {syncer : Syncer}
      (maxMacs : syncer.maxMacs = books.syncer.maxMacs)
      (maxMacsPerCard : syncer.maxMacsPerCard = books.syncer.maxMacsPerCard) :
      Life maxSet { books with syncer } said

variable {picture : Picture} {books : Books} {said : List Message} {limits : List (Name × Nat)}

theorem leastOf_bounds (bounded : ∀ card number, (card, number) ∈ limits → 0 < number ∧ number ≤ 128) :
    0 < leastOf limits ∧ leastOf limits ≤ 128 ∧
      ∀ card number, (card, number) ∈ limits → leastOf limits ≤ number := by
  unfold leastOf
  cases least : (limits.map (·.2)).min? with
  | none =>
      rw [List.min?_eq_none_iff, List.map_eq_nil_iff] at least
      subst least
      exact ⟨by decide, by decide, fun _ _ listed => absurd listed List.not_mem_nil⟩
  | some number =>
      obtain ⟨member, atMost⟩ := List.min?_eq_some_iff.mp least
      obtain ⟨⟨card, _⟩, listed, rfl⟩ := List.mem_map.mp member
      obtain ⟨positive, small⟩ := bounded card _ listed
      exact ⟨positive, small, fun other held listed => atMost held (List.mem_map_of_mem listed)⟩

theorem Current.held {after : Syncer}
    (bounded : ∀ card number, (card, number) ∈ limits → 0 < number ∧ number ≤ 128)
    (perCard : after.maxMacsPerCard = numberFor limits) (maxMacs : after.maxMacs = leastOf limits)
    (card : Name) (number : Nat) (has : after.maxMacsPerCard card = some number) :
    after.maxMacs ≤ number ∧ number ≤ 128 := by
  rw [perCard] at has
  obtain ⟨⟨other, _⟩, found, rfl⟩ := Option.map_eq_some_iff.mp has
  have listed := List.mem_of_find?_eq_some found
  rw [maxMacs]
  exact ⟨(leastOf_bounds bounded).2.2 other _ listed, (bounded other _ listed).2⟩

theorem Current.keep {before after : Syncer} (current : Current before said)
    (bounded : ∀ card number, (card, number) ∈ limits → 0 < number ∧ number ≤ 128)
    (perCard : after.maxMacsPerCard = numberFor limits) (maxMacs : after.maxMacs = leastOf limits)
    (same : leastOf limits = before.maxMacs) : Current after said where
  changing := current.changing
  last := by rw [current.last, maxMacs, same]
  positive := maxMacs ▸ (leastOf_bounds bounded).1
  bounded := maxMacs ▸ (leastOf_bounds bounded).2.1
  least := Current.held bounded perCard maxMacs

theorem Current.warn {before after : Syncer} (current : Current before said)
    (bounded : ∀ card number, (card, number) ∈ limits → 0 < number ∧ number ≤ 128)
    (perCard : after.maxMacsPerCard = numberFor limits) (maxMacs : after.maxMacs = leastOf limits)
    (changed : leastOf limits ≠ before.maxMacs) :
    Current after (said ++ [.warnAt (leastOf limits)]) := by
  have more : warnings (said ++ [.warnAt (leastOf limits)]) = warnings said ++ [leastOf limits] := by
    rw [warnings, List.filterMap_append]
    rfl
  have positive := (leastOf_bounds bounded).1
  have small := (leastOf_bounds bounded).2.1
  refine ⟨?_, ?_, by omega, by omega, Current.held bounded perCard maxMacs⟩
  · rw [more, ← List.cons_append, List.isChain_append]
    refine ⟨current.changing, List.isChain_singleton _, ?_⟩
    intro last final next first
    rw [List.getLast?_eq_some_getLast (List.cons_ne_nil _ _), current.last] at final
    cases final
    cases first
    exact Ne.symm changed
  · simp [more, maxMacs]

theorem applyCardLimits_telling {maxSet : Bool} (order : InOrder maxSet books said) :
    Safe telling (applyCardLimits picture maxSet) (fun _ books' said' => InOrder maxSet books' said') books said := by
  unfold applyCardLimits
  rw [safe_bind, safe_get, safe_bind]
  refine limitsFor_telling.mono ?_
  intro limits books' said' known
  obtain ⟨through, held⟩ := known
  have once := through.once order.once
  have numbers := order.numbers
  cases maxSet with
  | true =>
      refine ⟨once, ?_⟩
      have fixed : Fixed books.syncer said := numbers
      have still : Fixed books'.syncer said' :=
        ⟨through.warned.trans fixed.quiet, by rw [through.syncer]; exact fixed.bare⟩
      exact still
  | false =>
      have current : Current books.syncer said := numbers
      have bounded : ∀ card number, (card, number) ∈ limits → 0 < number ∧ number ≤ 128 := by
        intro card number listed
        rcases held card number listed with kept | new
        · obtain ⟨atLeast, small⟩ := current.least card number kept
          have positive := current.positive
          exact ⟨by omega, small⟩
        · exact new
      have still : Current books'.syncer said' := by
        rw [through.syncer]
        exact
          { current with
            changing := by simpa only [warnings, through.warned] using current.changing
            last := by simpa only [warnings, through.warned] using current.last }
      rw [if_neg Bool.false_ne_true, safe_bind, safe_modify, safe_bind, safe_get]
      split
      · rename_i already
        exact ⟨once, still.keep bounded rfl already.symm already⟩
      · rename_i changed
        rw [safe_bind, ask, safe_ask]
        refine ⟨trivial, ?_⟩
        intro _ after written
        cases written
        exact ⟨once.warn _, still.warn bounded rfl rfl changed⟩

theorem Life.inOrder {maxSet : Bool} (life : Life maxSet books said) : InOrder maxSet books said := by
  induction life with
  | start bare unset =>
      refine ⟨⟨.nil, by simp⟩, ?_⟩
      cases maxSet with
      | true => exact ⟨rfl, bare⟩
      | false =>
          have least := unset rfl
          refine ⟨List.isChain_singleton _, least.symm, by simp [least, assumed], by simp [least, assumed], ?_⟩
          intro card number held
          rw [bare] at held
          cases held
  | reckon _ picture ran ih => exact (applyCardLimits_telling ih).runs ran
  | @work books said _ syncer maxMacs maxMacsPerCard ih =>
      refine ⟨ih.once, ?_⟩
      have numbers := ih.numbers
      cases maxSet with
      | true =>
          have fixed : Fixed books.syncer said := numbers
          exact ⟨fixed.quiet, by rw [maxMacsPerCard]; exact fixed.bare⟩
      | false =>
          have current : Current books.syncer said := numbers
          exact ⟨current.changing, by rw [maxMacs]; exact current.last, by rw [maxMacs]; exact current.positive,
            by rw [maxMacs]; exact current.bounded, by rw [maxMacs, maxMacsPerCard]; exact current.least⟩

/-- A bond over a function of a card, and the card itself. -/
def bondNodes : List Node :=
  [{ index := 4, name := "i40", driver := some "i40e" },
    { index := 7, name := "av0", driver := some "iavf", master := some 9, isVf := true, physfn := some 4,
      vfNumber := some 0 },
    { index := 9, name := "bond0", lowers := [7] }]

def bondPicture : Picture :=
  assemble bondNodes fun name => (bondNodes.find? (·.name = name)).map (·.index)

/-- A physical function that trusts none of its functions. -/
def bondHost : Handler CardCall CardReply (List Message)
  | said, .vfInfoOf pf => (.ok [{ pf, vf := 0, mac := ⟨2, 0, 0, 0, 0, 1⟩, trusted := some false }], said)
  | said, .say message => ((), said ++ [message])

def bondBooks : Books := { syncer := { pairs := [⟨"bond0", "br0"⟩, ⟨"i40", "br0"⟩] } }

def goThrough (picture : Picture) (had : Books × List Message) : Books × List Message :=
  let out := (applyCardLimits picture false had.1).replay bondHost had.2
  (out.1.2, out.2)

theorem goThrough_life {had : Books × List Message} (life : Life false had.1 had.2) (picture : Picture) :
    Life false (goThrough picture had).1 (goThrough picture had).2 := by
  have answers : ∀ said request, telling.answers said request (bondHost said request).1 (bondHost said request).2 := by
    intro said request
    cases request <;> rfl
  exact .reckon life picture (Program.replay_reaches answers _ _)

/-- Two readings, the bond gone from the second. -/
def bondLife : Books × List Message :=
  goThrough (assemble [] fun _ => none) (goThrough bondPicture (bondBooks, []))

end Life

end SriovMacSync.Cards
