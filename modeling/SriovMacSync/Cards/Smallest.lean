import Mathlib.Order.Bounds.Defs
import SriovMacSync.Cards.Limits
import SriovMacSync.Data.Trails
import SriovMacSync.Interaction.Judgement
import SriovMacSync.Topology.Reachability

namespace SriovMacSync.Cards

open Data Netlink Interaction Interaction.Action Sysfs Relation Search

/-! # The number of a card

What a driver and its physical function say of an interface, and the least number among
the interfaces a card spreads over.  The order they are come to does not matter, nor does it
that a physical function is asked only where the driver cares. -/

/-- What the physical functions answer. -/
abbrev Told := Index → Except Errno (List VfInfo)

section Judged

variable (told : Told)

/-- Whether a function is trusted, as its physical function tells it. -/
def trustedBy (node : Node) : Bool :=
  match node.physfn, node.vfNumber with
  | some pf, some number =>
      ((told pf).toOption.bind (·.find? (·.vf = number))).bind (·.trusted) = some true
  | _, _ => false

/-- The filter of an interface as its driver has it, trusted as it is. -/
def filterBy (node : Node) : Option Filter :=
  node.driver.bind fun driver => filterOf driver (functional node) (trustedBy told node)

def filterAt (picture : Picture) (index : Index) : Option Filter :=
  (nodeAt picture index).bind (filterBy told)

/-- A virtual function whose driver the physical function's view makes a difference to. -/
structure Doubtful (node : Node) (pf : Index) : Prop where
  known : node.physfn = some pf
  cares : ∃ driver, node.driver = some driver ∧ trustMatters driver = true

end Judged

/-- Physical functions that answer each the same while the cards are gone through, and are
asked about functions in doubt only. -/
def steady (picture : Picture) (told : Told) : Environment CardCall CardReply (List Message) where
  permits _ request :=
    match request with
    | .vfInfoOf pf => ∃ node ∈ picture.nodes, Doubtful node pf
    | .say _ => True
  answers said request reply after :=
    match request with
    | .vfInfoOf pf => reply = told pf ∧ after = said
    | .say message => after = said ++ [message]

section Judging

variable {picture : Picture} {told : Told} {books : Books} {said : List Message}

theorem standingOf_steady {node : Node} {driver : String} (member : node ∈ picture.nodes)
    (driven : node.driver = some driver) (matters : trustMatters driver = true) :
    Safe (steady picture told) (standingOf picture node)
      (fun standing books' said' => decide (standing.trusted = some true) = trustedBy told node ∧
        books' = books ∧ said' = said) books said := by
  unfold standingOf trustedBy
  cases known : node.physfn with
  | none => exact ⟨rfl, rfl, rfl⟩
  | some pf =>
      cases node.vfNumber with
      | none => exact ⟨rfl, rfl, rfl⟩
      | some number =>
          rw [safe_bind, ask, safe_ask]
          refine ⟨⟨node, member, known, driver, driven, matters⟩, ?_⟩
          intro reply after answered
          obtain ⟨rfl, rfl⟩ := answered
          cases found : (told pf).toOption.bind (·.find? (·.vf = number)) with
          | none => exact ⟨by simp [found], rfl, rfl⟩
          | some info => exact ⟨by simp [found], rfl, rfl⟩

/-- The filter is the one for the trust there is, asked about or not. -/
theorem judge_steady {node : Node} {driver : String} (member : node ∈ picture.nodes)
    (driven : node.driver = some driver) :
    Safe (steady picture told) (judge picture node driver)
      (fun out books' said' => out.1 = filterBy told node ∧ books' = books ∧ said' = said) books said := by
  have own : filterBy told node = filterOf driver (functional node) (trustedBy told node) := by
    simp [filterBy, driven]
  rw [own]
  unfold judge
  cases functions : functional node with
  | false => exact ⟨rfl, rfl, rfl⟩
  | true =>
      cases matters : trustMatters driver with
      | false => exact ⟨(filterOf_of_not_trustMatters matters _).symm, rfl, rfl⟩
      | true =>
          refine safe_bind.mpr ((standingOf_steady member driven matters).mono ?_)
          intro standing books' said' known
          exact ⟨by simp [known.1], known.2⟩

end Judging

section Searched

variable {picture : Picture} {told : Told}

/-- What a search does at an interface. -/
def look (picture : Picture) (name : Name) (best : Option Found) (index : Index) : Reckoning (Option Found) :=
  match nodeAt picture index with
  | none => pure best
  | some node =>
      match node.driver with
      | none => pure best
      | some driver => do
          let (filter, standing) ← judge picture node driver
          return Found.orSmaller best s!"{driver} behind {name}" filter standing

theorem smallestFrom_eq {name : Name} {fuel : Nat} {stack : List Index} {seen : Finset Index}
    {best : Option Found} :
    smallestFrom picture name fuel stack seen best =
      explore (cardEdges picture) (look picture name) fuel stack seen best := by
  induction fuel generalizing stack seen best with
  | zero => rfl
  | succ fuel ih =>
      cases stack with
      | nil => rfl
      | cons current stack =>
          rw [smallestFrom, explore]
          split
          · exact ih
          · rw [look, cardEdges]
            cases here : nodeAt picture current with
            | none => simpa [here] using ih
            | some node =>
                cases driven : node.driver with
                | none => simpa [driven] using ih
                | some driver =>
                    simp only [driven, Option.isSome_some, if_true, List.reverse_nil, List.nil_append,
                      bind_assoc, pure_bind]
                    exact bind_congr fun judged => ih

/-- The smallest filter of the interfaces a search has come to. -/
structure Smallest (picture : Picture) (told : Told) (trail : List Index) (best : Option Found) : Prop where
  its : ∀ found ∈ best, ∃ index ∈ trail, filterAt told picture index = some found.filter
  least : ∀ index ∈ trail, ∀ filter, filterAt told picture index = some filter →
    ∃ found, best = some found ∧ found.filter.holds.getD usizeMax ≤ filter.holds.getD usizeMax

theorem Smallest.start : Smallest picture told [] none where
  its := by simp
  least := by simp

theorem Smallest.unfiltered {trail : List Index} {best : Option Found} {index : Index}
    (smallest : Smallest picture told trail best) (without : filterAt told picture index = none) :
    Smallest picture told (trail ++ [index]) best where
  its found got := by
    obtain ⟨other, member, same⟩ := smallest.its found got
    exact ⟨other, List.mem_append_left _ member, same⟩
  least other member filter has := by
    rcases List.mem_append.mp member with earlier | last
    · exact smallest.least other earlier filter has
    · rw [List.mem_singleton.mp last, without] at has
      cases has

theorem Smallest.orSmaller {trail : List Index} {best : Option Found} {index : Index} {driver : String}
    {filter : Option Filter} {standing : Option Standing} (smallest : Smallest picture told trail best)
    (own : filter = filterAt told picture index) :
    Smallest picture told (trail ++ [index]) (Found.orSmaller best driver filter standing) := by
  cases filter with
  | none => exact smallest.unfiltered own.symm
  | some filter =>
      have last : index ∈ trail ++ [index] := by simp
      cases best with
      | none =>
          refine ⟨?_, ?_⟩
          · intro found got
            cases got
            exact ⟨index, last, own.symm⟩
          · intro other member has given
            refine ⟨_, rfl, ?_⟩
            rcases List.mem_append.mp member with earlier | same
            · obtain ⟨found, none, -⟩ := smallest.least other earlier has given
              cases none
            · rw [List.mem_singleton.mp same, ← own] at given
              cases given
              exact le_rfl
      | some found =>
          rw [Found.orSmaller]
          split
          · rename_i smaller
            refine ⟨?_, ?_⟩
            · intro taken got
              cases got
              exact ⟨index, last, own.symm⟩
            · intro other member has given
              refine ⟨_, rfl, ?_⟩
              rcases List.mem_append.mp member with earlier | same
              · obtain ⟨kept, same, atMost⟩ := smallest.least other earlier has given
                cases same
                exact (Nat.le_of_lt smaller).trans atMost
              · rw [List.mem_singleton.mp same, ← own] at given
                cases given
                exact le_rfl
          · rename_i larger
            refine ⟨?_, ?_⟩
            · intro kept got
              obtain ⟨other, member, same⟩ := smallest.its kept got
              exact ⟨other, List.mem_append_left _ member, same⟩
            · intro other member has given
              rcases List.mem_append.mp member with earlier | same
              · exact smallest.least other earlier has given
              · rw [List.mem_singleton.mp same, ← own] at given
                cases given
                exact ⟨found, rfl, Nat.le_of_not_lt larger⟩

theorem nodeAt_spec {index : Index} {node : Node} (found : nodeAt picture index = some node) :
    node ∈ picture.nodes ∧ node.index = index :=
  ⟨List.mem_of_find?_eq_some found, by simpa using List.find?_some found⟩

theorem look_steady {name : Name} {trail : List Index} {best : Option Found} {index : Index} {books : Books}
    {said : List Message} (smallest : Smallest picture told trail best) :
    Safe (steady picture told) (look picture name best index)
      (fun best books' said' => Smallest picture told (trail ++ [index]) best ∧ books' = books ∧ said' = said)
      books said := by
  unfold look
  cases here : nodeAt picture index with
  | none => exact ⟨smallest.unfiltered (by simp [filterAt, here]), rfl, rfl⟩
  | some node =>
      cases driven : node.driver with
      | none =>
          simp only [driven]
          exact ⟨smallest.unfiltered (by simp [filterAt, here, filterBy, driven]), rfl, rfl⟩
      | some driver =>
          simp only [driven]
          refine safe_bind.mpr ((judge_steady (nodeAt_spec here).1 driven).mono ?_)
          intro out books' said' judged
          exact ⟨smallest.orSmaller (by simp [judged.1, filterAt, here]), judged.2⟩

/-- What is done along a trail comes to the smallest filter on it. -/
theorem trail_steady {name : Name} {front trail : List Index} {best : Option Found} {books : Books}
    {said : List Message} (smallest : Smallest picture told front best) :
    Safe (steady picture told) (trail.foldlM (look picture name) best)
      (fun best books' said' => Smallest picture told (front ++ trail) best ∧ books' = books ∧ said' = said)
      books said := by
  induction trail generalizing front best with
  | nil =>
      rw [List.append_nil]
      exact ⟨smallest, rfl, rfl⟩
  | cons index trail ih =>
      rw [List.foldlM_cons]
      refine safe_bind.mpr ((look_steady smallest).mono ?_)
      intro best books' said' looked
      obtain ⟨smallest, rfl, rfl⟩ := looked
      simpa using ih smallest

end Searched

end SriovMacSync.Cards
