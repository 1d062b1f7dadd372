import SriovMacSync.Allowance.Course

namespace SriovMacSync

open Data Netlink Interaction Interaction.Action

/-! # What the turns of a pass leave in the filters

An addition the kernel refuses because the address is there already went in earlier in
the same pass, through an interface stacked on this one; so what the filters hold in the
end is what the decisions say, in whatever order they were carried out. -/

variable {reading : Reading}

/-- Turn after turn, what each interface is given. -/
inductive Turns (reading : Reading) :
    (Index → Finset Mac) → List Worked → (Index → Finset Mac) → Prop where
  | ended {own : Index → Finset Mac} : Turns reading own [] own
  | turn {own final : Index → Finset Mac} {worked : Worked} {rest : List Worked}
      (stands : worked.filters.own = own)
      (later : Turns reading (worked.filters.settled reading.topo worked.anat.dev
        (worked.brings reading) (worked.takes reading)) rest final) :
      Turns reading own (worked :: rest) final

/-- What the decisions of a pass leave at an interface of what it was given. -/
def leftAt (reading : Reading) (course : List Worked) (own : Index → Finset Mac) (place : Index) :
    Finset Mac :=
  match course.find? (·.anat.dev = place) with
  | some worked => own place \ worked.takes reading ∪ worked.brings reading
  | none => own place

section Course

variable {pair : Pair} {pairs : List Pair} {answer : Answer} {syncer after : Syncer}
  {filters final : Filters} {course : List Worked} {anat : Anatomy} {dev : Name}

theorem Overlooks.settings {α : Type} {action : Sync α} {value : α}
    (overlooks : Overlooks (fun _ => True) action)
    (ran : Runs (sharing reading.topo) action syncer filters value after final) :
    after.toSettings = syncer.toSettings :=
  congrArg Prod.fst ((overlooks syncer).runs ran)

theorem weighing_spares : Asks Call.SparesFilters (weighing reading dev anat answer) :=
  .bind settleName_spares fun _ => .bind loadPorts_spares fun _ => .bind loadOwned_spares fun _ =>
    .bind noteIsReadable_spares fun _ => .bind decideWanted_spares fun _ => .pure

theorem weighing_overlooks : Overlooks (fun _ => True) (weighing reading dev anat answer) :=
  .bind settleName_overlooks fun _ => .bind loadPorts_overlooks fun _ =>
    .bind loadOwned_overlooks fun _ => .bind noteIsReadable_overlooks fun _ =>
      .bind decideWanted_overlooks fun _ => .pure

/-- A turn that does not report wrote to no filter. -/
theorem passPair_idle :
    Safe (sharing reading.topo) (passPair reading pair answer) (fun result _ after =>
      (∀ report answer', result ≠ .ok (some report, answer')) → after.own = filters.own)
      syncer filters := by
  unfold passPair
  split
  · rename_i link bridge found below
    split
    · rename_i anat located
      refine safe_bind.mpr ((sparing_safe settleName_spares).mono fun goes _ _ named => ?_)
      split
      · refine safe_bind.mpr ((sparing_safe loadPorts_spares).mono fun _ _ _ loaded => ?_)
        refine safe_bind.mpr ((sparing_safe loadOwned_spares).mono fun owned _ _ noted => ?_)
        refine safe_bind.mpr ((sparing_safe noteIsReadable_spares).mono fun readable _ _ marked => ?_)
        refine safe_bind.mpr ((sparing_safe decideWanted_spares).mono fun decision _ _ decided => ?_)
        split
        · exact fun _ => decided.trans (marked.trans (noted.trans (loaded.trans named)))
        · refine safe_bind.mpr (safe_get.mpr (safe_bind.mpr (always_safe.mono fun _ _ _ _ => ?_)))
          refine safe_bind.mpr (always_safe.mono fun settled _ _ _ => ?_)
          refine safe_bind.mpr (always_safe.mono fun _ _ _ _ => safe_bind.mpr (safe_modify.mpr ?_))
          exact fun unreported => absurd rfl (unreported _ _)
      · exact fun _ => named
    · exact fun _ => rfl
  · exact fun _ => rfl

/-- The rest of an uplink's turn does what was decided and nothing else. -/
theorem settling_settles {worked : Worked} {readable : Bool} (applies : reading.apply = true)
    (acts : syncer.dryRun = false) :
    Safe (sharing reading.topo) (worked.settling reading readable) (fun _ _ after =>
      after.own = filters.settled reading.topo worked.anat.dev
        (filters.brings reading.fdb worked.dev worked.anat.dev (worked.relieved reading).want)
        (worked.takes reading)) syncer filters := by
  have reported : Safe (sharing reading.topo)
      (reportReleased reading.apply worked.dev (worked.relieved reading).shed)
      (fun _ syncer' after => syncer' = syncer ∧ after = filters) syncer filters := by
    unfold reportReleased
    split
    · exact safe_bind.mpr (safe_ask.mpr ⟨trivial, fun _ _ same => ⟨rfl, same⟩⟩)
    · exact ⟨rfl, rfl⟩
  refine safe_bind.mpr (reported.mono ?_)
  rintro _ syncer filters ⟨rfl, rfl⟩
  refine safe_bind.mpr ((settleCard_settles applies acts).mono fun settled _ between done => ?_)
  refine safe_bind.mpr ((sparing_safe refreshMemory_spares).mono fun _ _ _ kept => ?_)
  exact safe_bind.mpr (safe_modify.mpr (kept.trans done))

theorem settling_overlooks {worked : Worked} {readable : Bool} :
    Overlooks (fun _ => True) (worked.settling reading readable) := by
  refine .bind (.ite (.bind (.ask nofun) fun _ => .pure) .pure) fun _ =>
    .bind settleCard_overlooks fun _ => .bind refreshMemory_overlooks fun _ =>
      .bind (.modify fun _ => rfl) fun _ => .pure

/-- A course is a row of turns from where the filters stand. -/
theorem Course.turns (course' : Course reading pairs answer syncer filters course after final)
    (applies : reading.apply = true) (acts : syncer.dryRun = false) :
    Turns reading filters.own course final.own := by
  induction course' with
  | finished => exact .ended
  | passedOver ran rest ih =>
      have same := passPair_idle.runs ran (by simp)
      have told := passPair_overlooks.settings ran
      exact same ▸ ih ((congrArg Settings.dryRun told).trans acts)
  | brokenOff ran => exact (passPair_idle.runs ran (by simp)) ▸ .ended
  | worked named found below located weighed answered ended rest ih =>
      have stands := own_of_runs weighing_spares weighed
      have told := weighing_overlooks.settings weighed
      have goesOn := (congrArg Settings.dryRun told).trans acts
      refine .turn stands ?_
      have settled := (settling_settles applies goesOn).runs ended
      have told' := settling_overlooks.settings ended
      exact settled ▸ ih ((congrArg Settings.dryRun told').trans goesOn)

/-- Only uplinks of the pairs are worked on, each under the name of its pair. -/
theorem Course.devs (ran : Course reading pairs answer syncer filters course after final) :
    (course.map (·.dev)).Sublist (pairs.map (·.dev)) := by
  induction ran with
  | finished => exact .refl _
  | passedOver ran rest ih => exact ih.cons _
  | brokenOff ran => exact List.nil_sublist _
  | worked named found below located weighed answered ended rest ih =>
      rw [List.map_cons, List.map_cons, named]
      exact ih.cons_cons _

/-- An uplink is worked on at the interface its name finds. -/
theorem Course.found (ran : Course reading pairs answer syncer filters course after final) :
    ∀ worked ∈ course, reading.topo.indexOf worked.dev = some worked.anat.dev ∧
      worked.anat.card = reading.topo.filterCarrier worked.anat.dev := by
  induction ran with
  | finished => simp
  | passedOver ran rest ih => exact ih
  | brokenOff ran => simp
  | worked named found below located weighed answered ended rest ih =>
      refine List.forall_mem_cons.mpr ⟨?_, ih⟩
      obtain ⟨port, -, made⟩ := Option.map_eq_some_iff.mp located
      have stands := (Topology.get_spec found).1
      rw [named, stands, ← made]
      exact ⟨rfl, rfl⟩

/-- No interface is worked on twice. -/
theorem Course.nodup (ran : Course reading pairs answer syncer filters course after final)
    (distinct : (pairs.map (·.dev)).Nodup) : (course.map (·.anat.dev)).Nodup := by
  have names : (course.map (·.dev)).Nodup := ran.devs.nodup distinct
  refine List.pairwise_map.mpr ((List.pairwise_map.mp names).imp_of_mem ?_)
  intro first second inFirst inSecond apart same
  have one := (ran.found first inFirst).1
  have two := (ran.found second inSecond).1
  exact apart (Topology.indexOf_injective one (same ▸ two))

end Course

section Balance

variable {course rest : List Worked} {worked : Worked} {own final : Index → Finset Mac}
  {place : Index} {mac : Mac}

theorem leftAt_of_notMem (apart : ∀ worked ∈ course, worked.anat.dev ≠ place) :
    leftAt reading course own place = own place := by
  rw [leftAt, List.find?_eq_none.mpr fun worked member => by simpa using apart worked member]

theorem leftAt_congr {other : Index → Finset Mac} (same : own place = other place) :
    leftAt reading course own place = leftAt reading course other place := by
  rw [leftAt, leftAt, same]

theorem leftAt_cons_self :
    leftAt reading (worked :: rest) own worked.anat.dev =
      own worked.anat.dev \ worked.takes reading ∪ worked.brings reading := by
  rw [leftAt, List.find?_cons_of_pos (by simp)]

theorem leftAt_cons_of_ne (apart : worked.anat.dev ≠ place) :
    leftAt reading (worked :: rest) own place = leftAt reading rest own place := by
  rw [leftAt, leftAt, List.find?_cons_of_neg (by simpa using apart)]

theorem leftAt_of_mem (nodup : (course.map (·.anat.dev)).Nodup) (member : worked ∈ course) :
    leftAt reading course own worked.anat.dev =
      own worked.anat.dev \ worked.takes reading ∪ worked.brings reading := by
  induction course with
  | nil => cases member
  | cons first rest ih =>
      obtain ⟨fresh, nodup⟩ := List.nodup_cons.mp nodup
      rcases List.mem_cons.mp member with rfl | later
      · exact leftAt_cons_self
      · have apart : first.anat.dev ≠ worked.anat.dev := fun same =>
          fresh (List.mem_map.mpr ⟨worked, later, same.symm⟩)
        rw [leftAt_cons_of_ne apart, ih nodup later]

/-- Nothing an uplink brings is already given to an interface that feeds its filter and
has its turn still to come. -/
def Ahead (reading : Reading) (course : List Worked) (own : Index → Finset Mac) : Prop :=
  ∀ worked ∈ course, ∀ mac ∈ worked.brings reading, ∀ place,
    worked.anat.dev ∈ reading.topo.filterChain place → mac ∈ own place →
    ∀ other ∈ course, other.anat.dev ≠ place

/-- What is brought is wanted, so it is not taken out. -/
theorem notMem_takes (brought : mac ∈ worked.brings reading) : mac ∉ worked.takes reading := by
  rw [Worked.brings, Filters.brings] at brought
  split at brought
  · intro taken
    exact (Finset.mem_sdiff.mp taken).2 (Finset.mem_sdiff.mp brought).1
  · simp at brought

/-- However the turns went, every filter holds in the end what the decisions leave. -/
theorem held_of_turns (turns : Turns reading own course final)
    (nodup : (course.map (·.anat.dev)).Nodup) (ahead : Ahead reading course own) :
    reading.topo.held final place = reading.topo.held (leftAt reading course own) place := by
  induction turns with
  | ended => rfl
  | @turn own final worked rest stands later ih =>
      subst stands
      obtain ⟨fresh, nodup⟩ := List.nodup_cons.mp nodup
      have apart : ∀ other ∈ rest, other.anat.dev ≠ worked.anat.dev := fun other member same =>
        fresh (List.mem_map.mpr ⟨other, member, same⟩)
      have elsewhere {place : Index} (different : place ≠ worked.anat.dev) :
          worked.filters.settled reading.topo worked.anat.dev (worked.brings reading)
            (worked.takes reading) place = worked.filters.own place :=
        Function.update_of_ne different ..
      have ahead' : Ahead reading rest (worked.filters.settled reading.topo worked.anat.dev
          (worked.brings reading) (worked.takes reading)) := by
        intro next member mac brought place feeds given other inRest
        by_cases same : place = worked.anat.dev
        · exact same ▸ apart other inRest
        · rw [elsewhere same] at given
          exact ahead next (.tail _ member) mac brought place feeds given other (.tail _ inRest)
      rw [ih nodup ahead']
      ext mac
      rw [Topology.mem_held, Topology.mem_held]
      have here : worked.filters.settled reading.topo worked.anat.dev (worked.brings reading)
          (worked.takes reading) worked.anat.dev =
          (worked.filters.own worked.anat.dev ∪ (worked.brings reading \
            reading.topo.held worked.filters.own worked.anat.dev)) \ worked.takes reading :=
        Function.update_self ..
      constructor
      · rintro ⟨source, feeds, left⟩
        refine ⟨source, feeds, ?_⟩
        by_cases same : worked.anat.dev = source
        · subst same
          rw [leftAt_of_notMem apart, here] at left
          rw [leftAt_cons_self, Finset.mem_union]
          obtain ⟨given, notTaken⟩ := Finset.mem_sdiff.mp left
          rcases Finset.mem_union.mp given with before | brought
          · exact .inl (Finset.mem_sdiff.mpr ⟨before, notTaken⟩)
          · exact .inr (Finset.mem_sdiff.mp brought).1
        · rw [leftAt_congr (elsewhere (Ne.symm same))] at left
          rwa [leftAt_cons_of_ne same]
      · rintro ⟨source, feeds, left⟩
        by_cases same : worked.anat.dev = source
        · subst same
          rw [leftAt_cons_self, Finset.mem_union] at left
          rcases left with kept | brought
          · obtain ⟨before, notTaken⟩ := Finset.mem_sdiff.mp kept
            refine ⟨_, feeds, ?_⟩
            rw [leftAt_of_notMem apart, here]
            exact Finset.mem_sdiff.mpr ⟨Finset.mem_union_left _ before, notTaken⟩
          · by_cases present : mac ∈ reading.topo.held worked.filters.own worked.anat.dev
            · -- refused: an interface above was given it earlier, and its turn is over
              obtain ⟨giver, passes, given⟩ := Topology.mem_held.mp present
              have passed := ahead worked (.head _) mac brought giver passes given
              refine ⟨giver, Topology.filterChain_trans passes feeds, ?_⟩
              rw [leftAt_of_notMem fun other member => passed other (.tail _ member),
                elsewhere (Ne.symm (passed worked (.head _)))]
              exact given
            · refine ⟨_, feeds, ?_⟩
              rw [leftAt_of_notMem apart, here]
              exact Finset.mem_sdiff.mpr ⟨Finset.mem_union_right _
                (Finset.mem_sdiff.mpr ⟨brought, present⟩), notMem_takes brought⟩
        · refine ⟨source, feeds, ?_⟩
          rw [leftAt_congr (elsewhere (Ne.symm same))]
          rwa [leftAt_cons_of_ne same] at left

end Balance

end SriovMacSync
