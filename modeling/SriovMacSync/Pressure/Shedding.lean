import SriovMacSync.Allowance.Settling
import SriovMacSync.Pressure.Pass

namespace SriovMacSync

open Data Netlink Interaction Interaction.Action

/-! # What a batch can take back from an uplink

The addresses the last pass kept and that have been silent since, and what is left of
them and of the card's list once a batch has made room and written its own. -/

namespace Syncer

variable (syncer : Syncer) (dev : Name)

/-- An address the last pass kept quiet, with a stamp before that pass. -/
def Releasable (mac : Mac) : Prop :=
  ∃ carried ports spot, syncer.carried dev = some carried ∧ mac ∈ carried.quiet ∧
    syncer.carriedPorts dev = some ports ∧ ports.lookup mac = some spot ∧
      spot.2 < carried.passedAt

/-- The same addresses with their stamps, in no particular order. -/
def releasable : List (Nat × Mac) :=
  match syncer.carried dev, syncer.carriedPorts dev with
  | some carried, some ports =>
      ((ascending carried.quiet).filterMap fun mac =>
        (ports.lookup mac).map fun spot => (spot.2, mac)).filter (·.1 < carried.passedAt)
  | _, _ => []

/-- The longest silent of them. -/
def longestSilent (need : Nat) : List Mac := ((bySilence (syncer.releasable dev)).take need).map (·.2)

variable {syncer dev}

theorem mem_releasable {mac : Mac} :
    mac ∈ (syncer.releasable dev).map (·.2) ↔ syncer.Releasable dev mac := by
  unfold releasable Releasable
  split
  · rename_i carried ports known mapped
    simp only [List.mem_map, List.mem_filter, List.mem_filterMap, mem_ascending, Option.map_eq_some_iff,
      known, mapped, Option.some.injEq]
    constructor
    · rintro ⟨_, ⟨⟨mac, kept, spot, found, rfl⟩, early⟩, rfl⟩
      exact ⟨carried, ports, spot, rfl, kept, rfl, found, of_decide_eq_true early⟩
    · rintro ⟨_, _, spot, rfl, kept, rfl, found, early⟩
      exact ⟨_, ⟨⟨mac, kept, spot, found, rfl⟩, decide_eq_true early⟩, rfl⟩
  · rename_i unknown
    constructor
    · simp
    · rintro ⟨carried, ports, _, known, -, mapped, -⟩
      exact (unknown carried ports known mapped).elim

/-- What is kept about an uplink, apart from its note. -/
def stock (syncer : Syncer) (dev : Name) : Option Carried × Option PortMap :=
  (syncer.carried dev, syncer.carriedPorts dev)

theorem Releasable.of_stock {other : Syncer} {mac : Mac} (same : other.stock dev = syncer.stock dev) :
    other.Releasable dev mac ↔ syncer.Releasable dev mac := by
  obtain ⟨carried, ports⟩ := Prod.mk.inj same
  rw [Releasable, Releasable, carried, ports]

theorem releasable_of_stock {other : Syncer} (same : other.stock dev = syncer.stock dev) :
    other.releasable dev = syncer.releasable dev := by
  obtain ⟨carried, ports⟩ := Prod.mk.inj same
  rw [releasable, releasable, carried, ports]

theorem longestSilent_of_stock {other : Syncer} {need : Nat}
    (same : other.stock dev = syncer.stock dev) :
    other.longestSilent dev need = syncer.longestSilent dev need := by
  rw [longestSilent, longestSilent, releasable_of_stock same]

/-- What a batch leaves about an uplink once it gave these addresses up. -/
def Gave (dev : Name) (gone : List Mac) (before after : Syncer) : Prop :=
  after.toSettings = before.toSettings ∧ (∀ other ≠ dev, after.stock other = before.stock other) ∧
    ∀ mac, after.Releasable dev mac ↔ before.Releasable dev mac ∧ mac ∉ gone

theorem Gave.of_stock {after : Syncer} (settings : after.toSettings = syncer.toSettings)
    (same : ∀ other, after.stock other = syncer.stock other) : Gave dev [] syncer after :=
  ⟨settings, fun other _ => same other, fun mac => by
    simpa using Releasable.of_stock (same dev)⟩

theorem Gave.trans {first second third : Syncer} {gone more : List Mac}
    (one : Gave dev gone first second) (two : Gave dev more second third) :
    Gave dev (gone ++ more) first third :=
  ⟨two.1.trans one.1, fun other apart => (two.2.1 other apart).trans (one.2.1 other apart),
    fun mac => by rw [two.2.2 mac, one.2.2 mac, List.mem_append, not_or, and_assoc]⟩

theorem Gave.of_marks {after : Syncer} (marks : NoteMarks Set.univ syncer after) :
    Gave dev [] syncer after := by
  obtain ⟨_, _, _, rfl⟩ := marks
  exact .of_stock rfl fun _ => rfl

theorem Gave.leaveOccupancy (card : Name) (occupancy : Nat) :
    Gave dev [] syncer (syncer.leaveOccupancy dev card occupancy) := by
  refine ⟨rfl, fun other apart => ?_, fun mac => ?_⟩
  · simp [stock, Syncer.leaveOccupancy, setCarried, apart]
  · simp only [Releasable, Syncer.leaveOccupancy, setCarried, Function.update_self]
    cases known : syncer.carried dev <;> simp

/-- Addresses given up are neither remembered nor kept any longer. -/
theorem Gave.released {carried : Carried} {ports : PortMap} (gone : List Mac)
    (written : Name → Option (List Text)) (known : syncer.carried dev = some carried)
    (mapped : syncer.carriedPorts dev = some ports) :
    Gave dev gone syncer
      (({ syncer.dropPorts dev gone with portsWritten := written } : Syncer).noLongerKept dev gone) := by
  have dropped : syncer.dropPorts dev gone = syncer.setPorts dev (some (retain (· ∉ gone) ports)) := by
    rw [Syncer.dropPorts, mapped]
  have left : ({ syncer.dropPorts dev gone with portsWritten := written } : Syncer).noLongerKept dev
      gone = ({ syncer.dropPorts dev gone with portsWritten := written } : Syncer).setCarried dev
        (some { carried with quiet := carried.quiet \ gone.toFinset }) := by
    have before : ({ syncer.setPorts dev (some (retain (· ∉ gone) ports)) with
        portsWritten := written } : Syncer).carried dev = some carried := known
    rw [dropped, Syncer.noLongerKept, before]
  rw [left, dropped]
  refine ⟨rfl, fun other apart => ?_, fun mac => ?_⟩
  · simp [stock, setCarried, setPorts, apart]
  · simp only [Releasable, setCarried, setPorts, Function.update_self, known, mapped, Option.some.injEq]
    constructor
    · rintro ⟨_, _, spot, rfl, kept, rfl, found, early⟩
      simp only [Finset.mem_sdiff, List.mem_toFinset] at kept
      rw [lookup_retain, if_pos (by simpa using kept.2)] at found
      exact ⟨⟨carried, ports, spot, rfl, kept.1, rfl, found, early⟩, kept.2⟩
    · rintro ⟨⟨_, _, spot, rfl, kept, rfl, found, early⟩, stays⟩
      refine ⟨_, _, spot, rfl, ?_, rfl, ?_, early⟩
      · simpa using ⟨kept, stays⟩
      · rwa [lookup_retain, if_pos (by simpa using stays)]

end Syncer

section Filters

variable {topo : Topology} {filters : Filters} {syncer : Syncer} {dev : Name} {index : Index}

/-- What is known of a step whatever the replies are is known of it here. -/
theorem within_shares {α : Type} {allowed : Call → Prop} {action : Sync α} {post : α → Syncer → Prop}
    (within : Within allowed action post syncer) :
    Safe (sharing topo) action (fun value after _ => post value after) syncer filters :=
  (within.frame (fun _ _ _ _ => ⟨trivial, fun _ _ _ => trivial⟩) trivial).mono fun _ _ _ known => known.1

/-- Where every removal goes through or finds nothing, all of them are settled. -/
theorem setEach_lets_go {macs : List Mac} :
    Safe (sharing topo) (setEach index false macs) (fun answers _ _ => absentOrOk answers = macs)
      syncer filters := by
  induction macs generalizing filters with
  | nil => rfl
  | cons mac rest ih =>
      simp only [setEach, safe_bind, safe_ask, safe_pure]
      refine ⟨trivial, fun reply after answered => ih.mono fun answers _ _ settled => ?_⟩
      obtain ⟨rfl, -⟩ : reply = _ ∧ _ := answered
      rw [absentOrOk] at settled ⊢
      split <;> simp [settled]

theorem retire_lets_go {work : Section} {macs : List Mac} :
    Safe (sharing topo) (retire work dev index macs) (fun retired after final =>
      retired.dropped = macs ∧ NoteMarks Set.univ syncer after ∧
        final.own = Function.update filters.own index (filters.own index \ macs.toFinset))
      syncer filters := by
  have settled : Safe (sharing topo) (retire work dev index macs)
      (fun retired _ _ => retired.dropped = macs) syncer filters := by
    refine locked_shares (safe_bind.mpr (setEach_lets_go.mono fun answers _ _ gone => ?_))
    exact safe_bind.mpr (always_safe.mono fun _ _ _ _ => gone)
  have marked : Safe (sharing topo) (retire work dev index macs)
      (fun _ after _ => NoteMarks Set.univ syncer after) syncer filters :=
    within_shares (retire_within (Set.mem_univ dev) (Set.mem_univ (index, false)))
  exact settled.and (marked.and retire_drops)

/-- What a batch gives up of an uplink's keeps to make room. -/
def Filters.gives (filters : Filters) (syncer : Syncer) (dev : Name) (need : Nat) : List Mac :=
  if filters.legible dev 0 then syncer.longestSilent dev need else []

theorem shedKeeps_gives {need : Nat} {onCard : Finset Mac} :
    Safe (sharing topo) (shedKeeps dev index need topo onCard) (fun _ after final =>
      final.own = Function.update filters.own index
        (filters.own index \ (filters.gives syncer dev need).toFinset) ∧
      Syncer.Gave dev (filters.gives syncer dev need) syncer after) syncer filters := by
  have idle {after : Syncer} {final : Filters} (marks : NoteMarks Set.univ syncer after)
      (same : final.own = filters.own) (none : filters.gives syncer dev need = []) :
      final.own = Function.update filters.own index
        (filters.own index \ (filters.gives syncer dev need).toFinset) ∧
      Syncer.Gave dev (filters.gives syncer dev need) syncer after := by
    rw [none]
    exact ⟨by simpa using same, .of_marks marks⟩
  have looked : Within (InScope Set.univ removals) (loadOwned dev) _ syncer :=
    loadOwned_within (Set.mem_univ dev)
  refine safe_bind.mpr ((loadOwned_marks.and (within_shares looked)).mono ?_)
  rintro _ syncer' read ⟨⟨readable, same⟩, marks⟩
  refine safe_bind.mpr (safe_bind.mpr (safe_get.mpr (safe_pure.mpr ?_)))
  split
  · rename_i legible
    have legible' : filters.legible dev 0 = true := readable ▸ legible
    have stays : syncer'.stock dev = syncer.stock dev := by
      obtain ⟨_, _, _, rfl⟩ := marks
      rfl
    have gives : filters.gives syncer dev need = syncer'.longestSilent dev need := by
      rw [Filters.gives, if_pos legible', Syncer.longestSilent_of_stock stays]
    refine safe_bind.mpr (safe_get.mpr ?_)
    split
    · rename_i carried ports known mapped
      have listed : syncer'.releasable dev = ((ascending carried.quiet).filterMap fun mac =>
          (ports.lookup mac).map fun spot => (spot.2, mac)).filter (·.1 < carried.passedAt) := by
        rw [Syncer.releasable, known, mapped]
      dsimp only
      rw [← listed]
      split
      · rename_i none
        exact idle marks same (by rw [gives, Syncer.longestSilent, none]; rfl)
      · refine safe_bind.mpr (retire_lets_go.mono ?_)
        rintro retired syncer₂ final ⟨dropped, marks', settled⟩
        have gone : retired.dropped = filters.gives syncer dev need := dropped.trans gives.symm
        have written : final.own = Function.update filters.own index
            (filters.own index \ (filters.gives syncer dev need).toFinset) := by
          rw [settled, same, gives]
          rfl
        split
        · rename_i none
          refine idle (marks.trans marks') ?_ (gone ▸ none)
          rw [written, ← gone, none]
          simp
        · have known' : syncer₂.carried dev = some carried ∧ syncer₂.carriedPorts dev = some ports := by
            obtain ⟨_, _, _, rfl⟩ := marks'
            exact ⟨known, mapped⟩
          refine safe_bind.mpr (safe_modify.mpr (safe_bind.mpr ?_))
          have saving : Within (InScope Set.univ removals) (savePorts dev topo carried.passedAt) _
              (syncer₂.dropPorts dev retired.dropped) := savePorts_within (Set.mem_univ dev)
          refine ((sparing_safe savePorts_spares).and (within_shares saving)).mono ?_
          rintro _ syncer₃ saved ⟨kept, written', rfl⟩
          refine safe_bind.mpr (safe_modify.mpr (safe_bind.mpr (safe_ask.mpr ⟨trivial, ?_⟩)))
          rintro _ last rfl
          refine ⟨kept.trans written, ?_⟩
          have both := (Syncer.Gave.of_marks (marks.trans marks')).trans
            (Syncer.Gave.released retired.dropped written' known'.1 known'.2)
          rw [← gone]
          rwa [List.nil_append] at both
    · rename_i unknown
      refine idle marks same ?_
      rw [gives, Syncer.longestSilent, Syncer.releasable]
      split
      · rename_i carried ports known mapped
        exact (unknown carried ports known mapped).elim
      · simp [bySilence]
  · rename_i illegible
    refine idle marks same ?_
    rw [Filters.gives, if_neg]
    rw [← readable]
    exact illegible

theorem makeRoom_gives {need : Nat} {onCard : Finset Mac} :
    Safe (sharing topo) (makeRoom dev index need topo onCard) (fun _ after final =>
      final.own = Function.update filters.own index
        (filters.own index \ (filters.gives syncer dev need).toFinset) ∧
      Syncer.Gave dev (filters.gives syncer dev need) syncer after) syncer filters := by
  rw [makeRoom]
  split
  · exact shedKeeps_gives
  · rename_i fits
    obtain rfl : need = 0 := by omega
    have none : filters.gives syncer dev 0 = [] := by
      simp [Filters.gives, Syncer.longestSilent]
    rw [none]
    exact ⟨by simp, .of_marks (.refl _)⟩

/-- What is written on an interface besides by itself. -/
def Filters.above (filters : Filters) (topo : Topology) (index : Index) : Finset Mac :=
  topo.held (Function.update filters.own index ∅) index

theorem held_update {own : Index → Finset Mac} {macs : Finset Mac} :
    topo.held (Function.update own index macs) index =
      macs ∪ topo.held (Function.update own index ∅) index := by
  ext mac
  rw [Finset.mem_union, Topology.mem_held, Topology.mem_held]
  constructor
  · rintro ⟨place, feeds, given⟩
    by_cases same : place = index
    · subst same
      exact .inl (by simpa using given)
    · rw [Function.update_of_ne same] at given
      exact .inr ⟨place, feeds, by rwa [Function.update_of_ne same]⟩
  · rintro (given | ⟨place, feeds, given⟩)
    · exact ⟨index, Topology.self_mem_filterChain, by simpa using given⟩
    · by_cases same : place = index
      · subst same
        simp at given
      · rw [Function.update_of_ne same] at given
        exact ⟨place, feeds, by rwa [Function.update_of_ne same]⟩

theorem held_eq_own_union_above :
    topo.held filters.own index = filters.own index ∪ filters.above topo index := by
  have whole := @held_update topo index filters.own (filters.own index)
  rwa [Function.update_eq_self] at whole

/-- What an interface loses of its list when it lets go of these addresses. -/
theorem held_drop {gone : Finset Mac} :
    topo.held (Function.update filters.own index (filters.own index \ gone)) index =
      topo.held filters.own index \ (gone \ filters.above topo index) := by
  rw [held_update, held_eq_own_union_above, Filters.above]
  ext mac
  simp only [Finset.mem_union, Finset.mem_sdiff]
  tauto

/-- A list once some went and some came, against what it would be had nothing gone. -/
theorem card_swapped {list gone put : Finset Mac} :
    ((list \ gone) ∪ put).card + ((gone ∩ list) \ put).card = (list ∪ put).card := by
  have apart : Disjoint ((list \ gone) ∪ put) ((gone ∩ list) \ put) := by
    rw [Finset.disjoint_left]
    intro mac
    simp only [Finset.mem_union, Finset.mem_sdiff, Finset.mem_inter]
    tauto
  rw [← Finset.card_union_of_disjoint apart]
  congr 1
  ext mac
  simp only [Finset.mem_union, Finset.mem_sdiff, Finset.mem_inter]
  tauto

end Filters

end SriovMacSync
