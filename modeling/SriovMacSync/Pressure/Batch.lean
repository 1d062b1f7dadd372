import SriovMacSync.Allowance.Kept
import SriovMacSync.Pressure.Shedding

namespace SriovMacSync

open Data Netlink Interaction Interaction.Action

/-! # A batch that makes room for itself

What a batch registers on an uplink, what it picks to make room for it, and what the
uplink's own list then holds. -/

/-- A host whose interfaces also show their lists as they are. -/
def batching (topo : Topology) : Environment Call Reply Filters where
  permits _ _ := True
  answers filters request reply after := (sharing topo).answers filters request reply after ∧
    ∀ index entries, (⟨request, reply⟩ : Exchange Call Reply) = ⟨.dumpFdbOf index, .ok entries⟩ →
      selfList entries index = topo.held filters.own index

/-- The first half of an uplink's share: what is learnt is stamped, and its card read. -/
def measureRoom (fp : FastPair) (learns : List (Mac × Index)) (cache : ReadBack) :
    Sync (Except Errno (Finset Mac × ReadBack)) := do
  let now : Nat ← ask .bootMillis
  stampLearns fp.dev (ascending (lastPorts learns).keys.toFinset) (lastPorts learns) now
  readBack fp.anat.card cache

/-- How many slots a batch is short of, by the list it measured. -/
def Syncer.shortOf (syncer : Syncer) (card : Name) (macs : List Mac) (onCard : Finset Mac) : Nat :=
  onCard.card + (macs.filter (· ∉ onCard)).length -
    (syncer.limitOf card - headroom (syncer.limitOf card))

/-- The second half: room is made, and the addresses are written. -/
def fillCard (topo : Topology) (dev : Name) (anat : Anatomy) (macs : List Mac) (onCard : Finset Mac) :
    Sync Unit := do
  let card := (topo.nameOf anat.card).getD dev
  let freed ← makeRoom dev anat.dev ((← get).shortOf card macs onCard) topo onCard
  noteIndex dev anat.dev
  let put ← registerCounted dev anat.dev macs
  modify (·.leaveOccupancy dev card (onCard.card - freed + put))

section Halves

variable {topo : Topology} {filters : Filters} {syncer : Syncer} {dev : Name} {anat : Anatomy}
  {macs : List Mac} {onCard : Finset Mac}

theorem registerLearns_runs {env : Environment Call Reply Filters} {fp : FastPair}
    {learns : List (Mac × Index)} {cache : ReadBack} {result : Except Errno ReadBack} {after : Syncer}
    {final : Filters} (ran : Runs env (registerLearns topo fp learns cache) syncer filters result after
      final) :
    (∃ errno, result = .error errno ∧
      Runs env (measureRoom fp learns cache) syncer filters (.error errno) after final) ∨
    ∃ onCard cache' middle between, result = .ok cache' ∧
      Runs env (measureRoom fp learns cache) syncer filters (.ok (onCard, cache')) middle between ∧
      Runs env (fillCard topo fp.dev fp.anat (ascending (lastPorts learns).keys.toFinset) onCard)
        middle between () after final := by
  simp only [registerLearns, runs_bind] at ran
  obtain ⟨now, syncer₁, filters₁, asked, _, syncer₂, filters₂, stamped, measured, syncer₃, filters₃,
    read, ran⟩ := ran
  have first : Runs env (measureRoom fp learns cache) syncer filters measured syncer₃ filters₃ := by
    simp only [measureRoom, runs_bind]
    exact ⟨_, _, _, asked, _, _, _, stamped, read⟩
  cases measured with
  | error errno =>
      obtain ⟨rfl, rfl, rfl⟩ := runs_pure.mp ran
      exact .inl ⟨errno, rfl, first⟩
  | ok measured =>
      obtain ⟨onCard, cache'⟩ := measured
      simp only [runs_bind, runs_get, runs_modify, runs_pure] at ran
      obtain ⟨_, _, _, ⟨rfl, rfl, rfl⟩, freed, _, _, made, _, _, _, noted, put, _, _, counted, _, _, _,
        ⟨rfl, rfl⟩, rfl, rfl, rfl⟩ := ran
      refine .inr ⟨onCard, cache', _, _, rfl, first, ?_⟩
      simp only [fillCard, runs_bind, runs_get, runs_modify]
      exact ⟨_, _, _, ⟨rfl, rfl, rfl⟩, _, _, _, made, _, _, _, noted, _, _, _, counted, rfl, rfl⟩

theorem registerCounted_gives :
    Safe (sharing topo) (registerCounted dev anat.dev macs) (fun _ after final =>
      (final.own = filters.given topo anat.dev macs.toFinset ∨ final.own = filters.own) ∧
        NoteMarks Set.univ syncer after) syncer filters := by
  refine safe_bind.mpr ((registerBatchLocked_gives.and (within_shares
    (registerBatchLocked_within (Set.mem_univ dev) (Set.mem_univ (anat.dev, true))))).mono ?_)
  rintro registered after final ⟨⟨gave, -⟩, marks⟩
  have written : final.own = filters.given topo anat.dev macs.toFinset ∨ final.own = filters.own := by
    rw [gave]
    split
    · exact .inl rfl
    · exact .inr rfl
  cases registered with
  | none => exact ⟨written, marks⟩
  | some done => exact ⟨written, marks⟩

theorem held_given {index : Index} {put : Finset Mac} :
    topo.held (filters.given topo index put) index = topo.held filters.own index ∪ put := by
  rw [Filters.given, held_update, held_eq_own_union_above, Filters.above]
  ext mac
  simp only [Finset.mem_union, Finset.mem_sdiff]
  tauto

theorem shortOf_eq {card : Name} {put : Finset Mac} :
    syncer.shortOf card (ascending put) onCard =
      (onCard ∪ put).card - (syncer.limitOf card - headroom (syncer.limitOf card)) := by
  have fresh : ((ascending put).filter (· ∉ onCard)).toFinset = put \ onCard := by
    ext mac
    simp
  rw [Syncer.shortOf, ← List.toFinset_card_of_nodup ((nodup_ascending put).filter _), fresh,
    Finset.union_comm, ← Finset.sdiff_union_self_eq_union,
    Finset.card_union_of_disjoint Finset.sdiff_disjoint, add_comm]

/-- What an uplink's list holds once room was made and the addresses were written, and
what is left to release. -/
theorem fillCard_fills {put : Finset Mac} :
    Safe (sharing topo) (fillCard topo dev anat (ascending put) onCard) (fun _ after final =>
      (∃ came, (came = put ∨ came = ∅) ∧ topo.held final.own anat.dev =
        (topo.held filters.own anat.dev \ ((filters.gives syncer dev (syncer.shortOf
          ((topo.nameOf anat.card).getD dev) (ascending put) onCard)).toFinset \
            filters.above topo anat.dev)) ∪ came) ∧
      (∀ place ≠ anat.dev, final.own place = filters.own place) ∧
      Syncer.Gave dev (filters.gives syncer dev (syncer.shortOf ((topo.nameOf anat.card).getD dev)
        (ascending put) onCard)) syncer after) syncer filters := by
  set gone := filters.gives syncer dev (syncer.shortOf ((topo.nameOf anat.card).getD dev)
    (ascending put) onCard) with gone_def
  refine safe_bind.mpr (safe_get.mpr (safe_bind.mpr (makeRoom_gives.mono ?_)))
  rintro freed syncer₁ filters₁ ⟨dropped, gave⟩
  refine safe_bind.mpr (((sparing_safe noteIndex_spares).and (within_shares
    (noteIndex_within (Set.mem_univ dev) (Set.mem_univ (anat.dev, true))))).mono ?_)
  rintro _ syncer₂ filters₂ ⟨same, marked⟩
  refine safe_bind.mpr (registerCounted_gives.mono ?_)
  rintro counted syncer₃ filters₃ ⟨written, marked'⟩
  have room : topo.held filters₂.own anat.dev =
      topo.held filters.own anat.dev \ (gone.toFinset \ filters.above topo anat.dev) := by
    rw [same, dropped, held_drop]
  refine safe_modify.mpr ⟨?_, ?_, ?_⟩
  · rcases written with written | written
    · exact ⟨put, .inl rfl, by rw [written, held_given, ascending_toFinset, room]⟩
    · exact ⟨∅, .inr rfl, by rw [written, room, Finset.union_empty]⟩
  · intro place apart
    have before : filters₂.own place = filters.own place := by
      rw [same, dropped, Function.update_of_ne apart]
    rcases written with written | written
    · rw [written, Filters.given, Function.update_of_ne apart, before]
    · rw [written, before]
  · have whole := ((gave.trans (.of_marks marked)).trans (.of_marks marked')).trans
      (.leaveOccupancy ((topo.nameOf anat.card).getD dev) (onCard.card - freed + counted))
    simpa using whole

end Halves

/-- An uplink a batch registers addresses on, once what it learnt is stamped. -/
structure Burst where
  dev : Name
  anat : Anatomy
  macs : Finset Mac
  syncer : Syncer
  filters : Filters

namespace Burst

variable (topo : Topology) (burst : Burst)

def limit : Nat := burst.syncer.limitOf ((topo.nameOf burst.anat.card).getD burst.dev)

/-- The uplink's list as it stands before anything is written. -/
def list : Finset Mac := topo.held burst.filters.own burst.anat.dev

def short : Nat := (burst.list topo ∪ burst.macs).card - (burst.limit topo - headroom (burst.limit topo))

/-- The addresses picked to make room, whether or not they hold a slot. -/
def picked : List Mac := burst.filters.gives burst.syncer burst.dev (burst.short topo)

/-- The slots that come free by it, for good. -/
def frees : Finset Mac :=
  (((burst.picked topo).toFinset \ burst.filters.above topo burst.anat.dev) ∩ burst.list topo) \
    burst.macs

/-- What is picked frees as many slots as are missing, or what is not picked holds none. -/
def Provides : Prop :=
  burst.short topo ≤ (burst.frees topo).card ∨
    ∀ mac, burst.syncer.Releasable burst.dev mac → mac ∉ burst.picked topo →
      mac ∉ burst.list topo ∧ mac ∉ burst.macs

/-- Within the allowance, or with nothing on the card that could still be released. -/
def Contained (after : Syncer) (final : Filters) : Prop :=
  (topo.held final.own burst.anat.dev).card + headroom (burst.limit topo) ≤ burst.limit topo ∨
    ∀ mac, after.Releasable burst.dev mac → mac ∉ topo.held final.own burst.anat.dev

variable {topo burst} {after : Syncer} {final : Filters} {came : Finset Mac}

theorem headroom_le {limit : Nat} : headroom limit ≤ limit := by
  unfold headroom
  omega

/-- The room a batch leaves is what it picked, against what it was short of. -/
theorem contained_iff_provides (settles : topo.held final.own burst.anat.dev =
      (burst.list topo \ ((burst.picked topo).toFinset \ burst.filters.above topo burst.anat.dev)) ∪
        burst.macs)
    (left : ∀ mac, after.Releasable burst.dev mac ↔
      burst.syncer.Releasable burst.dev mac ∧ mac ∉ burst.picked topo) :
    burst.Contained topo after final ↔ burst.Provides topo := by
  have counted : (topo.held final.own burst.anat.dev).card + (burst.frees topo).card =
      (burst.list topo ∪ burst.macs).card := by
    rw [settles]
    exact card_swapped
  have reserve := @headroom_le (burst.limit topo)
  have fits : (topo.held final.own burst.anat.dev).card + headroom (burst.limit topo) ≤ burst.limit topo ↔
      burst.short topo ≤ (burst.frees topo).card := by
    rw [short]
    omega
  rw [Contained, Provides, fits]
  refine or_congr Iff.rfl (forall_congr' fun mac => ?_)
  rw [left mac, settles, and_imp]
  refine imp_congr_right fun quiet => imp_congr_right fun spared => ?_
  simp [spared]

end Burst

/-- What a batch does before it registers anything: which learns are up, for which
uplinks, in which order. -/
def gatherLearns (topo : Topology) (events : List Event) :
    Sync (Except Errno (List FastPair × ReadBack × Candidates × List Name)) := do
  let pfs := topo.livePfs ((← get).pairs.map (·.dev))
  match ← askDriver pfs with
  | .error errno => return .error errno
  | .ok answer =>
      let pairs := (← get).fastPairs topo answer
      let seen := seenOnWire pairs events
      let _ ← reflectPairs topo seen pairs
      let pairs := pairs.map fun fp => { fp with reflected := seen fp.dev }
      match ← refreshForGrowth topo pfs answer events pairs with
      | .error errno => return .error errno
      | .ok (pairs, cache) =>
          let candidates := ((← get).fastAddAll topo pairs .commit events).2
          let devs : Arrangement candidates.keys.toFinset ←
            ask (.walkNames candidates.keys.toFinset)
          return .ok (pairs, cache, candidates, devs.list)

/-- The uplinks a batch registers addresses on, one after another. -/
inductive Registering (topo : Topology) (pairs : List FastPair) (candidates : Candidates) :
    List Name → ReadBack → Syncer → Filters → List Burst → Syncer → Filters → Prop where
  | finished {cache : ReadBack} {syncer : Syncer} {filters : Filters} :
      Registering topo pairs candidates [] cache syncer filters [] syncer filters
  | unpaired {dev : Name} {devs : List Name} {cache : ReadBack} {syncer after : Syncer}
      {filters final : Filters} {course : List Burst}
      (unknown : pairs.find? (·.dev = dev) = none)
      (rest : Registering topo pairs candidates devs cache syncer filters course after final) :
      Registering topo pairs candidates (dev :: devs) cache syncer filters course after final
  | brokenOff {dev : Name} {devs : List Name} {fp : FastPair} {cache : ReadBack}
      {syncer after : Syncer} {filters final : Filters} {errno : Errno}
      (known : pairs.find? (·.dev = dev) = some fp)
      (ran : Runs (batching topo) (measureRoom fp ((candidates.lookup dev).getD []) cache) syncer
        filters (.error errno) after final) :
      Registering topo pairs candidates (dev :: devs) cache syncer filters [] after final
  | registered {dev : Name} {devs : List Name} {fp : FastPair} {cache cache' : ReadBack}
      {syncer middle after : Syncer} {filters between final : Filters} {onCard : Finset Mac}
      {course : List Burst} {burst : Burst} (known : pairs.find? (·.dev = dev) = some fp)
      (named : burst.dev = fp.dev ∧ burst.anat = fp.anat ∧
        burst.macs = (lastPorts ((candidates.lookup dev).getD [])).keys.toFinset)
      (measured : Runs (batching topo) (measureRoom fp ((candidates.lookup dev).getD []) cache) syncer
        filters (.ok (onCard, cache')) burst.syncer burst.filters)
      (filled : Runs (batching topo) (fillCard topo burst.dev burst.anat (ascending burst.macs) onCard)
        burst.syncer burst.filters () middle between)
      (rest : Registering topo pairs candidates devs cache' middle between course after final) :
      Registering topo pairs candidates (dev :: devs) cache syncer filters (burst :: course) after final

theorem registerEach_course {topo : Topology} {pairs : List FastPair} {candidates : Candidates}
    {devs : List Name} {cache : ReadBack} {syncer after : Syncer} {filters final : Filters}
    {result : Except Errno Unit}
    (ran : Runs (batching topo) (registerEach topo pairs candidates devs cache) syncer filters result
      after final) :
    ∃ course, Registering topo pairs candidates devs cache syncer filters course after final := by
  induction devs generalizing cache syncer filters result with
  | nil =>
      obtain ⟨-, rfl, rfl⟩ := runs_pure.mp ran
      exact ⟨[], .finished⟩
  | cons dev rest ih =>
      rw [registerEach] at ran
      split at ran
      · rename_i unknown
        obtain ⟨course, later⟩ := ih ran
        exact ⟨course, .unpaired unknown later⟩
      · rename_i fp known
        obtain ⟨turn, middle, between, first, ran⟩ := runs_bind.mp ran
        rcases registerLearns_runs first with ⟨errno, rfl, broken⟩ |
          ⟨onCard, cache', start, begun, rfl, measured, filled⟩
        · obtain ⟨-, rfl, rfl⟩ := runs_pure.mp ran
          exact ⟨[], .brokenOff known broken⟩
        · obtain ⟨course, later⟩ := ih ran
          let burst : Burst := ⟨fp.dev, fp.anat,
            (lastPorts ((candidates.lookup dev).getD [])).keys.toFinset, start, begun⟩
          exact ⟨burst :: course, .registered known ⟨rfl, rfl, rfl⟩ measured filled later⟩

section Course

variable {topo : Topology} {pairs : List FastPair} {candidates : Candidates} {devs : List Name}
  {cache : ReadBack} {syncer after : Syncer} {filters final : Filters} {course : List Burst}

theorem dev_of_find {fp : FastPair} {dev : Name} (known : pairs.find? (·.dev = dev) = some fp) :
    fp.dev = dev := by
  simpa using List.find?_some known

/-- What a batch remembers of an interface's list is that list. -/
def ReadBack.ShowsAt (cache : ReadBack) (topo : Topology) (own : Index → Finset Mac) (place : Index) :
    Prop :=
  ∀ list, cache place = some list → list = topo.held own place

theorem safe_batching {α : Type} {action : Sync α} {post : α → Syncer → Filters → Prop}
    (safe : Safe (sharing topo) action post syncer filters) :
    Safe (batching topo) action post syncer filters :=
  Program.Safe.weaken safe (fun _ _ _ => trivial) fun _ _ _ _ answered => answered.1

theorem readBack_shows {index : Index} {own : Index → Finset Mac} (stands : filters.own = own) :
    Safe (batching topo) (readBack index cache) (fun result after final =>
      after = syncer ∧ final.own = own ∧ ∀ list cache', result = .ok (list, cache') →
        (∀ place, cache.ShowsAt topo own place → cache'.ShowsAt topo own place) ∧
        (cache.ShowsAt topo own index → list = topo.held own index)) syncer filters := by
  rw [readBack]
  split
  · rename_i list known
    refine ⟨rfl, stands, fun list' cache' same => ?_⟩
    obtain ⟨rfl, rfl⟩ := Prod.mk.inj (Except.ok.inj same)
    exact ⟨fun _ shows => shows, fun shows => shows _ known⟩
  · refine safe_bind.mpr (safe_ask.mpr ⟨trivial, fun answer after answered => ?_⟩)
    obtain ⟨settled, listed⟩ := answered
    obtain rfl : after = filters := settled
    cases answer with
    | error errno => exact ⟨rfl, stands, fun _ _ found => by cases found⟩
    | ok entries =>
        have true_list := listed index entries rfl
        refine ⟨rfl, stands, fun list' cache' same => ?_⟩
        obtain ⟨rfl, rfl⟩ := Prod.mk.inj (Except.ok.inj same)
        rw [stands] at true_list
        refine ⟨fun place shows list found => ?_, fun _ => true_list⟩
        by_cases here : place = index
        · subst here
          rw [Function.update_self] at found
          exact (Option.some.inj found) ▸ true_list
        · rw [Function.update_of_ne here] at found
          exact shows list found

theorem stock_setPorts {dev other : Name} {ports : Option PortMap} (apart : other ≠ dev) :
    (syncer.setPorts dev ports).stock other = syncer.stock other := by
  simp [Syncer.stock, Syncer.setPorts, apart]

theorem measureRoom_measures {fp : FastPair} {learns : List (Mac × Index)} :
    Safe (batching topo) (measureRoom fp learns cache) (fun result after final =>
      final.own = filters.own ∧ after.toSettings = syncer.toSettings ∧
      (∀ other ≠ fp.dev, after.stock other = syncer.stock other) ∧
      ∀ list cache', result = .ok (list, cache') →
        (∀ place, cache.ShowsAt topo filters.own place → cache'.ShowsAt topo filters.own place) ∧
        (cache.ShowsAt topo filters.own fp.anat.card → list = topo.held filters.own fp.anat.card))
      syncer filters := by
  refine safe_bind.mpr (safe_ask.mpr ⟨trivial, fun now read answered => ?_⟩)
  obtain rfl : read = filters := answered.1
  refine safe_bind.mpr (safe_modify.mpr ((readBack_shows rfl).mono ?_))
  rintro result after final ⟨rfl, same, shows⟩
  refine ⟨same, ?_, fun other apart => ?_, shows⟩
  · split <;> rfl
  · split
    · exact stock_setPorts apart
    · rfl

/-- The filters of other uplinks are none of a turn's business. -/
theorem held_of_elsewhere {own own' : Index → Finset Mac} {index place : Index}
    (elsewhere : ∀ other ≠ index, own' other = own other) (unshared : place ∉ topo.filterChain index) :
    topo.held own' place = topo.held own place := by
  ext mac
  rw [Topology.mem_held, Topology.mem_held]
  refine exists_congr fun other => and_congr_right fun feeds => ?_
  rw [elsewhere other fun same => unshared (same ▸ feeds)]

theorem Registering.settings
    (ran : Registering topo pairs candidates devs cache syncer filters course after final) :
    after.toSettings = syncer.toSettings := by
  induction ran with
  | finished => rfl
  | unpaired unknown rest ih => exact ih
  | brokenOff known ran => exact (measureRoom_measures.runs ran).2.1
  | registered known named measured filled rest ih =>
      have first := (measureRoom_measures.runs measured).2.1
      have second := ((safe_batching fillCard_fills).runs filled).2.2.1
      exact ih.trans (second.trans first)

/-- What is kept about an uplink changes in its own turn only. -/
theorem Registering.stock {dev : Name} (apart : dev ∉ devs)
    (ran : Registering topo pairs candidates devs cache syncer filters course after final) :
    after.stock dev = syncer.stock dev := by
  induction ran with
  | finished => rfl
  | unpaired unknown rest ih => exact ih fun later => apart (.tail _ later)
  | brokenOff known ran =>
      have here := dev_of_find known
      refine (measureRoom_measures.runs ran).2.2.1 dev fun same => apart ?_
      rw [same, here]
      exact .head _
  | registered known named measured filled rest ih =>
      have here := dev_of_find known
      obtain ⟨sameDev, -, -⟩ := named
      have other : dev ≠ _ := fun same => apart (same.trans here ▸ .head _)
      have first := (measureRoom_measures.runs measured).2.2.1 dev other
      have second := ((safe_batching fillCard_fills).runs filled).2.2.2.1 dev (sameDev ▸ other)
      exact (ih fun later => apart (.tail _ later)).trans (second.trans first)

/-- A filter none of the uplinks to come writes into stays as it is. -/
theorem Registering.held {place : Index}
    (unshared : ∀ dev ∈ devs, ∀ fp, pairs.find? (·.dev = dev) = some fp →
      place ∉ topo.filterChain fp.anat.dev)
    (ran : Registering topo pairs candidates devs cache syncer filters course after final) :
    topo.held final.own place = topo.held filters.own place := by
  induction ran with
  | finished => rfl
  | unpaired unknown rest ih => exact ih fun dev later => unshared dev (.tail _ later)
  | brokenOff known ran => rw [(measureRoom_measures.runs ran).1]
  | registered known named measured filled rest ih =>
      obtain ⟨-, sameAnat, -⟩ := named
      have first := (measureRoom_measures.runs measured).1
      have second := ((safe_batching fillCard_fills).runs filled).2.1
      rw [ih fun dev later => unshared dev (.tail _ later), ← first]
      exact held_of_elsewhere second (sameAnat ▸ unshared _ (.head _) _ known)

theorem Registering.dev_mem {burst : Burst} (member : burst ∈ course)
    (ran : Registering topo pairs candidates devs cache syncer filters course after final) :
    burst.dev ∈ devs := by
  induction ran with
  | finished => cases member
  | unpaired unknown rest ih => exact .tail _ (ih member)
  | brokenOff known ran => cases member
  | registered known named measured filled rest ih =>
      rcases List.mem_cons.mp member with rfl | later
      · rw [named.1, dev_of_find known]
        exact .head _
      · exact .tail _ (ih later)

/-- An uplink with a filter of its own is left room, or nothing it could release, just
when what its turn picked provides for it. -/
theorem Registering.contained {burst : Burst} (member : burst ∈ course) (nodup : devs.Nodup)
    (carries : burst.anat.card = burst.anat.dev)
    (unshared : ∀ dev ∈ devs, dev ≠ burst.dev → ∀ fp, pairs.find? (·.dev = dev) = some fp →
      burst.anat.dev ∉ topo.filterChain fp.anat.dev)
    (shows : cache.ShowsAt topo filters.own burst.anat.dev)
    (ran : Registering topo pairs candidates devs cache syncer filters course after final)
    (registers : burst.macs ⊆ topo.held final.own burst.anat.dev) :
    burst.Contained topo after final ↔ burst.Provides topo := by
  induction ran with
  | finished => cases member
  | unpaired unknown rest ih =>
      exact ih member nodup.of_cons (fun dev later => unshared dev (.tail _ later)) shows registers
  | brokenOff known ran => cases member
  | @registered dev devs fp cache cache' syncer middle after filters between final onCard course first
      known named measured filled rest ih =>
      obtain ⟨fresh, nodup⟩ := List.nodup_cons.mp nodup
      have here := dev_of_find known
      obtain ⟨sameDev, sameAnat, -⟩ := named
      obtain ⟨stands, -, -, listed⟩ := measureRoom_measures.runs measured
      obtain ⟨keepsShowing, trueList⟩ := listed onCard cache' rfl
      obtain ⟨⟨came, which, settles⟩, elsewhere, gave⟩ := (safe_batching fillCard_fills).runs filled
      rcases List.mem_cons.mp member with rfl | later
      · -- the turn itself: the list is the one measured, and nobody writes there afterwards
        have onCard_eq : onCard = burst.list topo := by
          rw [Burst.list, stands, carries.symm, sameAnat]
          exact trueList (by rwa [← sameAnat, carries])
        have picks : burst.filters.gives burst.syncer burst.dev (burst.syncer.shortOf
            ((topo.nameOf burst.anat.card).getD burst.dev) (ascending burst.macs) onCard) =
            burst.picked topo := by
          rw [shortOf_eq, onCard_eq]
          rfl
        rw [picks] at settles gave
        have stays : topo.held final.own burst.anat.dev = topo.held between.own burst.anat.dev :=
          rest.held fun dev later fp known' => unshared dev (.tail _ later)
            (fun same => fresh (here ▸ sameDev ▸ same ▸ later)) fp known'
        have stock : after.stock burst.dev = middle.stock burst.dev :=
          rest.stock fun later => fresh (here ▸ sameDev ▸ later)
        refine Burst.contained_iff_provides ?_ fun mac => ?_
        · rw [stays] at registers ⊢
          rcases which with rfl | rfl
          · exact settles
          · rw [Finset.union_empty] at settles
            rw [settles] at registers ⊢
            exact (Finset.union_eq_left.mpr registers).symm
        · rw [Syncer.Releasable.of_stock stock]
          exact gave.2.2 mac
      · have apart : first.dev ≠ burst.dev := fun same =>
          fresh (here ▸ sameDev ▸ same ▸ rest.dev_mem later)
        have alone : burst.anat.dev ∉ topo.filterChain first.anat.dev :=
          sameAnat ▸ unshared dev (.head _) (fun same => apart (sameDev.trans (here.trans same))) fp known
        refine ih later nodup (fun dev later => unshared dev (.tail _ later)) ?_ registers
        intro list found
        rw [held_of_elsewhere elsewhere alone, stands]
        exact keepsShowing _ shows list found

end Course

end SriovMacSync
