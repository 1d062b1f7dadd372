import SriovMacSync.Custody.Ledger
import SriovMacSync.Preview.Moment
import SriovMacSync.Preview.Untouched

namespace SriovMacSync

open Data Netlink Interaction Interaction.Action

/-! # What an uplink's turn comes to, told beforehand

The numbers a turn reports are a function of the moment it starts in: what the dump, the
driver and the note say, and what is remembered of the uplink. -/

/-- What a report says of the work on a filter. -/
structure Numbers where
  wanted : Nat
  quiet : Nat
  added : Nat
  removed : Nat
deriving DecidableEq, Repr

def Report.numbers (report : Report) : Numbers :=
  ⟨report.wanted, report.quiet, report.added, report.removed⟩

variable {moment : Moment} {shelf shelf' : Shelf} {syncer after : Syncer} {dev : Name} {index : Index}
  {topo : Topology} {reading : Reading} {pair : Pair} {link : Link} {anat : Anatomy} {answer : Answer}
  {owned want : Finset Mac}

namespace Moment

variable (moment : Moment) (reading : Reading) (shelf : Shelf) (syncer : Syncer)

/-- What a turn wants of a filter, and the answer it leaves to those that come after. -/
def judge (dev : Name) (anat : Anatomy) (answer : Answer) (owned : Finset Mac) : Except Errno (Wanted × Answer) :=
  let wanted := syncer.wantedWithKeeps reading.topo anat reading.fdb answer.vfMacs owned
  if answer.carried ∧ (syncer.newlyQuiet dev wanted.kept ∨ ¬ wanted.want ⊆ selfList reading.fdb anat.dev) then
    (moment.driver reading.pfs).map fun fresh =>
      (syncer.wantedWithKeeps reading.topo anat reading.fdb fresh owned, ⟨fresh, false⟩)
  else
    .ok (wanted, answer)

/-- What a turn comes to for what it wants. -/
def count (dev : Name) (anat : Anatomy) (owned : Finset Mac) (wanted : Wanted) : Numbers :=
  let relieved := syncer.relieve reading dev anat wanted owned
  { wanted := relieved.want.card
    quiet := relieved.kept.card
    added := (relieved.want \ selfList reading.fdb anat.dev).card
    removed := (owned \ relieved.want).card }

/-- The memory of an uplink once its file was consulted. -/
def recalling (dev : Name) : Syncer := syncer.setPorts dev (syncer.brings reading.topo shelf dev)

def foresee (dev : Name) (anat : Anatomy) (answer : Answer) : Except Errno (Numbers × Answer) :=
  let syncer := recalling reading shelf syncer dev
  let owned := moment.owned shelf dev
  (moment.judge reading syncer dev anat answer owned).map fun found =>
    (count reading syncer dev anat owned found.1, found.2)

/-- The same for a pair, where the reading has the device, its bridge and a way between
them. -/
def foreseePair (pair : Pair) (answer : Answer) : Except Errno (Option Numbers × Answer) :=
  match reading.topo.get pair.dev, reading.topo.indexOf pair.bridge with
  | some link, some bridge =>
      match reading.topo.anatomy link.index bridge with
      | some anat => (moment.foresee reading shelf syncer pair.dev anat answer).map fun found => (some found.1, found.2)
      | none => .ok (none, answer)
  | _, _ => .ok (none, answer)

/-- The answer the pairs of a list leave behind. -/
def answerAfter : List Pair → Answer → Except Errno Answer
  | [], answer => .ok answer
  | pair :: rest, answer =>
      match moment.foreseePair reading shelf syncer pair answer with
      | .error errno => .error errno
      | .ok found => answerAfter rest found.2

end Moment

section Congruence

variable (bears : reading.topo.nameOf anat.dev = some dev) (settings : after.toSettings = syncer.toSettings)
  (stock : after.stock dev = syncer.stock dev)

include bears settings stock

theorem judge_congr : moment.judge reading after dev anat answer owned =
    moment.judge reading syncer dev anat answer owned := by
  obtain ⟨carried, ports⟩ := Prod.mk.inj stock
  have wanted {vfMacs : List (Index × Mac)} := @wantedWithKeeps_congr syncer after dev reading.topo anat
    bears settings ports reading.fdb vfMacs owned
  have quiet {kept : Finset Mac} : after.newlyQuiet dev kept = syncer.newlyQuiet dev kept := by
    rw [Syncer.newlyQuiet, Syncer.newlyQuiet, carried]
  simp only [Moment.judge, wanted, quiet]

omit bears in
theorem relieve_congr {wanted : Wanted} :
    after.relieve reading dev anat wanted owned = syncer.relieve reading dev anat wanted owned := by
  have ports := (Prod.mk.inj stock).2
  have limit {card : Name} : after.limitOf card = syncer.limitOf card := by
    simp only [Syncer.limitOf, settings]
  have stamps : after.stampOf dev = syncer.stampOf dev := by
    funext mac
    rw [Syncer.stampOf, Syncer.stampOf, ports]
  simp only [Syncer.relieve, Syncer.pressAtPass, limit, stamps]

end Congruence

section Turn

theorem loadPorts_still : Safe moment.still (loadPorts dev topo) (fun _ after shelf' =>
    shelf' = shelf ∧ PortMarks syncer after ∧ after.carriedPorts dev = syncer.brings topo shelf dev) syncer shelf := by
  apply safe_bind.mpr (safe_get.mpr ?_)
  split
  · rename_i read
    refine ⟨rfl, .refl _, ?_⟩
    rw [Syncer.brings]
    split
    · assumption
    · rw [if_pos read]
      assumption
  · rename_i unread
    apply safe_bind.mpr (safe_modify.mpr ?_)
    split
    · rename_i carried
      obtain ⟨ports, known⟩ := Option.isSome_iff_exists.mp carried
      refine ⟨rfl, ⟨_, _, _, rfl⟩, ?_⟩
      rw [Syncer.brings, known]
    · rename_i uncarried
      have none : syncer.carriedPorts dev = none := by simpa using uncarried
      apply safe_bind.mpr
      apply still_ask
      intro now between answered stands
      obtain rfl : between = shelf := stands
      obtain rfl : now = between.clock := answered.1
      apply safe_bind.mpr (safe_bind.mpr ?_)
      apply still_ask
      intro text between' answered _
      obtain ⟨same, told⟩ := answered
      subst same told
      apply safe_pure.mpr
      dsimp only
      rw [← believed]
      split
      · rename_i some
        refine ⟨rfl, ⟨_, _, _, rfl⟩, ?_⟩
        rw [Syncer.brings, none]
        dsimp only
        rw [if_neg unread, if_neg some]
        simp [Syncer.setPorts, Syncer.setPortsWritten]
      · rename_i empty
        refine ⟨rfl, ⟨_, _, _, rfl⟩, ?_⟩
        rw [Syncer.brings, none]
        dsimp only
        rw [if_neg unread, if_pos (by simpa using empty)]

theorem decideWanted_still : Safe moment.still (decideWanted reading dev anat answer owned)
    (fun decision after shelf' => decision = moment.judge reading syncer dev anat answer owned ∧ shelf' = shelf ∧
      Syncer.Beside dev syncer after) syncer shelf := by
  have beside : Safe moment.still (decideWanted reading dev anat answer owned) (fun _ after shelf' =>
      shelf' = shelf ∧ Syncer.Beside dev syncer after) syncer shelf :=
    (still_of_shelf decideWanted_shelf).mono fun _ _ _ holds => ⟨holds.1, holds.2.1⟩
  have judged : Safe moment.still (decideWanted reading dev anat answer owned) (fun decision _ _ =>
      decision = moment.judge reading syncer dev anat answer owned) syncer shelf := by
    apply safe_bind.mpr (safe_get.mpr ?_)
    dsimp only [Moment.judge]
    split
    · apply safe_bind.mpr (safe_modify.mpr ?_)
      apply safe_bind.mpr
      apply still_ask
      intro fresh _ _ told
      obtain rfl : fresh = moment.driver reading.pfs := told
      cases moment.driver reading.pfs with
      | error errno => exact rfl
      | ok fresh => exact safe_bind.mpr (safe_modify.mpr rfl)
    · exact rfl
  exact (judged.and beside).mono fun _ _ _ holds => ⟨holds.1, holds.2.1, holds.2.2⟩

theorem length_filter_of_arrangement {set : Finset Mac} (order : Arrangement set) (keep : Mac → Prop)
    [DecidablePred keep] : (order.list.filter (fun mac => keep mac)).length = (set.filter keep).card := by
  have nodup := order.nodup.filter fun mac => decide (keep mac)
  rw [← List.toFinset_card_of_nodup nodup]
  congr 1
  ext mac
  simp [order.mem_iff]

/-- What goes in and what comes out, counted beforehand. -/
theorem settleCard_still (legible : moment.legible dev = true) :
    Safe moment.still (settleCard reading dev index want owned) (fun settled _ _ =>
      settled.added = (want \ selfList reading.fdb index).card ∧ settled.removed = (owned \ want).card)
      syncer shelf := by
  apply safe_bind.mpr (safe_get.mpr ?_)
  dsimp only
  set act := reading.apply && !syncer.dryRun
  set present := selfList reading.fdb index
  apply safe_bind.mpr
  apply still_ask
  intro wantOrder _ _ _
  set toAdd := wantOrder.list.filter (· ∉ present) with toAdd_def
  have additions : toAdd.length = (want \ present).card := by
    rw [toAdd_def, length_filter_of_arrangement, Finset.filter_notMem_eq_sdiff]
  have within : ∀ mac ∈ toAdd, mac ∈ want := fun mac listed =>
    (wantOrder.mem_iff mac).mp (List.mem_of_mem_filter listed)
  apply safe_bind.mpr
  apply always_still.mono
  intro _ _ _ _
  have registers {before : Syncer} {between : Shelf} : Safe moment.still (registerMissing act dev index toAdd)
      (fun put _ _ => (act = true → put = toAdd) ∧ ∀ mac ∈ put, mac ∈ want) before between := by
    rw [registerMissing]
    split
    · apply safe_bind.mpr
      apply (registerBatchLocked_still legible).mono
      intro registered _ _ facts
      obtain ⟨failures, same⟩ := facts
      subst same
      exact ⟨fun _ => rfl, within⟩
    · rename_i idle
      refine ⟨fun acts => ?_, by simp⟩
      by_contra some
      exact idle ⟨acts, Ne.symm some⟩
  apply safe_bind.mpr
  apply registers.mono
  intro put _ _ facts
  obtain ⟨puts, wanted⟩ := facts
  apply safe_bind.mpr
  apply still_ask
  intro ownedOrder _ _ _
  set stale := ownedOrder.list.filter (· ∉ want) with stale_def
  have removals : stale.length = (owned \ want).card := by
    rw [stale_def, length_filter_of_arrangement, Finset.filter_notMem_eq_sdiff]
    congr 1
    ext mac
    simp only [Finset.mem_sdiff, Finset.mem_union, List.mem_toFinset]
    exact ⟨fun holds => ⟨holds.1.resolve_right fun entered => holds.2 (wanted mac entered), holds.2⟩,
      fun holds => ⟨.inl holds.1, holds.2⟩⟩
  have retires {before : Syncer} {between : Shelf} : Safe moment.still (retireStale act dev index stale)
      (fun retired _ _ => act = true → retired.dropped = stale) before between := by
    rw [retireStale]
    split
    · apply safe_bind.mpr
      apply retire_still.mono
      intro retired _ _ dropped
      exact safe_bind.mpr (safe_modify.mpr fun _ => dropped)
    · rename_i idle
      intro acts
      by_contra some
      exact idle ⟨acts, Ne.symm some⟩
  apply safe_bind.mpr
  apply retires.mono
  intro retired _ _ dropped
  apply safe_bind.mpr
  apply always_still.mono
  intro _ _ _ _
  apply safe_pure.mpr
  dsimp only
  cases acts : act with
  | true => exact ⟨by rw [if_pos rfl, puts acts, additions], by rw [if_pos rfl, dropped acts, removals]⟩
  | false => exact ⟨by simp [additions], by simp [removals]⟩

/-- What a turn returns, as far as it was foreseen. -/
def Agrees (result : Except Errno (Option Report × Answer)) (foreseen : Except Errno (Option Numbers × Answer))
    (counted : Prop) : Prop :=
  result.map (·.2) = foreseen.map (·.2) ∧
    (counted → result.map (fun out => out.1.map Report.numbers) = foreseen.map (·.1))

theorem passUplink_still (bears : reading.topo.nameOf anat.dev = some pair.dev) :
    Safe moment.still (passUplink reading pair link anat answer) (fun result _ _ =>
      Agrees result ((moment.foresee reading shelf syncer pair.dev anat answer).map fun found => (some found.1, found.2))
        (moment.legible pair.dev = true)) syncer shelf := by
  apply safe_bind.mpr
  apply loadPorts_still.mono
  intro _ syncer₁ shelf₁ facts
  obtain ⟨same₁, marks₁, recalled⟩ := facts
  subst same₁
  apply safe_bind.mpr
  apply loadOwned_still.mono
  intro owned syncer₂ shelf₂ facts
  obtain ⟨same₂, marks₂, told, _⟩ := facts
  subst same₂ told
  apply safe_bind.mpr
  apply noteIsReadable_still.mono
  intro readable syncer₃ shelf₃ facts
  obtain ⟨same₃, same₃', _⟩ := facts
  subst same₃ same₃'
  set recalls := Moment.recalling reading shelf₃ syncer pair.dev with recalls_def
  have settings : syncer₃.toSettings = recalls.toSettings := by
    obtain ⟨_, _, _, made⟩ := marks₁
    rw [(Syncer.Beside.of_noteMarks marks₂ : Syncer.Beside pair.dev _ _).settings, made]
    rfl
  have stock : syncer₃.stock pair.dev = recalls.stock pair.dev := by
    rw [(Syncer.Beside.of_noteMarks marks₂ : Syncer.Beside pair.dev _ _).stock]
    obtain ⟨_, _, _, made⟩ := marks₁
    simp only [Syncer.stock, recalled, recalls_def, Moment.recalling, Syncer.setPorts, Function.update_self]
    rw [made]
  apply safe_bind.mpr
  apply decideWanted_still.mono
  intro decision syncer₄ shelf₄ facts
  obtain ⟨judged, same₄, beside⟩ := facts
  subst same₄
  rw [judge_congr bears settings stock] at judged
  rw [Moment.foresee, ← recalls_def]
  dsimp only
  rw [← judged]
  cases decision with
  | error errno => exact ⟨rfl, fun _ => rfl⟩
  | ok found =>
      obtain ⟨wanted, answer'⟩ := found
      apply safe_bind.mpr (safe_get.mpr ?_)
      have relieved := @relieve_congr recalls syncer₄ pair.dev reading anat (moment.owned shelf₄ pair.dev)
        (beside.settings.trans settings) (beside.stock.trans stock) wanted
      rw [relieved]
      apply safe_bind.mpr
      apply always_still.mono
      intro _ _ _ _
      have settles {before : Syncer} {between : Shelf} {want : Finset Mac} :
          Safe moment.still (settleCard reading pair.dev anat.dev want (moment.owned shelf₄ pair.dev))
            (fun settled _ _ => moment.legible pair.dev = true →
              settled.added = (want \ selfList reading.fdb anat.dev).card ∧
                settled.removed = (moment.owned shelf₄ pair.dev \ want).card) before between := by
        by_cases legible : moment.legible pair.dev = true
        · exact (settleCard_still legible).mono fun _ _ _ counted _ => counted
        · exact always_still.mono fun _ _ _ _ readable => absurd readable legible
      apply safe_bind.mpr
      apply settles.mono
      intro settled _ _ counted
      apply safe_bind.mpr
      apply always_still.mono
      intro _ _ _ _
      refine safe_bind.mpr (safe_modify.mpr (safe_pure.mpr ⟨rfl, fun legible => ?_⟩))
      obtain ⟨added, removed⟩ := counted legible
      simp only [Except.map, Option.map, Report.numbers, added, removed]
      rfl

end Turn

section Pairs

/-- A note that is recorded, where it is, for the interface its device names. -/
def OwnNote (topo : Topology) (syncer : Syncer) (shelf : Shelf) (pair : Pair) : Prop :=
  ∀ link bridge anat, topo.get pair.dev = some link → topo.indexOf pair.bridge = some bridge →
    topo.anatomy link.index bridge = some anat →
      syncer.Recalls pair.dev link.index ∧ ∀ index, (shelf.drawer pair.dev).record = some index → index = link.index

/-- A name whose note is its own needs no settling. -/
theorem settleName_still (recalls : syncer.Recalls dev index)
    (recorded : ∀ place, (shelf.drawer dev).record = some place → place = index) :
    Safe moment.still (settleName reading dev index) (fun goes after shelf' =>
      goes = true ∧ after = syncer ∧ shelf' = shelf) syncer shelf := by
  have own : Safe moment.still (recordedIndex dev) (fun found after shelf' =>
      (found = none ∨ found = some index) ∧ after = syncer ∧ shelf' = shelf) syncer shelf := by
    apply safe_bind.mpr (safe_get.mpr ?_)
    rcases recalls with none | same
    · rw [none]
      apply still_ask
      intro found after answered told
      obtain rfl : found = (shelf.drawer dev).record := told
      refine ⟨?_, rfl, answered.1⟩
      cases kept : (shelf.drawer dev).record with
      | none => exact .inl rfl
      | some place => exact .inr (congrArg some (recorded place kept))
    · rw [same]
      exact ⟨.inr rfl, rfl, rfl⟩
  apply safe_bind.mpr
  apply own.mono
  intro found after shelf' ⟨found_own, same, same'⟩
  rw [if_pos found_own]
  exact ⟨rfl, same, same'⟩

theorem passPair_still (own : OwnNote reading.topo syncer shelf pair) :
    Safe moment.still (passPair reading pair answer) (fun result _ _ =>
      Agrees result (moment.foreseePair reading shelf syncer pair answer) (moment.legible pair.dev = true))
      syncer shelf := by
  rw [passPair, Moment.foreseePair]
  cases found : reading.topo.get pair.dev with
  | none => exact ⟨rfl, fun _ => rfl⟩
  | some link =>
      cases below : reading.topo.indexOf pair.bridge with
      | none => exact ⟨rfl, fun _ => rfl⟩
      | some bridge =>
          dsimp only
          cases located : reading.topo.anatomy link.index bridge with
          | none => exact ⟨rfl, fun _ => rfl⟩
          | some anat =>
              obtain ⟨recalls, recorded⟩ := own link bridge anat found below located
              have bears := Topology.nameOf_of_indexOf (Topology.get_spec found).1
              apply safe_bind.mpr
              apply (settleName_still recalls recorded).mono
              intro goes after shelf' facts
              obtain ⟨goesOn, same, same'⟩ := facts
              subst goesOn same same'
              exact passUplink_still (Topology.anatomy_dev located ▸ bears)

end Pairs

end SriovMacSync
