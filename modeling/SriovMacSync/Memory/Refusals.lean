import SriovMacSync.Memory.Turn

namespace SriovMacSync

open Data Netlink Interaction Interaction.Action

/-! # What becomes of a refused removal

The rest of the pass goes over the memory once more. -/

variable {legible sure : Name → Prop} {start shelf shelf' : Shelf} {syncer after : Syncer} {dev : Name}
  {index : Index} {topo : Topology} {reading : Reading} {mac : Mac}

/-- What a pass leaves of an address whose removal was refused. -/
structure Aftermath (topo : Topology) (dev : Name) (mac : Mac) (learnt : Prop) (start : Shelf) (after : Syncer)
    (shelf' : Shelf) (new : List Deed) : Prop where
  deeds : (shelf'.drawer dev).deeds = new ++ (start.drawer dev).deeds
  refused : ∀ deed ∈ new, deed.Refused mac → dev ∈ after.portsLoaded ∧ mac ∈ (shelf'.drawer dev).note ∧
    Remembers topo dev mac learnt start after shelf'

namespace Aftermath

variable {learnt : Prop} {new : List Deed}

theorem of_precedes (precedes : Precedes topo dev syncer start after shelf') :
    Aftermath topo dev mac learnt start after shelf' [] :=
  ⟨precedes.deeds, nofun⟩

theorem beside {last : Syncer} {final : Shelf} (aftermath : Aftermath topo dev mac learnt start after shelf' new)
    (apart : Apart topo dev after shelf' last final) : Aftermath topo dev mac learnt start last final new where
  deeds := by rw [apart.drawer, aftermath.deeds]
  refused deed listed told := by
    obtain ⟨loaded, noted, remembers⟩ := aftermath.refused deed listed told
    refine ⟨apart.memory.loaded.mpr loaded, by rwa [apart.drawer], ?_, fun loose => ?_, fun stuck => ?_⟩
    · rw [apart.memory.carriedPorts]
      exact remembers.mapped
    · rw [Shelf.Recalls, apart.drawer]
      exact remembers.filed loose
    · rw [apart.drawer]
      exact remembers.stuck stuck

theorem of_turned {anat : Anatomy} {reports : Prop} {before : Syncer}
    (precedes : Precedes reading.topo dev before start syncer shelf)
    (faithful : before.Faithful reading.topo start dev)
    (turned : TurnedOver legible reading dev anat mac syncer shelf reports after shelf' new) :
    Aftermath reading.topo dev mac (Relearnt reading.topo anat reading.fdb mac) start after shelf' new where
  deeds := by rw [turned.deeds, precedes.deeds]
  refused deed listed told := by
    obtain ⟨noted, remembers⟩ := turned.refused (precedes.faithful faithful) deed listed told
    refine ⟨turned.loaded, noted, remembers.mapped, fun loose => ?_, fun stuck => ?_⟩
    · exact remembers.filed (precedes.stuck.trans loose)
    · exact (remembers.stuck (precedes.stuck.trans stuck)).trans (precedes.filed stuck)

end Aftermath

section Passes

variable {pair : Pair} {link : Link} {bridge : Index} {anat : Anatomy} {answer : Answer}

/-- An uplink's own turn, with what came before it. -/
theorem passPair_aftermath (plain : reading.topo.Plain) (got : reading.topo.get pair.dev = some link)
    (below : reading.topo.indexOf pair.bridge = some bridge)
    (found : reading.topo.anatomy link.index bridge = some anat) {before : Syncer}
    (precedes : Precedes reading.topo pair.dev before start syncer shelf)
    (faithful : before.Faithful reading.topo start pair.dev) (mac : Mac) :
    Safe (shelving legible sure) (passPair reading pair answer) (fun _ after shelf' =>
      (∃ new, Aftermath reading.topo pair.dev mac (Relearnt reading.topo anat reading.fdb mac) start after shelf' new) ∧
        shelf'.Away pair.dev ∧
        ∀ other ≠ pair.dev, shelf'.Leads reading.topo pair.dev other → start.Leads reading.topo pair.dev other)
      syncer shelf := by
  have bears := Topology.nameOf_of_indexOf (Topology.get_spec got).1
  obtain ⟨below', known⟩ := Topology.linkAt_bridge found
  simp only [passPair, got, below, found]
  apply safe_bind.mpr
  apply (settleName_shelf plain bears precedes.away).mono
  intro goes syncer₁ shelf₁ facts
  obtain ⟨settles, _⟩ := facts
  have earlier := precedes.trans settles
  split
  · apply (passUplink_shelf plain (Topology.anatomy_dev found ▸ bears)
      ((Topology.anatomy_bridge found).symm ▸ known) mac).mono
    intro _ after shelf' facts
    obtain ⟨new, turned⟩ := facts
    refine ⟨⟨new, .of_turned earlier faithful turned⟩, turned.away earlier.away, fun other apart led => ?_⟩
    obtain ⟨place, recorded, names⟩ := led
    exact earlier.leads other apart ⟨place, turned.others other apart ▸ recorded, names⟩
  · exact ⟨⟨[], .of_precedes earlier⟩, earlier.away, earlier.leads⟩

theorem passPairs_aftermath (plain : reading.topo.Plain) (got : reading.topo.get pair.dev = some link)
    (below : reading.topo.indexOf pair.bridge = some bridge)
    (found : reading.topo.anatomy link.index bridge = some anat) {before : Syncer} {earlier later : List Pair}
    (apart : ∀ other ∈ earlier ++ later, pair.dev ≠ other.dev)
    (unled : ∀ other ∈ later, ¬ start.Leads reading.topo pair.dev other.dev)
    (precedes : Precedes reading.topo pair.dev before start syncer shelf)
    (faithful : before.Faithful reading.topo start pair.dev) (mac : Mac) :
    Safe (shelving legible sure) (passPairs reading (earlier ++ pair :: later) answer) (fun _ after shelf' =>
      ∃ new, Aftermath reading.topo pair.dev mac (Relearnt reading.topo anat reading.fdb mac) start after shelf' new)
      syncer shelf := by
  induction earlier generalizing answer syncer shelf with
  | nil =>
      apply safe_bind.mpr
      apply (passPair_aftermath plain got below found precedes faithful mac).mono
      intro turn syncer₁ shelf₁ ⟨⟨new, aftermath⟩, away, leads⟩
      cases turn with
      | error errno => exact ⟨new, aftermath⟩
      | ok turn =>
          obtain ⟨report, answer'⟩ := turn
          apply safe_bind.mpr
          apply (passPairs_apart plain apart _ away).mono
          · intro reports after shelf' left
            cases reports with
            | error errno => exact ⟨new, aftermath.beside left⟩
            | ok reports => exact ⟨new, aftermath.beside left⟩
          · intro other listed led
            exact unled other listed (leads other.dev (apart other listed).symm led)
  | cons other rest ih =>
      apply safe_bind.mpr
      apply (passPair_shelf plain (apart other List.mem_cons_self) precedes.away).mono
      intro turn syncer₁ shelf₁ ⟨goes, _⟩
      have precedes := precedes.trans goes
      cases turn with
      | error errno => exact ⟨[], .of_precedes precedes⟩
      | ok turn =>
          obtain ⟨report, answer'⟩ := turn
          apply safe_bind.mpr
          apply (ih (fun other listed => apart other (List.mem_cons_of_mem _ listed)) precedes).mono
          intro reports after shelf' ends
          cases reports with
          | error errno => exact ends
          | ok reports => exact ends

theorem askDriver_apart {pfs : List Index} (away : shelf.Away dev) :
    Safe (shelving legible sure) (askDriver pfs) (fun _ after shelf' =>
      Apart topo dev syncer shelf after shelf' ∧ after.pairs = syncer.pairs ∧ shelf' = shelf) syncer shelf := by
  apply safe_bind.mpr (safe_get.mpr ?_)
  split
  · exact ⟨.refl away, rfl, rfl⟩
  · apply safe_bind.mpr (safe_ask.mpr ⟨trivial, ?_⟩)
    intro fresh shelf₁ same
    obtain rfl : shelf₁ = shelf := same
    cases fresh with
    | error errno => exact ⟨.refl away, rfl, rfl⟩
    | ok fresh =>
        refine safe_bind.mpr (safe_modify.mpr ⟨?_, rfl, rfl⟩)
        exact ⟨⟨rfl, rfl, Iff.rfl, rfl⟩, rfl, away, fun _ _ => id⟩

/-- A whole pass, held against one address of one uplink. -/
theorem reconcile_aftermath {apply : Bool} {earlier later : List Pair}
    (listed : syncer.pairs = earlier ++ pair :: later) (distinct : (syncer.pairs.map (·.dev)).Nodup)
    (plain : topo.Plain) (got : topo.get pair.dev = some link) (below : topo.indexOf pair.bridge = some bridge)
    (found : topo.anatomy link.index bridge = some anat)
    (unled : ∀ other ∈ later, ¬ shelf.Leads topo pair.dev other.dev)
    (faithful : syncer.Faithful topo shelf pair.dev) (away : shelf.Away pair.dev) (mac : Mac) :
    Safe (shelving legible sure) (reconcile apply topo) (fun _ after shelf' =>
      ∃ new, Aftermath topo pair.dev mac (Relearnt topo anat shelf.fdb mac) shelf after shelf' new)
      syncer shelf := by
  have apart : ∀ other ∈ earlier ++ later, pair.dev ≠ other.dev := by
    intro other member same
    rw [listed, List.map_append, List.map_cons] at distinct
    have absent := (List.nodup_cons.mp (List.perm_middle.nodup_iff.mp distinct)).1
    rw [← List.map_append] at absent
    exact absent (same ▸ List.mem_map_of_mem member)
  apply safe_bind.mpr (safe_get.mpr ?_)
  dsimp only
  split
  · rename_i none
    rw [listed] at none
    simp at none
  · apply safe_bind.mpr (safe_ask.mpr ⟨trivial, ?_⟩)
    intro dump shelf₀ ⟨same, shows⟩
    subst same
    have idle : Precedes topo pair.dev syncer shelf₀ syncer shelf₀ := .refl away
    cases dump with
    | error errno => exact ⟨[], .of_precedes idle⟩
    | ok fdb =>
        obtain rfl := shows fdb rfl
        apply safe_bind.mpr
        apply (@askDriver_apart _ _ _ _ _ topo _ away).mono
        intro answer syncer₁ shelf₁ ⟨left, samePairs, same⟩
        subst same
        have precedes := Precedes.of_apart left
        cases answer with
        | error errno => exact ⟨[], .of_precedes precedes⟩
        | ok answer =>
            apply safe_bind.mpr
            apply safe_bind.mpr (safe_ask.mpr ⟨trivial, ?_⟩)
            intro clock shelf₂ ⟨_, later', _, ticked⟩
            subst ticked
            refine safe_bind.mpr (safe_get.mpr (safe_bind.mpr (safe_modify.mpr (safe_pure.mpr ?_))))
            set syncer₂ : Syncer := { syncer₁ with lastPassAt := max clock (syncer₁.lastPassAt + 1) }
            have stamped : Precedes topo pair.dev syncer shelf₁ syncer₂ { shelf₁ with clock := later' } := by
              apply precedes.trans
              exact ⟨fun holds => holds.of_same rfl rfl, precedes.away, rfl, rfl, fun _ => rfl, fun _ _ => id⟩
            have live : pair.dev ∈ syncer₂.pairs.map (·.dev) := by
              change pair.dev ∈ syncer₁.pairs.map (·.dev)
              rw [samePairs, listed]
              simp
            apply safe_bind.mpr
            apply (dropOrphans_precedes plain live stamped.away).mono
            intro _ syncer₃ shelf₃ swept
            rw [listed]
            exact passPairs_aftermath plain got below found apart unled (stamped.trans swept) faithful mac

end Passes

/-- Whoever goes over the uplink next, and does not find the address wanted, asks for its
removal. -/
def Retried (legible sure : Name → Prop) (dev : Name) (mac : Mac) (syncer : Syncer) (shelf : Shelf) : Prop :=
  ∀ (reading : Reading) (pair : Pair) (link : Link) (bridge : Index) (anat : Anatomy) (answer answer' : Answer)
    (report : Report) (left : Syncer) (last : Shelf),
    pair.dev = dev → reading.topo.Plain → reading.topo.get dev = some link →
    reading.topo.anatomy link.index bridge = some anat → reading.apply = true → syncer.dryRun = false →
    legible dev → Runs (shelving legible sure) (passUplink reading pair link anat answer) syncer shelf
      (.ok (some report, answer')) left last →
    (∀ vfMacs, mac ∉ (syncer.wantedWithKeeps reading.topo anat reading.fdb vfMacs (shelf.drawer dev).note).want) →
    ∃ new, (last.drawer dev).deeds = new ++ (shelf.drawer dev).deeds ∧ ∃ deed ∈ new, deed.Retires mac

/-- A refused removal did not harden into a keep: the address is on the note, nothing
remembers a port of it, and its removal is tried again. -/
structure Unhardened (legible sure : Name → Prop) (topo : Topology) (dev : Name) (mac : Mac) (syncer : Syncer)
    (shelf : Shelf) : Prop where
  noted : mac ∈ (shelf.drawer dev).note
  unmapped : mac ∉ (syncer.carriedPorts dev).getD ∅
  unfiled : ¬ shelf.Recalls topo dev mac
  retried : Retried legible sure dev mac syncer shelf

theorem retried_of_noted (loaded : dev ∈ syncer.portsLoaded) (noted : mac ∈ (shelf.drawer dev).note) :
    Retried legible sure dev mac syncer shelf := by
  intro reading pair link bridge anat answer answer' report left last same plain got found applies acts certain ran
    unwanted
  subst same
  have bears := Topology.nameOf_of_indexOf (Topology.get_spec got).1
  obtain ⟨below, known⟩ := Topology.linkAt_bridge found
  obtain ⟨new, turned⟩ := (passUplink_shelf plain (Topology.anatomy_dev found ▸ bears)
    ((Topology.anatomy_bridge found).symm ▸ known) mac).runs ran
  exact ⟨new, turned.deeds, turned.retries ⟨report, answer', rfl⟩ applies acts certain loaded noted unwanted⟩

instance (deed : Deed) (mac : Mac) : Decidable (deed.Refused mac) :=
  match told : deed.reply with
  | .ok _ => .isFalse fun ⟨_, _, errno, same, _⟩ => by
      rw [told] at same
      cases same
  | .error errno =>
      decidable_of_iff (deed.add = false ∧ deed.mac = mac ∧ errno ≠ .noEntry) (by simp [Deed.Refused, told])

def unlearningSyncer : Syncer where
  pairs := [⟨"nic1", "br0"⟩]
  portsLoaded := {"nic1"}
  carriedPorts := fun dev => if dev = "nic1" then some ((∅ : PortMap).insert guest (4, 5)) else none

/-- A guest of the uplink shows up on the wire; whether it still does behind the bridge is
told by the dump. -/
def departedShelf (fdb : List FdbEntry) : Shelf where
  drawer := fun dev =>
    { note := if dev = "nic1" then {guest} else ∅, record := none, ports := none, stuck := false, deeds := [] }
  lists := fun index => if index = 2 then {guest} else ∅
  fdb := { guestLearnt with ifindex := 2 } :: Host.selfEntry 2 guest :: fdb
  clock := 12
  held := none

theorem departedShelf_runs (fdb : List FdbEntry) :
    Runs (shelving (fun _ => True) fun _ => True) (reconcile true bridgedTopology) unlearningSyncer (departedShelf fdb)
      ((departedShelf fdb).serves {guest} (reconcile true bridgedTopology) unlearningSyncer).1.1
      ((departedShelf fdb).serves {guest} (reconcile true bridgedTopology) unlearningSyncer).1.2
      ((departedShelf fdb).serves {guest} (reconcile true bridgedTopology) unlearningSyncer).2 :=
  Shelf.serves_runs {guest} ..

theorem relearnt_departed {anat : Anatomy} (found : bridgedTopology.anatomy 2 10 = some anat)
    {fdb : List FdbEntry} : Relearnt bridgedTopology anat (departedShelf fdb).fdb guest ↔
      guest ∈ (unlearningSyncer.wantedWithKeeps bridgedTopology anat (departedShelf fdb).fdb [] ∅).learntAt := by
  obtain ⟨below, known⟩ := Topology.linkAt_bridge found
  exact (mem_wanted_learntAt ((Topology.anatomy_bridge found).symm ▸ known)).symm

end SriovMacSync
