import SriovMacSync.Growth.Wire
import SriovMacSync.Memory.Reflecting
import SriovMacSync.Memory.Serving
import SriovMacSync.Pressure.Batch
import SriovMacSync.Sync.Spares

namespace SriovMacSync

open Data Netlink Interaction Interaction.Action

/-! # What a batch that saw an address on the wire leaves of it -/

variable {legible sure : Name → Prop} {shelf : Shelf} {syncer : Syncer} {dev : Name} {index : Index}
  {topo : Topology} {mac : Mac} {events : List Event}

section Deeds

/-- Nothing was taken out because of a reflection. -/
def Shelf.Unreflected (dev : Name) (mac : Mac) (before after : Shelf) : Prop :=
  ∃ new, (after.drawer dev).deeds = new ++ (before.drawer dev).deeds ∧ ∀ deed ∈ new, ¬ deed.Reflects mac

theorem Shelf.Unreflected.of_same {after : Shelf} (same : (after.drawer dev).deeds = (shelf.drawer dev).deeds) :
    Shelf.Unreflected dev mac shelf after := ⟨[], same, by simp⟩

theorem Shelf.Unreflected.trans {first second third : Shelf} (one : Shelf.Unreflected dev mac first second)
    (two : Shelf.Unreflected dev mac second third) : Shelf.Unreflected dev mac first third := by
  obtain ⟨new, noted, apart⟩ := one
  obtain ⟨more, noted', apart'⟩ := two
  refine ⟨more ++ new, by rw [noted', noted, List.append_assoc], fun deed listed => ?_⟩
  rcases List.mem_append.mp listed with listed | listed
  · exact apart' deed listed
  · exact apart deed listed

theorem Shelf.Unreflected.of_writing {work : Section} {answers : List (Mac × Except Errno Unit)}
    {held : Option (Name × Section)} {middle : Shelf} {note : Finset Mac}
    (writes : Writing dev work index false answers (shelf.hold held) middle)
    (other : ∀ macs, work ≠ .retire macs) :
    Shelf.Unreflected dev mac shelf ((middle.setNote dev note).hold none) := by
  refine ⟨(answers.map fun answer => (⟨work, index, answer.1, false, answer.2⟩ : Deed)).reverse,
    by simp [writes.drawer], fun deed listed reflects => ?_⟩
  obtain ⟨answer, _, rfl⟩ := List.mem_map.mp (List.mem_reverse.mp listed)
  obtain ⟨_, _, macs, same⟩ := reflects
  exact other macs same

/-- What writes to no filter adds nothing to what was done to filters. -/
theorem sparing_shelf {α : Type} {action : Sync α} (spares : Asks Call.SparesFilters action) :
    Safe (shelving legible sure) action (fun _ _ shelf' => ∀ dev, (shelf'.drawer dev).deeds = (shelf.drawer dev).deeds)
      syncer shelf := by
  have stays : Safe (shelving legible sure) action (fun _ _ shelf' => True ∧
      ∀ dev, (shelf'.drawer dev).deeds = (shelf.drawer dev).deeds) syncer shelf := by
    apply (spares syncer).frame
    · intro middle request same sparing
      refine ⟨trivial, fun reply after answered dev => Eq.trans ?_ (same dev)⟩
      have drawers {named : Name} {drawer : Drawer} (kept : drawer.deeds = (middle.drawer named).deeds) :
          ((middle.setDrawer named drawer).drawer dev).deeds = (middle.drawer dev).deeds := by
        by_cases here : dev = named
        · subst here
          simp [Shelf.setDrawer, kept]
        · simp [Shelf.setDrawer, here]
      cases request with
      | setSelfFdb index mac add => cases sparing
      | dumpFdb => rw [answered.1]
      | bootMillis =>
          obtain ⟨_, later, _, rfl⟩ := answered
          rfl
      | lock named work =>
          obtain rfl : after = _ := answered
          rfl
      | unlock named =>
          obtain rfl : after = _ := answered
          rfl
      | readNote named => cases reply <;> rw [answered.1]
      | putNote named macs =>
          rcases answered with ⟨_, rfl⟩ | ⟨_, _, rfl⟩
          · exact drawers rfl
          · rfl
      | appendNote named macs =>
          rcases answered with ⟨_, rfl⟩ | ⟨_, _, part, _, rfl⟩
          · exact drawers rfl
          · exact drawers rfl
      | removeNote named =>
          rcases answered with rfl | ⟨_, rfl⟩
          · exact drawers rfl
          · rfl
      | readIndex named => rw [answered.1]
      | putIndex named place =>
          rcases answered with ⟨_, rfl⟩ | ⟨_, _, rfl⟩
          · exact drawers rfl
          · rfl
      | removeIndex named =>
          rcases answered with rfl | ⟨_, rfl⟩
          · exact drawers rfl
          · rfl
      | readPorts named => rw [answered.1]
      | portsExist named => rw [answered.1]
      | putPorts named text =>
          replace answered : if _ then _ else _ := answered
          split at answered
          · rw [answered.2]
          · rw [answered.2]
            exact drawers rfl
      | removePorts named =>
          replace answered : if _ then _ else _ := answered
          split at answered
          · rw [answered.2]
          · rw [answered.2]
            exact drawers rfl
      | _ =>
          obtain rfl : after = middle := answered
          rfl
    · exact fun _ => rfl
  exact stays.mono fun _ _ _ holds => holds.2

theorem shedKeeps_unreflected {need : Nat} {onCard : Finset Mac} :
    Safe (shelving legible sure) (shedKeeps dev index need topo onCard)
      (fun _ _ shelf' => Shelf.Unreflected dev mac shelf shelf') syncer shelf := by
  apply safe_bind.mpr
  apply (sparing_shelf loadOwned_spares).mono
  intro _ syncer₁ shelf₁ same
  have start : Shelf.Unreflected dev mac shelf shelf₁ := .of_same (same dev)
  refine safe_bind.mpr (safe_bind.mpr (safe_get.mpr (safe_pure.mpr ?_)))
  split
  · apply safe_bind.mpr (safe_get.mpr ?_)
    split
    · dsimp only
      split
      · exact start
      · apply safe_bind.mpr
        apply retire_shelf.mono
        intro retired syncer₂ _ ⟨_, answers, note, middle, _, _, _, writes, left⟩
        subst left
        have sheds : Shelf.Unreflected dev mac shelf₁ ((middle.setNote dev note).hold none) :=
          .of_writing writes nofun
        split
        · exact start.trans sheds
        · apply safe_bind.mpr (safe_modify.mpr ?_)
          apply safe_bind.mpr
          apply (sparing_shelf savePorts_spares).mono
          intro _ syncer₃ shelf₃ same₃
          apply safe_bind.mpr (safe_modify.mpr ?_)
          apply safe_bind.mpr (safe_ask.mpr ⟨trivial, ?_⟩)
          intro _ shelf₄ same₄
          obtain rfl : shelf₄ = shelf₃ := same₄
          exact (start.trans sheds).trans (.of_same (same₃ dev))
    · exact start
  · exact start

/-- What a batch registers on an uplink takes nothing out because of a reflection. -/
theorem registerLearns_unreflected {fp : FastPair} {learns : List (Mac × Index)} {cache : ReadBack} :
    Safe (shelving legible sure) (registerLearns topo fp learns cache) (fun _ _ shelf' =>
      Shelf.Unreflected fp.dev mac shelf shelf' ∧ (shelf.Away fp.dev → shelf'.Away fp.dev)) syncer shelf := by
  apply safe_bind.mpr (safe_ask.mpr ⟨trivial, ?_⟩)
  intro now _ facts
  obtain ⟨_, later, _, ticked⟩ := facts
  subst ticked
  apply safe_bind.mpr (safe_modify.mpr ?_)
  apply safe_bind.mpr
  apply readBack_shelf.mono
  intro answer syncer₁ shelf₁ facts
  obtain ⟨_, same⟩ := facts
  have start : Shelf.Unreflected fp.dev mac shelf shelf₁ := .of_same (by rw [same])
  cases answer with
  | error errno => exact ⟨start, by rw [same]; exact id⟩
  | ok answer =>
      obtain ⟨onCard, cache'⟩ := answer
      apply safe_bind.mpr (safe_get.mpr ?_)
      apply safe_bind.mpr
      have made {excess : Nat} : Safe (shelving legible sure) (makeRoom fp.dev fp.anat.dev excess topo onCard)
          (fun _ _ shelf' => Shelf.Unreflected fp.dev mac shelf₁ shelf') syncer₁ shelf₁ := by
        rw [makeRoom]
        split
        · exact shedKeeps_unreflected
        · exact .of_same rfl
      apply made.mono
      intro freed syncer₂ shelf₂ makes
      apply safe_bind.mpr
      apply (sparing_shelf noteIndex_spares).mono
      intro _ syncer₃ shelf₃ same₃
      apply safe_bind.mpr
      apply safe_bind.mpr
      apply registerBatchLocked_shelf.mono
      intro registered syncer₄ shelf₄ facts
      obtain ⟨_, enters, _⟩ := facts
      have adds : Shelf.Unreflected fp.dev mac shelf₃ shelf₄ := by
        obtain ⟨new, noted, asked⟩ := enters.deeds
        refine ⟨new, noted, fun deed listed reflects => ?_⟩
        have added := (asked deed listed).2.2.1
        rw [reflects.2.1] at added
        cases added
      have whole := ((start.trans makes).trans (.of_same (same₃ fp.dev))).trans adds
      have free : shelf₄.Away fp.dev := by
        intro work
        rw [enters.free]
        simp
      cases registered with
      | none => exact ⟨whole, fun _ => free⟩
      | some done => exact ⟨whole, fun _ => free⟩

end Deeds

section Batch

/-- What became so far of an address that a batch saw on an uplink's wire. -/
def Outcome (legible sure : Name → Prop) (topo : Topology) (dev : Name) (index : Index) (mac : Mac)
    (before : Drawer) (prompt : Prop) (syncer : Syncer) (shelf : Shelf) : Prop :=
  shelf.Away dev ∧ ∃ new, (shelf.drawer dev).deeds = new ++ before.deeds ∧
    ((∀ deed ∈ new, ¬ deed.Reflects mac) ∧ (legible dev → mac ∉ before.note) ∨
      (∃ deed ∈ new, deed.Reflects mac) ∧ ∀ deed ∈ new, deed.Reflects mac →
        Reflected sure topo dev index mac deed.reply prompt syncer shelf)

variable {before : Drawer} {prompt : Prop}

theorem Outcome.imp {prompt' : Prop} (outcome : Outcome legible sure topo dev index mac before prompt syncer shelf)
    (implies : prompt → prompt') : Outcome legible sure topo dev index mac before prompt' syncer shelf := by
  obtain ⟨away, new, noted, none | ⟨some, each⟩⟩ := outcome
  · exact ⟨away, new, noted, .inl none⟩
  · exact ⟨away, new, noted, .inr ⟨some, fun deed listed reflects => (each deed listed reflects).imp implies⟩⟩

theorem Outcome.later {after : Syncer} {shelf' : Shelf}
    (outcome : Outcome legible sure topo dev index mac before prompt syncer shelf) (away : shelf'.Away dev)
    (unreflected : Shelf.Unreflected dev mac shelf shelf')
    (stays : Forgotten topo dev mac syncer shelf → Forgotten topo dev mac after shelf' ∧
      Shelf.Spares dev index mac shelf shelf')
    (wire : syncer.carriedWire dev ⊆ after.carriedWire dev) :
    Outcome legible sure topo dev index mac before prompt after shelf' := by
  obtain ⟨_, new, noted, told⟩ := outcome
  obtain ⟨more, noted', others⟩ := unreflected
  refine ⟨away, more ++ new, by rw [noted', noted, List.append_assoc], ?_⟩
  rcases told with ⟨none, unnoted⟩ | ⟨⟨deed, listed, reflects⟩, each⟩
  · refine .inl ⟨fun deed listed => ?_, unnoted⟩
    rcases List.mem_append.mp listed with listed | listed
    · exact others deed listed
    · exact none deed listed
  · refine .inr ⟨⟨deed, List.mem_append_right _ listed, reflects⟩, fun deed listed reflects => ?_⟩
    rcases List.mem_append.mp listed with listed | listed
    · exact absurd reflects (others deed listed)
    · have known := each deed listed reflects
      obtain ⟨forgotten, spares⟩ := stays known.forgotten
      exact known.later forgotten spares wire

theorem carriedWire_of_beside {after : Syncer} (beside : Syncer.Beside dev syncer after) :
    after.carriedWire dev = syncer.carriedWire dev := by
  rw [Syncer.carriedWire, Syncer.carriedWire, beside.carried]

theorem Outcome.beside {after : Syncer} {shelf' : Shelf}
    (outcome : Outcome legible sure topo dev index mac before prompt syncer shelf)
    (besides : Syncer.Beside dev syncer after) (aside : Shelf.Beside dev index shelf shelf') :
    Outcome legible sure topo dev index mac before prompt after shelf' := by
  apply outcome.later aside.away (.of_same (by rw [aside.drawer]))
  · exact fun forgotten => ⟨forgotten.move besides (by rw [aside.drawer]) (by rw [aside.drawer]), .of_beside aside⟩
  · rw [carriedWire_of_beside besides]

theorem registerLearns_batch {fp : FastPair} {learns : List (Mac × Index)} {cache : ReadBack} :
    Within (InScope Set.univ Set.univ) (registerLearns topo fp learns cache)
      (fun _ after => BatchMarks syncer after) syncer := by
  refine within_ask_bind (inScope_idle rfl rfl) fun now => ?_
  refine BatchMarks.bind (within_modify ?_) fun _ middle => ?_
  · split
    · exact .of_carried rfl rfl
    · exact .refl _
  apply readBack_within.bind
  intro answer after same
  subst same
  split
  · exact within_pure.mpr (.refl _)
  · refine within_get ?_
    refine BatchMarks.bind (makeRoom_within.mono (fun request scope => ?_) fun _ _ marks => marks)
      fun freed middle => ?_
    · exact ⟨scope.1, fun _ _ => trivial, fun _ _ => ⟨true, trivial⟩⟩
    refine BatchMarks.bind ((@noteIndex_within _ _ _ _ (Set.mem_univ _) _ true (Set.mem_univ _)).imp
      fun _ _ marks => marks.batch) fun _ middle => ?_
    refine BatchMarks.bind ?_ fun put middle => ?_
    · rw [registerCounted]
      refine BatchMarks.bind ((registerBatchLocked_within (Set.mem_univ _) (Set.mem_univ _)).imp
        fun _ _ marks => marks.batch) fun registered middle => ?_
      split <;> exact within_pure.mpr (.refl _)
    · exact BatchMarks.bind (within_modify .leaveOccupancy) fun _ middle => within_pure.mpr (.refl _)

theorem registerLearns_outcome (plain : topo.Plain) {fp : FastPair} {learns : List (Mac × Index)}
    {cache : ReadBack} (unlearnt : mac ∉ (lastPorts learns).keys)
    (outcome : Outcome legible sure topo fp.dev fp.anat.dev mac before prompt syncer shelf) :
    Safe (shelving legible sure) (registerLearns topo fp learns cache)
      (fun _ after shelf' => Outcome legible sure topo fp.dev fp.anat.dev mac before prompt after shelf')
      syncer shelf := by
  have keeps : Safe (shelving legible sure) (registerLearns topo fp learns cache) (fun _ after shelf' =>
      Forgotten topo fp.dev mac syncer shelf → Forgotten topo fp.dev mac after shelf' ∧
        Shelf.Spares fp.dev fp.anat.dev mac shelf shelf') syncer shelf := by
    by_cases forgotten : Forgotten topo fp.dev mac syncer shelf
    · exact (registerLearns_shelf plain forgotten unlearnt).mono fun _ _ _ holds _ => holds
    · exact (always_shelf).mono fun _ _ _ _ known => absurd known forgotten
  have goes : Safe (shelving legible sure) (registerLearns topo fp learns cache) (fun _ _ shelf' =>
      Shelf.Unreflected fp.dev mac shelf shelf' ∧ (shelf.Away fp.dev → shelf'.Away fp.dev)) syncer shelf :=
    registerLearns_unreflected
  apply (keeps.and (goes.and (within_shelf registerLearns_batch))).mono
  intro _ after shelf' ⟨stays, ⟨unreflected, away⟩, marks⟩
  exact outcome.later (away outcome.1) unreflected stays (marks.2 fp.dev)

/-- What a batch registers after its reflections takes nothing back of them. -/
theorem registerEach_outcome (plain : topo.Plain) {pairs : List FastPair} {candidates : Candidates}
    {devs : List Name} {cache : ReadBack} (located : topo.indexOf dev = some index)
    (placed : ∀ fp ∈ pairs, topo.indexOf fp.dev = some fp.anat.dev)
    (unlearnt : mac ∉ (lastPorts ((candidates.lookup dev).getD [])).keys)
    (outcome : Outcome legible sure topo dev index mac before prompt syncer shelf) :
    Safe (shelving legible sure) (registerEach topo pairs candidates devs cache)
      (fun _ after shelf' => Outcome legible sure topo dev index mac before prompt after shelf')
      syncer shelf := by
  induction devs generalizing syncer shelf cache with
  | nil => exact outcome
  | cons named rest ih =>
      rw [registerEach]
      split
      · exact ih outcome
      · rename_i fp found
        have here := dev_of_find found
        have place := placed fp (List.mem_of_find?_eq_some found)
        subst here
        have turn : Safe (shelving legible sure) (registerLearns topo fp ((candidates.lookup fp.dev).getD []) cache)
            (fun _ after shelf' => Outcome legible sure topo dev index mac before prompt after shelf')
            syncer shelf := by
          by_cases same : dev = fp.dev
          · subst same
            obtain rfl := Option.some.inj (located.symm.trans place)
            exact registerLearns_outcome plain unlearnt outcome
          · have other : index ≠ fp.anat.dev := by
              intro same'
              exact same (Topology.indexOf_injective (same' ▸ located) place)
            apply (registerLearns_aside same other outcome.1).mono
            exact fun _ _ _ both => outcome.beside both.1 both.2
        apply safe_bind.mpr
        apply turn.mono
        intro result after shelf' outcome'
        cases result with
        | error errno => exact outcome'
        | ok cache' => exact ih outcome'

/-- The reflections of the other uplinks. -/
theorem reflectPairs_outcome {pairs : List FastPair} {seen : Name → Finset Mac}
    (located : topo.indexOf dev = some index) (placed : ∀ fp ∈ pairs, topo.indexOf fp.dev = some fp.anat.dev)
    (others : dev ∉ pairs.map (·.dev))
    (outcome : Outcome legible sure topo dev index mac before prompt syncer shelf) :
    Safe (shelving legible sure) (reflectPairs topo seen pairs) (fun _ after shelf' =>
      Outcome legible sure topo dev index mac before prompt after shelf') syncer shelf := by
  induction pairs generalizing syncer shelf with
  | nil => exact outcome
  | cons fp rest ih =>
      rw [List.map_cons, List.mem_cons, not_or] at others
      have other : index ≠ fp.anat.dev := by
        intro same
        exact others.1 (Topology.indexOf_injective (same ▸ located) (placed fp (by simp)))
      apply safe_bind.mpr
      apply (reflectPair_aside others.1 other outcome.1).mono
      intro now after shelf' ⟨besides, aside⟩
      apply safe_bind.mpr
      exact ih (fun fp listed => placed fp (by simp [listed])) others.2 (outcome.beside besides aside)

/-- What a process has to know, and nobody may be doing, when the reflections of a batch
begin. -/
structure Poised (topo : Topology) (dev : Name) (syncer : Syncer) (shelf : Shelf) : Prop where
  acts : syncer.dryRun = false
  loaded : dev ∈ syncer.portsLoaded
  faithful : syncer.Faithful topo shelf dev
  away : shelf.Away dev

theorem Poised.beside {after : Syncer} {shelf' : Shelf} (poised : Poised topo dev syncer shelf)
    (besides : Syncer.Beside dev syncer after) (aside : Shelf.Beside dev index shelf shelf') :
    Poised topo dev after shelf' where
  acts := (congrArg Settings.dryRun besides.settings).trans poised.acts
  loaded := besides.loaded.mpr poised.loaded
  faithful := poised.faithful.of_same besides.written (by rw [aside.drawer])
  away := aside.away

theorem reflectPairs_reflects (plain : topo.Plain) {pairs : List FastPair} {seen : Name → Finset Mac}
    {own : FastPair} (member : own ∈ pairs) (distinct : (pairs.map (·.dev)).Nodup)
    (placed : ∀ fp ∈ pairs, topo.indexOf fp.dev = some fp.anat.dev) (sees : mac ∈ seen own.dev)
    (poised : Poised topo own.dev syncer shelf) :
    Safe (shelving legible sure) (reflectPairs topo seen pairs) (fun now after shelf' =>
      Outcome legible sure topo own.dev own.anat.dev mac (shelf.drawer own.dev) (now = true) after shelf')
      syncer shelf := by
  induction pairs generalizing syncer shelf with
  | nil => cases member
  | cons fp rest ih =>
      rw [List.map_cons, List.nodup_cons] at distinct
      have placed' : ∀ fp ∈ rest, topo.indexOf fp.dev = some fp.anat.dev :=
        fun fp listed => placed fp (by simp [listed])
      apply safe_bind.mpr
      rcases List.mem_cons.mp member with same | later
      · subst same
        apply (reflectPair_shelf plain sees poised.acts poised.loaded poised.faithful poised.away).mono
        intro now after shelf' ⟨away, new, noted, told⟩
        have outcome : Outcome legible sure topo own.dev own.anat.dev mac (shelf.drawer own.dev)
            (now = true) after shelf' := by
          refine ⟨away, new, noted, ?_⟩
          rcases told with ⟨others, unnoted⟩ | ⟨some, each⟩
          · exact .inl ⟨fun deed listed reflects => others deed listed reflects.1, unnoted⟩
          · exact .inr ⟨some, fun deed listed reflects => each deed listed reflects.1⟩
        apply safe_bind.mpr
        apply (reflectPairs_outcome (placed own (by simp)) placed' distinct.1 outcome).mono
        intro later after shelf' outcome'
        apply outcome'.imp
        intro hurries
        simp [hurries]
      · have apart : own.dev ≠ fp.dev := by
          intro same
          exact distinct.1 (same ▸ List.mem_map_of_mem later)
        have other : own.anat.dev ≠ fp.anat.dev := by
          intro same
          exact apart (Topology.indexOf_injective (same ▸ placed own member) (placed fp (by simp)))
        apply (reflectPair_aside apart other poised.away).mono
        intro now after shelf' ⟨besides, aside⟩
        apply safe_bind.mpr
        apply (ih later distinct.2 placed' (poised.beside besides aside)).mono
        intro hurries last shelf'' outcome
        rw [aside.drawer] at outcome
        apply outcome.imp
        intro told
        simp [told]

theorem growing_beside (dev : Name) {pairs : List FastPair} {devs : List Name} {would : Candidates} {cache : ReadBack} :
    Safe (shelving legible sure) (growing pairs devs would cache)
      (fun _ after shelf' => Syncer.Beside dev syncer after ∧ shelf' = shelf) syncer shelf := by
  induction devs generalizing would cache syncer with
  | nil => exact ⟨.refl _, rfl⟩
  | cons named rest ih =>
      rw [growing]
      split
      · exact ih
      · apply safe_bind.mpr
        apply readBack_shelf.mono
        intro answer after shelf facts
        obtain ⟨told, same⟩ := facts
        subst told same
        cases answer with
        | error errno => exact ⟨.refl _, rfl⟩
        | ok answer =>
            apply safe_bind.mpr
            apply loadOwned_shelf.mono
            intro owned middle shelf facts
            obtain ⟨same, marks, _⟩ := facts
            subst same
            apply ih.mono
            intro _ after shelf facts
            obtain ⟨besides, same⟩ := facts
            exact ⟨(Syncer.Beside.of_noteMarks marks).trans besides, same⟩

/-- Asking the driver again leaves the pairs what they are, their reflections included. -/
theorem refreshForGrowth_beside (dev : Name) {pfs : List Index} {answer : Answer} {pairs : List FastPair} :
    Safe (shelving legible sure) (refreshForGrowth topo pfs answer events pairs) (fun result after shelf' =>
      Syncer.Beside dev syncer after ∧ shelf' = shelf ∧ ∀ pairs' cache, result = .ok (pairs', cache) →
        ∀ fp ∈ pairs', ∃ old ∈ pairs, fp.dev = old.dev ∧ fp.anat = old.anat ∧ fp.reflected = old.reflected)
      syncer shelf := by
  unfold refreshForGrowth
  split
  · refine safe_bind.mpr (safe_get.mpr (safe_bind.mpr (safe_ask.mpr ⟨trivial, ?_⟩)))
    intro devs shelf same
    obtain rfl : shelf = _ := same
    apply safe_bind.mpr
    apply (growing_beside dev).mono
    intro grown middle shelf ⟨besides, same⟩
    subst same
    cases grown with
    | error errno => exact ⟨besides, rfl, nofun⟩
    | ok grown =>
        obtain ⟨would, cache⟩ := grown
        dsimp only
        split
        · refine ⟨besides, rfl, fun pairs' cache' same fp listed => ?_⟩
          obtain ⟨rfl, _⟩ := Prod.mk.inj (Except.ok.inj same)
          exact ⟨fp, listed, rfl, rfl, rfl⟩
        · refine safe_bind.mpr (safe_modify.mpr (safe_bind.mpr (safe_ask.mpr ⟨trivial, ?_⟩)))
          intro names shelf same
          obtain rfl : shelf = _ := same
          refine safe_bind.mpr (safe_ask.mpr ⟨trivial, ?_⟩)
          intro reply shelf same
          obtain rfl : shelf = _ := same
          cases reply with
          | error errno => exact ⟨⟨besides.settings, besides.stock, besides.loaded, besides.written⟩, rfl, nofun⟩
          | ok reply =>
              refine safe_bind.mpr (safe_modify.mpr (safe_bind.mpr (safe_get.mpr ?_)))
              refine ⟨⟨besides.settings, besides.stock, besides.loaded, besides.written⟩, rfl, ?_⟩
              intro pairs' cache' same fp listed
              obtain ⟨rfl, _⟩ := Prod.mk.inj (Except.ok.inj same)
              obtain ⟨old, known, rfl⟩ := List.mem_map.mp listed
              exact ⟨old, known, rfl, rfl, rfl⟩
  · refine ⟨.refl _, rfl, fun pairs' cache' same fp listed => ?_⟩
    obtain ⟨rfl, _⟩ := Prod.mk.inj (Except.ok.inj same)
    exact ⟨fp, listed, rfl, rfl, rfl⟩

/-- The learns a batch registers are none it saw on the same uplink's wire. -/
theorem unlearnt_of_reflected {pairs : List FastPair} (reflected : ∀ fp ∈ pairs, fp.dev = dev → mac ∈ fp.reflected) :
    mac ∉ (lastPorts (((syncer.fastAddAll topo pairs .commit events).2.lookup dev).getD [])).keys := by
  intro learnt
  obtain ⟨port, listed⟩ := mem_lastPorts learnt
  obtain ⟨event, _, master, fp, _, member, same, learn, considers⟩ := holds_fastAddAll.mp listed
  have known := reflected fp member same.symm
  obtain ⟨_, ⟨_, impossible, _⟩ | ⟨_, _, _, unseen⟩⟩ := considers
  · cases impossible
  · rw [(Prod.mk.inj learn).1] at known
    exact unseen known

/-- The uplinks of a batch are among those of the process, in its order. -/
theorem fastPairs_sublist {answer : Answer} :
    ((syncer.fastPairs topo answer).map (·.dev)).Sublist (syncer.pairs.map (·.dev)) := by
  unfold Syncer.fastPairs
  induction syncer.pairs with
  | nil => exact .slnil
  | cons pair rest ih =>
      rw [List.filterMap_cons]
      split
      · exact ih.cons _
      · rename_i fp made
        simp only [Option.bind_eq_bind, Option.bind_eq_some_iff, Option.pure_def, Option.some.injEq] at made
        obtain ⟨_, _, _, _, _, _, rfl⟩ := made
        exact ih.cons_cons _

theorem fastPairs_own {answer : Answer} {pair : Pair} {bridge : Index} {anat : Anatomy}
    (listed : pair ∈ syncer.pairs) (located : topo.indexOf pair.dev = some index)
    (below : topo.indexOf pair.bridge = some bridge) (found : topo.anatomy index bridge = some anat) :
    ∃ own ∈ syncer.fastPairs topo answer, own.dev = pair.dev ∧ own.anat = anat := by
  let own : FastPair := {
    anat
    reach := topo.reach bridge
    dev := pair.dev
    skip := syncer.exclusions topo anat answer.vfMacs
    reflected := ∅
    vfOwn := if answer.carried then vfReported anat.functions answer.vfMacs else ∅ }
  refine ⟨own, List.mem_filterMap.mpr ⟨pair, listed, ?_⟩, rfl, rfl⟩
  simp [located, below, found, own]

theorem askDriver_beside (dev : Name) {pfs : List Index} :
    Safe (shelving legible sure) (askDriver pfs) (fun _ after shelf' =>
      Syncer.Beside dev syncer after ∧ shelf' = shelf) syncer shelf := by
  refine safe_bind.mpr (safe_get.mpr ?_)
  split
  · exact ⟨.refl _, rfl⟩
  · refine safe_bind.mpr (safe_ask.mpr ⟨trivial, ?_⟩)
    intro reply shelf same
    obtain rfl : shelf = _ := same
    cases reply with
    | error errno => exact ⟨.refl _, rfl⟩
    | ok fresh => exact safe_bind.mpr (safe_modify.mpr ⟨⟨rfl, rfl, Iff.rfl, rfl⟩, rfl⟩)

theorem applyLearns_outcome (plain : topo.Plain) {pair : Pair} {bridge : Index} {anat : Anatomy}
    {urgency : Urgency} (listed : pair ∈ syncer.pairs) (distinct : (syncer.pairs.map (·.dev)).Nodup)
    (located : topo.indexOf pair.dev = some index) (below : topo.indexOf pair.bridge = some bridge)
    (found : topo.anatomy index bridge = some anat) (reported : Reports events anat mac)
    (poised : Poised topo pair.dev syncer shelf) :
    Safe (shelving legible sure) (applyLearns topo events urgency) (fun result after shelf' =>
      ∀ soon, result = .ok soon → Outcome legible sure topo pair.dev index mac (shelf.drawer pair.dev)
        (soon = .now) after shelf') syncer shelf := by
  apply safe_bind.mpr (safe_get.mpr ?_)
  dsimp only
  apply safe_bind.mpr
  apply (askDriver_beside pair.dev).mono
  intro answer syncer₁ shelf ⟨besides₁, same⟩
  subst same
  cases answer with
  | error errno => exact nofun
  | ok answer =>
      apply safe_bind.mpr (safe_get.mpr ?_)
      have samePairs : syncer₁.pairs = syncer.pairs := congrArg Settings.pairs besides₁.settings
      set pairs := syncer₁.fastPairs topo answer with pairs_def
      have placed : ∀ fp ∈ pairs, topo.indexOf fp.dev = some fp.anat.dev := by
        intro fp member
        obtain ⟨_, _, place, _, _, here, _, located', _⟩ := mem_fastPairs member
        rw [Topology.anatomy_dev located']
        exact here
      obtain ⟨own, member, named, shaped⟩ : ∃ own ∈ pairs, own.dev = pair.dev ∧ own.anat = anat :=
        fastPairs_own (samePairs ▸ listed) located below found
      have place : own.anat.dev = index := by
        rw [shaped]
        exact Topology.anatomy_dev found
      have sees : mac ∈ seenOnWire pairs events own.dev := mem_seenOnWire member (shaped ▸ reported)
      have apart : (pairs.map (·.dev)).Nodup := fastPairs_sublist.nodup (samePairs ▸ distinct)
      subst place
      rw [← named] at poised besides₁ ⊢
      have poised₁ : Poised topo own.dev syncer₁ shelf :=
        poised.beside besides₁ (@Shelf.Beside.refl shelf own.dev own.anat.dev poised.away)
      apply safe_bind.mpr
      apply (reflectPairs_reflects plain member apart placed sees poised₁).mono
      intro reflected syncer₂ shelf₂ outcome
      apply safe_bind.mpr
      apply (refreshForGrowth_beside own.dev).mono
      intro refreshed syncer₃ shelf₃ ⟨besides₃, same₃, kept⟩
      subst same₃
      have outcome₃ := outcome.beside besides₃ (.refl outcome.1)
      cases refreshed with
      | error errno => exact nofun
      | ok refreshed =>
          obtain ⟨pairs', cache⟩ := refreshed
          have origin : ∀ fp ∈ pairs', ∃ old ∈ pairs, fp.dev = old.dev ∧ fp.anat = old.anat ∧
              fp.reflected = seenOnWire pairs events old.dev := by
            intro fp listed
            obtain ⟨marked, known, sameDev, sameAnat, sameSeen⟩ := kept pairs' cache rfl fp listed
            obtain ⟨old, before, rfl⟩ := List.mem_map.mp known
            exact ⟨old, before, sameDev, sameAnat, sameSeen⟩
          have placed' : ∀ fp ∈ pairs', topo.indexOf fp.dev = some fp.anat.dev := by
            intro fp listed
            obtain ⟨old, before, sameDev, sameAnat, _⟩ := origin fp listed
            rw [sameDev, sameAnat]
            exact placed old before
          have marked : ∀ fp ∈ pairs', fp.dev = own.dev → mac ∈ fp.reflected := by
            intro fp listed here
            obtain ⟨old, _, sameDev, _, sameSeen⟩ := origin fp listed
            rw [sameSeen, ← sameDev, here]
            exact sees
          apply safe_bind.mpr (safe_get.mpr ?_)
          apply safe_bind.mpr (safe_ask.mpr ⟨trivial, ?_⟩)
          intro devs shelf₄ same
          obtain rfl : shelf₄ = _ := same
          apply safe_bind.mpr
          apply (registerEach_outcome plain (placed own member) placed' (unlearnt_of_reflected marked)
            outcome₃).mono
          intro result after shelf' outcome'
          cases result with
          | error errno => exact nofun
          | ok done =>
              intro soon same
              obtain rfl := Except.ok.inj same
              apply outcome'.imp
              intro hurries
              simp [hurries]

/-- Dating deletions is none of the memory file's business. -/
theorem dateDeletions_poised (poised : Poised topo dev syncer shelf) :
    Safe (shelving legible sure) (dateDeletions topo events) (fun _ after shelf' =>
      Poised topo dev after shelf' ∧ after.toSettings = syncer.toSettings ∧ shelf'.drawer = shelf.drawer)
      syncer shelf := by
  rw [dateDeletions]
  split
  · refine safe_bind.mpr (safe_bind.mpr (safe_ask.mpr ⟨trivial, ?_⟩))
    intro now _ facts
    obtain ⟨_, later, _, ticked⟩ := facts
    subst ticked
    refine safe_modify.mpr (safe_pure.mpr ?_)
    obtain ⟨carriedPorts, same⟩ := @dateAll_marks syncer topo now events
    rw [same]
    exact ⟨⟨poised.acts, poised.loaded, poised.faithful, poised.away⟩, rfl, rfl⟩
  · exact ⟨poised, rfl, rfl⟩

theorem fastApply_outcome (plain : topo.Plain) {pair : Pair} {bridge : Index} {anat : Anatomy}
    (listed : pair ∈ syncer.pairs) (distinct : (syncer.pairs.map (·.dev)).Nodup)
    (located : topo.indexOf pair.dev = some index) (below : topo.indexOf pair.bridge = some bridge)
    (found : topo.anatomy index bridge = some anat) (reported : Reports events anat mac)
    (poised : Poised topo pair.dev syncer shelf) :
    Safe (shelving legible sure) (fastApply topo events) (fun result after shelf' =>
      ∀ soon, result = .ok soon → Outcome legible sure topo pair.dev index mac (shelf.drawer pair.dev)
        (soon = .now) after shelf') syncer shelf := by
  have learns : ∃ event ∈ events, event.1 = .newNeigh := by
    obtain ⟨event, heard, kind, _⟩ := reported
    exact ⟨event, heard, kind⟩
  rw [fastApply, if_neg]
  · apply safe_bind.mpr (safe_get.mpr ?_)
    rw [if_neg (by simp [poised.acts])]
    apply safe_bind.mpr
    apply (dateDeletions_poised poised).mono
    intro urgency after shelf' ⟨poised', told, same⟩
    rw [if_pos learns, ← same]
    have samePairs : after.pairs = syncer.pairs := congrArg Settings.pairs told
    exact applyLearns_outcome plain (samePairs ▸ listed) (samePairs ▸ distinct) located below found
      reported poised'
  · intro none
    obtain ⟨event, heard, _⟩ := learns
    rw [none] at heard
    cases heard

end Batch

section Later

/-- Nobody adds this address to this filter. -/
def barRule (index : Index) (mac : Mac) : AddRule where
  allows _ place other := ¬ (place = index ∧ other = mac)
  grows _ allowed := allowed

/-- An uplink's carried wire and the batch's own reports both bar an address. -/
theorem barRule_coversBatch {syncer : Syncer} (located : topo.indexOf dev = some index)
    (barred : mac ∈ syncer.carriedWire dev ∨
      ∃ bridge anat, topo.anatomy index bridge = some anat ∧ Reports events anat mac) :
    (barRule index mac).CoversBatch syncer topo events := by
  intro fp fits other past vfMacs offWire unreported _ ⟨place, same⟩
  subst same
  have here := fits.indexOf
  rcases barred with carried | ⟨bridge, anat, found, reported⟩
  · rw [place] at here
    exact offWire (Topology.indexOf_injective located here ▸ carried)
  · obtain ⟨_, _, index', bridge', _, located', _, found'⟩ := fits
    rw [here] at located'
    rw [← Option.some.inj located', place] at found'
    obtain rfl := Topology.anatomy_unique found found'
    exact unreported reported

/-- The memory of a process some batches later, whatever they were and whatever was
answered. -/
inductive Batched (syncer : Syncer) : Syncer → Prop where
  | here : Batched syncer syncer
  | next {middle after : Syncer} {topo : Topology} {events : List Event} {past : History}
      {result : Except Errno Urgency} (earlier : Batched syncer middle)
      (ran : (fastApply topo events middle).Follows past (.done (result, after))) : Batched syncer after

theorem Batched.wire {after : Syncer} (later : Batched syncer after) :
    syncer.carriedWire dev ⊆ after.carriedWire dev := by
  induction later with
  | here => exact Finset.Subset.refl _
  | @next middle after topo events past result earlier ran ih =>
      have safe : Safe ((offReportRule middle topo events).env fun _ => True) (fastApply topo events)
          (fun _ after later => GoesOn middle [] after later) middle [] :=
        fastApply_safe offReportRule_coversBatch
      exact ih.trans ((safe.result (ran.reaches (fun _ _ => trivial) [])).1.2 dev)

/-- What is barred is asked of no filter, whatever is answered. -/
theorem never_adds (located : topo.indexOf dev = some index)
    (barred : mac ∈ syncer.carriedWire dev ∨
      ∃ bridge anat, topo.anatomy index bridge = some anat ∧ Reports events anat mac) {past : History} :
    ¬ (fastApply topo events syncer).Issues past (.setSelfFdb index mac true) := by
  intro issued
  have safe : Safe ((barRule index mac).env fun _ => True) (fastApply topo events)
      (fun _ after later => GoesOn syncer [] after later) syncer [] :=
    fastApply_safe (barRule_coversBatch located barred)
  exact Program.Safe.issues safe issued (fun _ _ => trivial) index mac rfl ⟨rfl, rfl⟩

end Later

/-- A guest of the uplink shows up on the uplink's own port. -/
def guestMoved : List Event :=
  [(.newNeigh, { ifindex := 2, master := some 10, mac := guest, state := 0, flags := 0 })]

def rememberingSyncer : Syncer where
  pairs := [⟨"nic1", "br0"⟩]
  portsLoaded := {"nic1"}
  carriedPorts := fun dev => if dev = "nic1" then some ((∅ : PortMap).insert guest (4, 5)) else none

def notedShelf : Shelf where
  drawer := fun dev =>
    { note := if dev = "nic1" then {guest} else ∅, record := none, ports := none, stuck := false, deeds := [] }
  lists := fun index => if index = 2 then {guest} else ∅
  fdb := []
  clock := 12
  held := none

end SriovMacSync
