import SriovMacSync.Memory.Forgetting

namespace SriovMacSync

open Data Netlink Interaction Interaction.Action

/-! An uplink's own share of a batch: its reflections, and what it registers after
them. -/

variable {legible sure : Name → Prop} {shelf : Shelf} {syncer : Syncer} {dev : Name} {index : Index}
  {topo : Topology} {mac : Mac}

section Registering

theorem mem_noteSeen {ports : PortMap} {other : Mac} {port : Option Index} {seen : Nat} (apart : mac ≠ other) :
    mac ∈ noteSeen ports other port seen ↔ mac ∈ ports := by
  unfold noteSeen
  split
  · simp [AList.mem_insert, apart]
  · split
    · simp [AList.mem_insert, apart]
    · rfl

theorem mem_foldl_noteSeen {macs : List Mac} {ports : PortMap} {learntOn : LearntAt} {seen : Nat}
    (unasked : mac ∉ macs) :
    mac ∈ macs.foldl (fun ports mac => noteSeen ports mac (learntOn.lookup mac) seen) ports ↔
      mac ∈ ports := by
  induction macs generalizing ports with
  | nil => rfl
  | cons other rest ih =>
      rw [List.mem_cons, not_or] at unasked
      rw [List.foldl_cons, ih unasked.2, mem_noteSeen unasked.1]

theorem readBack_shelf {place : Index} {cache : ReadBack} :
    Safe (shelving legible sure) (readBack place cache) (fun _ after shelf' => after = syncer ∧ shelf' = shelf)
      syncer shelf := by
  rw [readBack]
  split
  · exact ⟨rfl, rfl⟩
  · apply safe_bind.mpr
    apply safe_ask.mpr
    refine ⟨trivial, fun answer after same => ?_⟩
    cases answer <;> exact ⟨rfl, same⟩

/-- Making room takes from the pool, where nothing forgotten is. -/
theorem shedKeeps_shelf (plain : topo.Plain) (forgotten : Forgotten topo dev mac syncer shelf) {need : Nat}
    {onCard : Finset Mac} :
    Safe (shelving legible sure) (shedKeeps dev index need topo onCard) (fun _ after shelf' =>
      Forgotten topo dev mac after shelf' ∧ Shelf.Spares dev index mac shelf shelf') syncer shelf := by
  apply safe_bind.mpr
  apply loadOwned_shelf.mono
  intro _ syncer₁ shelf ⟨same, marks, _⟩
  subst same
  have forgotten₁ := forgotten.move (.of_noteMarks marks) rfl rfl
  refine safe_bind.mpr (safe_bind.mpr (safe_get.mpr (safe_pure.mpr ?_)))
  split
  · apply safe_bind.mpr
    apply safe_get.mpr
    split
    · rename_i carried ports known mapped
      dsimp only
      split
      · exact ⟨forgotten₁, .refl _⟩
      · set pool := ((ascending carried.quiet).filterMap fun mac =>
          (ports.lookup mac).map fun spot => (spot.2, mac)).filter (·.1 < carried.passedAt) with pool_def
        have unasked : mac ∉ ((bySilence pool).take need).map (·.2) := by
          intro listed
          obtain ⟨row, taken, rfl⟩ := List.mem_map.mp listed
          have pooled := (bySilence_perm pool).mem_iff.mp (List.mem_of_mem_take taken)
          rw [pool_def, List.mem_filter, List.mem_filterMap] at pooled
          obtain ⟨⟨other, quiet, found⟩, _⟩ := pooled
          obtain ⟨spot, _, rfl⟩ := Option.map_eq_some_iff.mp found
          exact forgotten₁.unkept carried known (mem_ascending.mp quiet)
        apply safe_bind.mpr
        apply retire_shelf.mono
        intro retired syncer₂ _ ⟨marks₂, answers, note, middle, asked, outcome, settles, writes, left⟩
        subst left
        have spares : Shelf.Spares dev index mac shelf ((middle.setNote dev note).hold none) := by
          apply Shelf.Spares.of_writing writes (asked ▸ unasked)
          rcases settles with rfl | ⟨_, rfl⟩
          · have unsettled : mac ∉ absentOrOk answers := by
              intro settled
              apply unasked
              rw [← asked]
              rcases mem_absentOrOk.mp settled with given | given
              · exact List.mem_map_of_mem given
              · exact List.mem_map_of_mem given
            simp [unsettled]
          · rfl
        have forgotten₂ : Forgotten topo dev mac syncer₂ ((middle.setNote dev note).hold none) := by
          apply forgotten₁.move (.of_noteMarks marks₂)
          · simp [writes.drawer]
          · simp [writes.drawer]
        split
        · exact ⟨forgotten₂, spares⟩
        · apply safe_bind.mpr (safe_modify.mpr ?_)
          apply safe_bind.mpr
          apply (savePorts_forgets plain index forgotten₂.toEvicted.dropPorts).mono
          intro _ syncer₃ shelf₃ ⟨forgotten₃, spares₃⟩
          apply safe_bind.mpr (safe_modify.mpr ?_)
          apply safe_bind.mpr (safe_ask.mpr ⟨trivial, ?_⟩)
          intro _ shelf₄ same
          obtain rfl : shelf₄ = shelf₃ := same
          exact ⟨forgotten₃.noLongerKept, spares.trans spares₃⟩
    · exact ⟨forgotten₁, .refl _⟩
  · exact ⟨forgotten₁, .refl _⟩

theorem makeRoom_shelf (plain : topo.Plain) (forgotten : Forgotten topo dev mac syncer shelf) {excess : Nat}
    {onCard : Finset Mac} :
    Safe (shelving legible sure) (makeRoom dev index excess topo onCard) (fun _ after shelf' =>
      Forgotten topo dev mac after shelf' ∧ Shelf.Spares dev index mac shelf shelf') syncer shelf := by
  rw [makeRoom]
  split
  · exact shedKeeps_shelf plain forgotten
  · exact ⟨forgotten, .refl _⟩

/-- What a batch registers on an uplink leaves alone what is forgotten and not among
it. -/
theorem registerLearns_shelf (plain : topo.Plain) {fp : FastPair} {learns : List (Mac × Index)}
    {cache : ReadBack} (forgotten : Forgotten topo fp.dev mac syncer shelf)
    (unlearnt : mac ∉ (lastPorts learns).keys) :
    Safe (shelving legible sure) (registerLearns topo fp learns cache) (fun _ after shelf' =>
      Forgotten topo fp.dev mac after shelf' ∧ Shelf.Spares fp.dev fp.anat.dev mac shelf shelf')
      syncer shelf := by
  have unasked : mac ∉ ascending (lastPorts learns).keys.toFinset := by
    simpa using unlearnt
  apply safe_bind.mpr (safe_ask.mpr ⟨trivial, ?_⟩)
  intro now _ facts
  obtain ⟨_, later, _, ticked⟩ := facts
  subst ticked
  apply safe_bind.mpr (safe_modify.mpr ?_)
  have forgotten₀ : Forgotten topo fp.dev mac syncer { shelf with clock := later } :=
    forgotten.move (.refl _) rfl rfl
  have spares₀ : Shelf.Spares fp.dev fp.anat.dev mac shelf { shelf with clock := later } :=
    ⟨Iff.rfl, Iff.rfl, rfl, ⟨[], rfl, by simp⟩, id⟩
  rw [if_pos forgotten.loaded]
  have forgotten₁ := forgotten₀.toEvicted.setPorts (mt (@mem_foldl_noteSeen mac _ _
    (lastPorts learns) now unasked).mp forgotten₀.unmapped)
  apply safe_bind.mpr
  apply readBack_shelf.mono
  intro answer syncer₁ shelf₁ facts
  obtain ⟨told, same⟩ := facts
  subst told same
  have forgotten₂ : Forgotten topo fp.dev mac _ { shelf with clock := later } :=
    ⟨forgotten₁, forgotten₀.unfiled⟩
  cases answer with
  | error errno => exact ⟨forgotten₂, spares₀⟩
  | ok answer =>
      obtain ⟨onCard, cache'⟩ := answer
      apply safe_bind.mpr (safe_get.mpr ?_)
      apply safe_bind.mpr
      apply (makeRoom_shelf plain forgotten₂).mono
      intro freed syncer₃ shelf₃ facts
      obtain ⟨forgotten₃, spares₃⟩ := facts
      apply safe_bind.mpr
      apply noteIndex_shelf.mono
      intro _ syncer₄ _ facts
      obtain ⟨marks, record, left⟩ := facts
      subst left
      have forgotten₄ : Forgotten topo fp.dev mac syncer₄ (shelf₃.setRecord fp.dev record) := by
        apply forgotten₃.move (.of_noteMarks marks)
        · simp [Shelf.setRecord, Shelf.setDrawer]
        · simp [Shelf.setRecord, Shelf.setDrawer]
      have spares₄ : Shelf.Spares fp.dev fp.anat.dev mac shelf₃ (shelf₃.setRecord fp.dev record) := by
        refine ⟨?_, Iff.rfl, ?_, ⟨[], ?_, by simp⟩, id⟩ <;> simp [Shelf.setRecord, Shelf.setDrawer]
      apply safe_bind.mpr
      apply safe_bind.mpr
      apply registerBatchLocked_shelf.mono
      intro registered syncer₅ shelf₅ facts
      obtain ⟨marks₅, enters, _⟩ := facts
      have forgotten₅ : Forgotten topo fp.dev mac syncer₅ shelf₅ :=
        forgotten₄.move (.of_noteMarks marks₅) enters.files.1 enters.files.2
      have spares₅ := ((spares₀.trans spares₃).trans spares₄).trans (.of_enters enters unasked)
      have left (card : Name) (occupancy : Nat) :
          Forgotten topo fp.dev mac (syncer₅.leaveOccupancy fp.dev card occupancy) shelf₅ :=
        forgotten₅.setCarried (Finset.Subset.refl _)
      cases registered with
      | none => exact ⟨left .., spares₅⟩
      | some done => exact ⟨left .., spares₅⟩

end Registering

section Reflecting

/-- A removal that an address' own traffic on the wire asked for. -/
def Deed.Reflects (deed : Deed) (mac : Mac) : Prop :=
  deed.mac = mac ∧ deed.add = false ∧ ∃ macs, deed.work = .retire macs

/-- What a reflection makes of an address, by what the kernel said to its removal. -/
structure Reflected (sure : Name → Prop) (topo : Topology) (dev : Name) (index : Index) (mac : Mac)
    (reply : Except Errno Unit) (prompt : Prop) (after : Syncer) (shelf : Shelf) : Prop where
  forgotten : Forgotten topo dev mac after shelf
  gone : reply = .ok () ∨ reply = .error .noEntry →
    mac ∉ shelf.lists index ∧ (sure dev → mac ∉ (shelf.drawer dev).note)
  stays : ∀ errno, reply = .error errno → errno ≠ .noEntry → mac ∈ (shelf.drawer dev).note
  barred : reply = .ok () → mac ∈ after.carriedWire dev
  hurries : reply ≠ .error .noEntry → prompt

theorem Reflected.imp {reply : Except Errno Unit} {prompt prompt' : Prop}
    (reflected : Reflected sure topo dev index mac reply prompt syncer shelf) (implies : prompt → prompt') :
    Reflected sure topo dev index mac reply prompt' syncer shelf :=
  { reflected with hurries := fun other => implies (reflected.hurries other) }

/-- Nothing an uplink's turn does besides undoes a reflection. -/
theorem Reflected.later {reply : Except Errno Unit} {prompt : Prop} {after : Syncer} {shelf' : Shelf}
    (reflected : Reflected sure topo dev index mac reply prompt syncer shelf)
    (forgotten : Forgotten topo dev mac after shelf') (spares : Shelf.Spares dev index mac shelf shelf')
    (wire : syncer.carriedWire dev ⊆ after.carriedWire dev) :
    Reflected sure topo dev index mac reply prompt after shelf' where
  forgotten := forgotten
  gone settled := by
    rw [spares.list, spares.note]
    exact reflected.gone settled
  stays errno refused other := spares.note.mpr (reflected.stays errno refused other)
  barred taken := wire (reflected.barred taken)
  hurries := reflected.hurries

theorem Evicted.reflected {ours : List Mac} {freed : Nat} (acts : syncer.dryRun = false)
    (loaded : dev ∈ syncer.portsLoaded) (faithful : syncer.Faithful topo shelf dev) (member : mac ∈ ours) :
    Evicted topo dev mac (((syncer.dropPorts dev ours).noLongerKept dev ours).freeSlots dev freed) shelf := by
  apply Evicted.freeSlots
  have dropped : (syncer.dropPorts dev ours).carried dev = syncer.carried dev ∧
      mac ∉ ((syncer.dropPorts dev ours).carriedPorts dev).getD ∅ ∧
      (syncer.dropPorts dev ours).dryRun = false ∧ dev ∈ (syncer.dropPorts dev ours).portsLoaded ∧
      (syncer.dropPorts dev ours).portsWritten dev = syncer.portsWritten dev := by
    unfold Syncer.dropPorts
    split
    · refine ⟨rfl, ?_, acts, loaded, rfl⟩
      simp [Syncer.setPorts, mem_retain, member]
    · rename_i unknown
      refine ⟨rfl, ?_, acts, loaded, rfl⟩
      simp [unknown]
  obtain ⟨carried, unmapped, acts', loaded', written⟩ := dropped
  unfold Syncer.noLongerKept
  split
  · rename_i kept known
    refine ⟨acts', loaded', unmapped, fun left found => ?_, faithful.of_same written rfl⟩
    have same : some { kept with quiet := kept.quiet \ ours.toFinset } = some left := by
      simpa [Syncer.setCarried] using found
    obtain rfl := Option.some.inj same
    simp [member]
  · rename_i unknown
    exact ⟨acts', loaded', unmapped, fun left found => by simp [unknown] at found,
      faithful.of_same written rfl⟩

theorem forgetReflected_shelf (plain : topo.Plain) {ours : List Mac} {freed : Nat} :
    Safe (shelving legible sure) (forgetReflected topo dev ours freed) (fun _ after shelf' =>
      (∃ text held, shelf' = (shelf.setPorts dev text).hold held ∧ (held = shelf.held ∨ held = none)) ∧
      (syncer.dryRun = false → dev ∈ syncer.portsLoaded → syncer.Faithful topo shelf dev →
        ∀ mac ∈ ours, Forgotten topo dev mac after shelf')) syncer shelf := by
  rw [forgetReflected]
  split
  · apply safe_bind.mpr (safe_modify.mpr ?_)
    apply safe_bind.mpr (safe_get.mpr ?_)
    apply (savePorts_shelf plain).mono
    intro _ after shelf' facts
    obtain ⟨written, text, held, wrote, left, idle, saved⟩ := facts
    subst wrote left
    refine ⟨⟨text, held, rfl, idle⟩, fun acts loaded faithful mac member => ?_⟩
    have evicted : Evicted topo dev mac
        (((syncer.dropPorts dev ours).noLongerKept dev ours).freeSlots dev freed) shelf :=
      .reflected acts loaded faithful member
    exact evicted.saved saved
  · rename_i none
    refine ⟨⟨(shelf.drawer dev).ports, shelf.held, ?_, .inl rfl⟩, fun _ _ _ mac member => ?_⟩
    · simp [Shelf.setPorts, Shelf.setDrawer, Shelf.hold]
    · simp only [ne_eq, not_not] at none
      simp [none] at member

theorem reply_unique {answers : List (Mac × Except Errno Unit)} (nodup : (answers.map (·.1)).Nodup)
    {reply reply' : Except Errno Unit} (given : (mac, reply) ∈ answers) (given' : (mac, reply') ∈ answers) :
    reply = reply' :=
  congrArg Prod.snd (List.inj_on_of_nodup_map nodup given given' rfl)

/-- What one removal leaves, once the memory of it is gone too. -/
theorem Reflected.of_answers {answers : List (Mac × Except Errno Unit)} {reply : Except Errno Unit}
    {work : Section} {held : Option (Name × Section)} {middle shelf' : Shelf} {note : Finset Mac} {prompt : Prop}
    (nodup : (answers.map (·.1)).Nodup) (given : (mac, reply) ∈ answers)
    (ours : mac ∈ (shelf.drawer dev).note)
    (settles : note = (shelf.drawer dev).note \ (absentOrOk answers).toFinset ∨
      ¬ sure dev ∧ note = (shelf.drawer dev).note)
    (writes : Writing dev work index false answers (shelf.hold held) middle)
    (lists : shelf'.lists = middle.lists) (names : (shelf'.drawer dev).note = note)
    (forgotten : Forgotten topo dev mac syncer shelf')
    (barred : mac ∈ answeredOk answers → mac ∈ syncer.carriedWire dev)
    (hurries : answeredOk answers ≠ [] ∨ refusedBut .noEntry answers ≠ [] → prompt) :
    Reflected sure topo dev index mac reply prompt syncer shelf' where
  forgotten := forgotten
  gone settled := by
    have absent : mac ∈ absentOrOk answers := by
      rcases settled with rfl | rfl
      · exact mem_absentOrOk.mpr (.inl given)
      · exact mem_absentOrOk.mpr (.inr given)
    refine ⟨lists ▸ (writes.gone rfl).2 mac absent, fun certain => ?_⟩
    rcases settles with same | ⟨unsure, _⟩
    · simp [names, same, absent]
    · exact absurd certain unsure
  stays errno refused other := by
    have present : mac ∉ absentOrOk answers := by
      intro settled
      rcases mem_absentOrOk.mp settled with told | told
      · rw [reply_unique nodup given told] at refused
        cases refused
      · rw [reply_unique nodup given told] at refused
        exact other (Except.error.inj refused).symm
    rw [names]
    rcases settles with same | ⟨_, same⟩
    · simp [same, ours, present]
    · rwa [same]
  barred taken := barred (mem_answeredOk.mpr (taken ▸ given))
  hurries apart := by
    apply hurries
    cases reply with
    | ok done => exact .inl (List.ne_nil_of_mem (mem_answeredOk.mpr given))
    | error errno =>
        have refused : mac ∈ (refusedBut .noEntry answers).map (·.1) :=
          mem_refusedBut.mpr ⟨errno, fun same => apart (same ▸ rfl), given⟩
        obtain ⟨entry, listed, _⟩ := List.mem_map.mp refused
        exact .inr (List.ne_nil_of_mem listed)

/-- An uplink's share of the reflections: an address seen on its wire comes out where the
note could be read and names it. -/
theorem reflectPair_shelf (plain : topo.Plain) {fp : FastPair} {seen : Finset Mac} (sees : mac ∈ seen)
    (acts : syncer.dryRun = false) (loaded : fp.dev ∈ syncer.portsLoaded)
    (faithful : syncer.Faithful topo shelf fp.dev) (away : shelf.Away fp.dev) :
    Safe (shelving legible sure) (reflectPair topo seen fp) (fun now after shelf' => shelf'.Away fp.dev ∧
      ∃ new, (shelf'.drawer fp.dev).deeds = new ++ (shelf.drawer fp.dev).deeds ∧
        ((∀ deed ∈ new, deed.mac ≠ mac) ∧ (legible fp.dev → mac ∉ (shelf.drawer fp.dev).note) ∨
          (∃ deed ∈ new, deed.Reflects mac) ∧ ∀ deed ∈ new, deed.mac = mac →
            Reflected sure topo fp.dev fp.anat.dev mac deed.reply (now = true) after shelf'))
      syncer shelf := by
  rw [reflectPair, if_neg (Finset.ne_empty_of_mem sees)]
  apply safe_bind.mpr
  apply loadOwned_shelf.mono
  intro known syncer₁ shelf facts
  obtain ⟨same, marks₁, reads⟩ := facts
  subst same
  split
  · rename_i disjoint
    refine ⟨away, [], rfl, .inl ⟨by simp, fun certain named => ?_⟩⟩
    rcases reads with ⟨_, _, _, illegible⟩ | ⟨_, names⟩
    · exact illegible certain
    · rw [names] at disjoint
      exact Finset.disjoint_left.mp disjoint sees named
  · apply safe_bind.mpr
    apply loadOwned_shelf.mono
    intro ownedHere syncer₂ shelf facts
    obtain ⟨same, marks₂, reads₂⟩ := facts
    subst same
    apply safe_bind.mpr (safe_ask.mpr ⟨trivial, ?_⟩)
    intro order shelf' same
    obtain rfl : shelf' = shelf := same
    set ours := order.list.filter (· ∈ ownedHere) with ours_def
    have listed : mac ∈ ours ↔ mac ∈ ownedHere := by
      simp [ours_def, order.mem_iff, sees]
    apply safe_bind.mpr
    apply retire_shelf.mono
    intro retired syncer₃ _ facts
    obtain ⟨marks₃, answers, note, middle, asked, outcome, settles, writes, left⟩ := facts
    subst left outcome
    have marks := (marks₁.trans marks₂).trans marks₃
    have kept : Syncer.Beside fp.dev syncer syncer₃ := .of_noteMarks marks
    apply safe_bind.mpr
    apply (forgetReflected_shelf plain).mono
    intro _ syncer₄ _ facts
    obtain ⟨⟨text, held, left, idle⟩, forgets⟩ := facts
    subst left
    have free : held = none := by
      rcases idle with same | same
      · exact same
      · exact same
    subst free
    have deeds : ((((middle.setNote fp.dev note).hold none).setPorts fp.dev text).hold none).drawer
        fp.dev = { shelf'.drawer fp.dev with
          note
          ports := text
          deeds := (answers.map fun answer =>
            (⟨.retire ours, fp.anat.dev, answer.1, false, answer.2⟩ : Deed)).reverse ++
              (shelf'.drawer fp.dev).deeds } := by
      simp [writes.drawer]
    have entries {deed : Deed} (done : deed ∈ (answers.map fun answer =>
        (⟨.retire ours, fp.anat.dev, answer.1, false, answer.2⟩ : Deed)).reverse) :
        (deed.mac, deed.reply) ∈ answers := by
      obtain ⟨answer, given, rfl⟩ := List.mem_map.mp (List.mem_reverse.mp done)
      exact given
    have nodup : (answers.map (·.1)).Nodup := asked ▸ order.nodup.filter _
    apply safe_bind.mpr
    have remembers : Safe (shelving legible sure) (rememberWire fp.dev (answeredOk answers))
        (fun _ after shelf₅ => shelf₅ = (((middle.setNote fp.dev note).hold none).setPorts fp.dev text).hold none ∧
          (mac ∈ answeredOk answers → mac ∈ after.carriedWire fp.dev) ∧
          (Forgotten topo fp.dev mac syncer₄ shelf₅ → Forgotten topo fp.dev mac after shelf₅)) syncer₄
        ((((middle.setNote fp.dev note).hold none).setPorts fp.dev text).hold none) := by
      rw [rememberWire]
      split
      · refine safe_modify.mpr ⟨rfl, fun taken => ?_, fun forgotten => ?_⟩
        · rw [Syncer.addToWire, carriedWire_setCarried, if_pos rfl]
          simp [taken]
        · exact forgotten.setCarried (Finset.Subset.refl _)
      · rename_i none
        exact ⟨rfl, fun taken => absurd (List.ne_nil_of_mem taken) none, id⟩
    apply remembers.mono
    intro _ syncer₅ shelf₅ facts
    obtain ⟨same, barred, forgetting⟩ := facts
    subst same
    refine safe_pure.mpr ⟨fun _ => (Option.some_ne_none _).symm, _, by rw [deeds], ?_⟩
    by_cases member : mac ∈ ours
    · right
      obtain ⟨⟨other, reply⟩, given, same⟩ := List.mem_map.mp (asked.symm ▸ member)
      obtain rfl : other = mac := same
      constructor
      · refine ⟨⟨.retire ours, fp.anat.dev, other, false, reply⟩, ?_, rfl, rfl, ours, rfl⟩
        exact List.mem_reverse.mpr (List.mem_map.mpr ⟨_, given, rfl⟩)
      · intro deed done same
        have owned : ownedHere = (shelf'.drawer fp.dev).note := by
          rcases reads₂ with ⟨_, empty, _⟩ | ⟨_, names⟩
          · rw [listed, empty] at member
            exact absurd member (Finset.notMem_empty _)
          · exact names
        have forgotten := forgets ((congrArg Settings.dryRun kept.settings).trans acts)
          (kept.loaded.mpr loaded) (faithful.of_same kept.written (by simp [writes.drawer])) _ member
        refine Reflected.of_answers nodup (same ▸ entries done) (owned ▸ listed.mp member) settles writes
          ?_ ?_ (forgetting forgotten) barred ?_
        · rfl
        · rw [deeds]
        · intro some
          simpa using some
    · left
      refine ⟨fun deed done same => ?_, fun certain named => ?_⟩
      · exact member (asked ▸ List.mem_map_of_mem (same ▸ entries done))
      · rcases reads₂ with ⟨_, _, _, illegible⟩ | ⟨_, names⟩
        · exact illegible certain
        · exact member (listed.mpr (names ▸ named))

end Reflecting

end SriovMacSync
