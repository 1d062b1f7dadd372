import SriovMacSync.Handover.Sweeping
import SriovMacSync.Memory.Reflections

namespace SriovMacSync

open Data Netlink Interaction Interaction.Action

/-! # A batch over an uplink's file

A batch stirs the stamps of what it names, and writes the file only where an address left
the memory. -/

variable {legible sure : Name → Prop} {shelf shelf' : Shelf} {syncer after : Syncer} {dev : Name}
  {index : Index} {topo : Topology} {macs : Set Mac} {events : List Event} {fp : FastPair}

/-- The addresses a batch is about. -/
def namedIn (events : List Event) : Set Mac := {mac | ∃ event ∈ events, event.2.mac = mac}

section Dating

theorem dateOne_rests {event : Event} {now : Nat} (member : event.2.mac ∈ macs) :
    Rests macs dev syncer shelf (Syncer.dateOne topo now syncer event) shelf := by
  unfold Syncer.dateOne
  split
  · rename_i master _ _
    split
    · rename_i ageing _
      generalize syncer.servedBy topo master = served
      induction served generalizing syncer with
      | nil => exact .refl
      | cons other rest ih =>
          rw [List.foldl_cons]
          apply Rests.trans _ ih
          split
          · rename_i ports known
            apply Rests.setPorts
            intro same
            rw [Syncer.portsOf, same, known, Option.getD_some]
            exact .noteSeen member
          · exact .refl
    · exact .refl
  · exact .refl

theorem dateAll_rests {now : Nat} (named : ∀ event ∈ events, event.2.mac ∈ macs) :
    Rests macs dev syncer shelf (events.foldl (Syncer.dateOne topo now) syncer) shelf := by
  induction events generalizing syncer with
  | nil => exact .refl
  | cons event rest ih =>
      rw [List.foldl_cons]
      exact (dateOne_rests (named event List.mem_cons_self)).trans
        (ih fun event listed => named event (List.mem_cons_of_mem _ listed))

theorem dateDeletions_rests : Safe (shelving legible sure) (dateDeletions topo events) (fun _ after shelf' =>
    Rests (namedIn events) dev syncer shelf after shelf') syncer shelf := by
  rw [dateDeletions]
  split
  · refine safe_bind.mpr (safe_bind.mpr (safe_ask.mpr ⟨trivial, ?_⟩))
    intro now _ facts
    obtain ⟨_, later, _, ticked⟩ := facts
    subst ticked
    refine safe_modify.mpr (safe_pure.mpr ?_)
    have ticks : Rests (namedIn events) dev syncer shelf syncer { shelf with clock := later } :=
      ⟨rfl, id, ⟨rfl, rfl⟩, .refl, rfl, id⟩
    exact ticks.trans (dateAll_rests fun event listed => ⟨event, listed, rfl⟩)
  · exact .refl

end Dating

section Removing

theorem loadOwned_rests : Safe (shelving legible sure) (loadOwned dev) (fun _ after shelf' =>
    Rests macs dev syncer shelf after shelf') syncer shelf := by
  apply loadOwned_shelf.mono
  intro owned after shelf' ⟨same, marks, _⟩
  exact .of_noteMarks marks (by rw [same]) (by rw [same]) fun free => same ▸ free

theorem retire_leaves {work : Section} {removed : List Mac} :
    Safe (shelving legible sure) (retire work dev index removed) (fun _ after shelf' =>
      Rests macs dev syncer shelf after shelf') syncer shelf := by
  apply retire_shelf.mono
  intro retired after shelf' ⟨marks, answers, note, middle, _, _, _, writes, left⟩
  subst left
  exact .of_noteMarks marks (by simp [writes.drawer]) (by simp [writes.drawer]) fun _ _ => nofun

theorem noLongerKept_rests {dropped : List Mac} :
    Rests macs dev syncer shelf (syncer.noLongerKept dev dropped) shelf := by
  unfold Syncer.noLongerKept
  split
  · exact .setCarried
  · exact .refl

theorem freeSlots_rests {freed : Nat} : Rests macs dev syncer shelf (syncer.freeSlots dev freed) shelf := by
  unfold Syncer.freeSlots
  split
  · exact .setCarried
  · exact .refl

theorem rememberWire_rests {removed : List Mac} :
    Safe (shelving legible sure) (rememberWire dev removed) (fun _ after shelf' =>
      Rests macs dev syncer shelf after shelf') syncer shelf := by
  rw [rememberWire]
  split
  · exact safe_modify.mpr .setCarried
  · exact .refl

/-- What was seen on the wire goes from the memory, and the file follows. -/
theorem forgetReflected_reworks (plain : topo.Plain) {ours : List Mac} {freed : Nat} (ready : Ready dev syncer shelf) :
    Safe (shelving legible sure) (forgetReflected topo dev ours freed) (fun _ after shelf' =>
      Reworks macs {none} dev syncer shelf after shelf') syncer shelf := by
  rw [forgetReflected]
  split
  · have forgets : Rests macs dev syncer shelf
        (((syncer.dropPorts dev ours).noLongerKept dev ours).freeSlots dev freed) shelf :=
      (Rests.dropPorts.trans noLongerKept_rests).trans freeSlots_rests
    apply safe_bind.mpr (safe_modify.mpr ?_)
    apply safe_bind.mpr (safe_get.mpr ?_)
    apply (savePorts_reworks plain (forgets.ready ready)).mono
    intro _ after shelf' saves
    exact (Reworks.of_rests forgets ready).trans saves
  · exact .of_rests .refl ready

theorem reflectPair_reworks (plain : topo.Plain) (ready : Ready dev syncer shelf) {seen : Finset Mac} :
    Safe (shelving legible sure) (reflectPair topo seen fp) (fun _ after shelf' =>
      Reworks macs {none} dev syncer shelf after shelf') syncer shelf := by
  by_cases same : dev = fp.dev
  · subst same
    rw [reflectPair]
    split
    · exact .of_rests .refl ready
    · apply safe_bind.mpr
      apply loadOwned_rests.mono
      intro known syncer₁ shelf₁ looks
      split
      · exact .of_rests looks ready
      · apply safe_bind.mpr
        apply loadOwned_rests.mono
        intro owned syncer₂ shelf₂ again
        apply safe_bind.mpr (safe_ask.mpr ⟨trivial, ?_⟩)
        intro order shelf₃ same
        obtain rfl : shelf₃ = shelf₂ := same
        apply safe_bind.mpr
        apply retire_leaves.mono
        intro retired syncer₄ shelf₄ retires
        have known : Rests macs fp.dev syncer shelf syncer₄ shelf₄ := (looks.trans again).trans retires
        apply safe_bind.mpr
        apply (forgetReflected_reworks plain (known.ready ready)).mono
        intro _ syncer₅ shelf₅ forgets
        apply safe_bind.mpr
        apply rememberWire_rests.mono
        intro _ after shelf' remembers
        exact ((Reworks.of_rests known ready).trans forgets).step remembers
  · exact (rests_elsewhere (reflectPair_beside same) (by simpa using same) ready.away).mono
      fun _ _ _ rests => .of_rests rests ready

theorem reflectPairs_reworks (plain : topo.Plain) (ready : Ready dev syncer shelf) {seen : Name → Finset Mac}
    {pairs : List FastPair} :
    Safe (shelving legible sure) (reflectPairs topo seen pairs) (fun _ after shelf' =>
      Reworks macs {none} dev syncer shelf after shelf') syncer shelf := by
  induction pairs generalizing syncer shelf with
  | nil => exact .of_rests .refl ready
  | cons fp rest ih =>
      apply safe_bind.mpr
      apply (reflectPair_reworks plain ready).mono
      intro now syncer₁ shelf₁ first
      apply safe_bind.mpr
      exact (ih first.ready).mono fun _ _ _ later => first.trans later

/-- The longest silent make room, and the file follows. -/
theorem shedKeeps_reworks (plain : topo.Plain) (ready : Ready dev syncer shelf) {need : Nat} {onCard : Finset Mac} :
    Safe (shelving legible sure) (shedKeeps dev index need topo onCard) (fun _ after shelf' =>
      Reworks macs {none} dev syncer shelf after shelf') syncer shelf := by
  apply safe_bind.mpr
  apply loadOwned_rests.mono
  intro _ syncer₁ shelf₁ looks
  have idle : Reworks macs {none} dev syncer shelf syncer₁ shelf₁ := .of_rests looks ready
  refine safe_bind.mpr (safe_bind.mpr (safe_get.mpr (safe_pure.mpr ?_)))
  split
  · apply safe_bind.mpr (safe_get.mpr ?_)
    split
    · dsimp only
      split
      · exact idle
      · apply safe_bind.mpr
        apply retire_leaves.mono
        intro retired syncer₂ shelf₂ retires
        split
        · exact idle.step retires
        · apply safe_bind.mpr (safe_modify.mpr ?_)
          have dropped : Reworks macs {none} dev syncer shelf (syncer₂.dropPorts dev retired.dropped) shelf₂ :=
            (idle.step retires).step .dropPorts
          apply safe_bind.mpr
          apply (savePorts_reworks plain dropped.ready).mono
          intro _ syncer₃ shelf₃ saves
          apply safe_bind.mpr (safe_modify.mpr ?_)
          apply safe_bind.mpr (safe_ask.mpr ⟨trivial, ?_⟩)
          intro _ shelf₄ same
          obtain rfl : shelf₄ = shelf₃ := same
          exact (dropped.trans saves).step noLongerKept_rests
    · exact idle
  · exact idle

end Removing

section Registering

theorem stirs_foldl {heard : List Mac} {learntOn : LearntAt} {now : Nat} {ports : PortMap}
    (named : ∀ mac ∈ heard, mac ∈ macs) :
    Stirs macs ports (heard.foldl (fun ports mac => noteSeen ports mac (learntOn.lookup mac) now) ports) := by
  induction heard generalizing ports with
  | nil => exact .refl
  | cons mac rest ih =>
      rw [List.foldl_cons]
      exact (Stirs.noteSeen (named mac List.mem_cons_self)).trans
        (ih fun mac listed => named mac (List.mem_cons_of_mem _ listed))

theorem makeRoom_reworks (plain : topo.Plain) (ready : Ready dev syncer shelf) {excess : Nat} {onCard : Finset Mac} :
    Safe (shelving legible sure) (makeRoom dev index excess topo onCard) (fun _ after shelf' =>
      Reworks macs {none} dev syncer shelf after shelf') syncer shelf := by
  rw [makeRoom]
  split
  · exact shedKeeps_reworks plain ready
  · exact .of_rests .refl ready

theorem registerLearns_reworks (plain : topo.Plain) (ready : Ready dev syncer shelf) {learns : List (Mac × Index)}
    {cache : ReadBack} (named : ∀ learn ∈ learns, learn.1 ∈ macs) :
    Safe (shelving legible sure) (registerLearns topo fp learns cache) (fun _ after shelf' =>
      Reworks macs {none} dev syncer shelf after shelf') syncer shelf := by
  by_cases same : dev = fp.dev
  · subst same
    apply safe_bind.mpr (safe_ask.mpr ⟨trivial, ?_⟩)
    intro now _ ⟨_, later, _, ticked⟩
    subst ticked
    apply safe_bind.mpr (safe_modify.mpr ?_)
    apply safe_bind.mpr
    apply readBack_shelf.mono
    intro answer syncer₁ shelf₁ ⟨same, same'⟩
    have stamps : Rests macs fp.dev syncer shelf syncer₁ shelf₁ := by
      have ticks : Rests macs fp.dev syncer shelf syncer { shelf with clock := later } :=
        ⟨rfl, id, ⟨rfl, rfl⟩, .refl, rfl, id⟩
      rw [same, same']
      apply ticks.trans
      split
      · apply Rests.setPorts
        intro _
        apply stirs_foldl
        intro mac listed
        obtain ⟨port, learnt⟩ := mem_lastPorts (List.mem_toFinset.mp (mem_ascending.mp listed))
        exact named _ learnt
      · exact .refl
    clear same same'
    have stamped : Reworks macs {none} fp.dev syncer shelf syncer₁ shelf₁ := .of_rests stamps ready
    cases answer with
    | error errno => exact stamped
    | ok answer =>
        obtain ⟨onCard, cache'⟩ := answer
        apply safe_bind.mpr (safe_get.mpr ?_)
        apply safe_bind.mpr
        apply (makeRoom_reworks plain stamped.ready).mono
        intro freed syncer₂ shelf₂ makes
        apply safe_bind.mpr
        apply noteIndex_shelf.mono
        intro _ syncer₃ _ ⟨marks, record, written⟩
        subst written
        have records : Rests macs fp.dev syncer₂ shelf₂ syncer₃ (shelf₂.setRecord fp.dev record) :=
          .of_noteMarks marks (Shelf.keepsFiles_setRecord fp.dev).1 (Shelf.keepsFiles_setRecord fp.dev).2 id
        apply safe_bind.mpr
        apply safe_bind.mpr
        apply registerBatchLocked_shelf.mono
        intro registered syncer₄ shelf₄ ⟨marks', enters, _⟩
        have registers : Rests macs fp.dev syncer₃ (shelf₂.setRecord fp.dev record) syncer₄ shelf₄ := by
          apply Rests.of_noteMarks marks' enters.files.1 enters.files.2
          intro _ work
          rw [enters.free]
          exact nofun
        have known := ((stamped.trans makes).step records).step registers
        cases registered with
        | none => exact known.step .setCarried
        | some done => exact known.step .setCarried
  · exact (rests_elsewhere (registerLearns_beside same) (by simpa using same) ready.away).mono
      fun _ _ _ rests => .of_rests rests ready

theorem registerEach_reworks (plain : topo.Plain) (ready : Ready dev syncer shelf) {pairs : List FastPair}
    {candidates : Candidates} {devs : List Name} {cache : ReadBack}
    (named : ∀ dev learn, candidates.holds dev learn → learn.1 ∈ macs) :
    Safe (shelving legible sure) (registerEach topo pairs candidates devs cache) (fun _ after shelf' =>
      Reworks macs {none} dev syncer shelf after shelf') syncer shelf := by
  induction devs generalizing syncer shelf cache with
  | nil => exact .of_rests .refl ready
  | cons other rest ih =>
      rw [registerEach]
      split
      · exact ih ready
      · apply safe_bind.mpr
        apply (registerLearns_reworks plain ready (named other)).mono
        intro result syncer₁ shelf₁ first
        cases result with
        | error errno => exact first
        | ok cache' => exact (ih first.ready).mono fun _ _ _ later => first.trans later

/-- The addresses of a batch's candidates are named in it. -/
theorem namedIn_of_candidate {pairs : List FastPair} {phase : FastPhase} {learn : Mac × Index}
    (held : (syncer.fastAddAll topo pairs phase events).2.holds dev learn) : learn.1 ∈ namedIn events := by
  obtain ⟨event, listed, _, _, _, _, _, same, _⟩ := holds_fastAddAll.mp held
  exact ⟨event, listed, by rw [same]⟩

theorem applyLearns_reworks (plain : topo.Plain) (ready : Ready dev syncer shelf) {urgency : Urgency} :
    Safe (shelving legible sure) (applyLearns topo events urgency) (fun _ after shelf' =>
      Reworks (namedIn events) {none} dev syncer shelf after shelf') syncer shelf := by
  apply safe_bind.mpr (safe_get.mpr ?_)
  dsimp only
  apply safe_bind.mpr
  apply (askDriver_beside dev).mono
  intro answer syncer₁ shelf ⟨beside, same⟩
  subst same
  have asked : Reworks (namedIn events) {none} dev syncer shelf syncer₁ shelf :=
    .of_rests (.of_beside beside rfl id) ready
  cases answer with
  | error errno => exact asked
  | ok answer =>
      apply safe_bind.mpr (safe_get.mpr ?_)
      apply safe_bind.mpr
      apply (reflectPairs_reworks plain asked.ready).mono
      intro reflected syncer₂ shelf₂ reflects
      apply safe_bind.mpr
      apply (refreshForGrowth_beside dev).mono
      intro refreshed syncer₃ shelf₃ ⟨beside', same, _⟩
      subst same
      have known := (asked.trans reflects).step (.of_beside beside' rfl id)
      cases refreshed with
      | error errno => exact known
      | ok refreshed =>
          obtain ⟨pairs, cache⟩ := refreshed
          apply safe_bind.mpr (safe_get.mpr ?_)
          apply safe_bind.mpr (safe_ask.mpr ⟨trivial, ?_⟩)
          intro devs shelf₄ same
          obtain rfl : shelf₄ = shelf₃ := same
          apply safe_bind.mpr
          apply (registerEach_reworks plain known.ready fun _ _ => namedIn_of_candidate).mono
          intro result after shelf' registers
          cases result with
          | error errno => exact known.trans registers
          | ok done => exact known.trans registers

/-- A whole batch. -/
theorem fastApply_reworks (plain : topo.Plain) (ready : Ready dev syncer shelf) :
    Safe (shelving legible sure) (fastApply topo events) (fun _ after shelf' =>
      Reworks (namedIn events) {none} dev syncer shelf after shelf') syncer shelf := by
  have idle : Reworks (namedIn events) {none} dev syncer shelf syncer shelf := .of_rests .refl ready
  rw [fastApply]
  split
  · exact idle
  · apply safe_bind.mpr (safe_get.mpr ?_)
    split
    · exact idle
    · apply safe_bind.mpr
      apply dateDeletions_rests.mono
      intro urgency syncer₁ shelf₁ dates
      have dated := idle.step dates
      split
      · exact (applyLearns_reworks plain dated.ready).mono fun _ _ _ learns => dated.trans learns
      · exact dated

end Registering

end SriovMacSync
