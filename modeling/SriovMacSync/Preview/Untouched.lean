import SriovMacSync.Custody.Discipline
import SriovMacSync.Memory.Preceding

namespace SriovMacSync

open Data Netlink Interaction Interaction.Action

/-! # What is left of one uplink by the work on others

Beside its drawer and its memory, the index recorded beside its note. -/

variable {legible sure : Name → Prop} {shelf shelf' : Shelf} {syncer after : Syncer} {dev named : Name}
  {index : Index} {topo : Topology} {devs : Set Name} {filters : Set (Index × Bool)} {reading : Reading}

/-- What a process knows about the record beside a note is as it was. -/
def Syncer.IndexKept (dev : Name) (before after : Syncer) : Prop := after.indices dev = before.indices dev

namespace Syncer.IndexKept

theorem of_eq (same : after.indices = syncer.indices) : Syncer.IndexKept dev syncer after := congrFun same dev

theorem of_noteMarks (marks : NoteMarks devs syncer after) (outside : dev ∉ devs) :
    Syncer.IndexKept dev syncer after := by
  obtain ⟨_, _, same, made⟩ := marks
  subst made
  exact same dev outside

theorem bind {allowed : Call → Prop} {α β : Type} {first : Sync α} {rest : α → Sync β}
    (left : Within allowed first (fun _ after => Syncer.IndexKept dev syncer after) syncer)
    (right : ∀ value middle, Within allowed (rest value) (fun _ after => Syncer.IndexKept dev middle after) middle) :
    Within allowed (first >>= rest) (fun _ after => Syncer.IndexKept dev syncer after) syncer :=
  left.bind fun value middle one => (right value middle).imp fun _ _ two => Eq.trans two one

end Syncer.IndexKept

section Indices

theorem loadPorts_keepsIndex (member : named ∈ devs) :
    Within (InScope devs filters) (loadPorts named topo) (fun _ after => Syncer.IndexKept dev syncer after) syncer := by
  apply (loadPorts_within member).imp
  intro _ after marks
  obtain ⟨_, _, _, made⟩ := marks
  subst made
  rfl

theorem savePorts_keepsIndex {passAt : Nat} (member : named ∈ devs) :
    Within (InScope devs filters) (savePorts named topo passAt)
      (fun _ after => Syncer.IndexKept dev syncer after) syncer := by
  apply (savePorts_within member).imp
  intro _ after ⟨_, made⟩
  subst made
  rfl

theorem decideWanted_keepsIndex {anat : Anatomy} {answer : Answer} {owned : Finset Mac} :
    Within (InScope devs filters) (decideWanted reading named anat answer owned)
      (fun _ after => Syncer.IndexKept dev syncer after) syncer := by
  apply within_get
  dsimp only
  split
  · apply Syncer.IndexKept.bind (within_modify (.of_eq rfl))
    intro _ middle
    apply within_ask_bind (inScope_idle rfl rfl)
    intro fresh
    cases fresh with
    | error errno => exact within_pure.mpr rfl
    | ok fresh => exact Syncer.IndexKept.bind (within_modify (.of_eq rfl)) fun _ _ => within_pure.mpr rfl
  · exact within_pure.mpr rfl

theorem dropPorts_keepsIndex {macs : List Mac} : Syncer.IndexKept dev syncer (syncer.dropPorts named macs) := by
  unfold Syncer.dropPorts
  split <;> rfl

variable (outside : dev ∉ devs) (member : named ∈ devs)

include outside member

theorem settleCard_keepsIndex {want owned : Finset Mac} (adds : (index, true) ∈ filters)
    (removes : (index, false) ∈ filters) :
    Within (InScope devs filters) (settleCard reading named index want owned)
      (fun _ after => Syncer.IndexKept dev syncer after) syncer := by
  apply within_get
  dsimp only
  apply within_ask_bind (inScope_idle rfl rfl)
  intro wantOrder
  apply Syncer.IndexKept.bind
  · rw [recordOwner]
    split
    · exact (noteIndex_within member adds).imp fun _ _ marks => .of_noteMarks marks outside
    · exact within_pure.mpr rfl
  intro _ middle
  apply Syncer.IndexKept.bind
  · rw [registerMissing]
    split
    · apply Syncer.IndexKept.bind
        ((registerBatchLocked_within member adds).imp fun _ _ marks => .of_noteMarks marks outside)
      intro registered middle
      cases registered <;> exact within_pure.mpr rfl
    · exact within_pure.mpr rfl
  intro put middle
  apply within_ask_bind (inScope_idle rfl rfl)
  intro ownedOrder
  apply Syncer.IndexKept.bind
  · rw [retireStale]
    split
    · apply Syncer.IndexKept.bind ((retire_within member removes).imp fun _ _ marks => .of_noteMarks marks outside)
      intro retired middle
      exact Syncer.IndexKept.bind (within_modify dropPorts_keepsIndex) fun _ _ => within_pure.mpr rfl
    · exact within_pure.mpr rfl
  intro retired middle
  apply Syncer.IndexKept.bind
  · rw [mergeOwned]
    split
    · exact (saveOwnedMerged_within member).imp fun _ _ marks => .of_noteMarks marks outside
    · exact within_pure.mpr rfl
  intro _ middle
  exact within_pure.mpr rfl

theorem passUplink_keepsIndex {pair : Pair} {link : Link} {anat : Anatomy} {answer : Answer} (same : named = pair.dev)
    (adds : (anat.dev, true) ∈ filters) (removes : (anat.dev, false) ∈ filters) :
    Within (InScope devs filters) (passUplink reading pair link anat answer)
      (fun _ after => Syncer.IndexKept dev syncer after) syncer := by
  subst same
  apply Syncer.IndexKept.bind (loadPorts_keepsIndex member)
  intro _ middle
  apply Syncer.IndexKept.bind ((loadOwned_within member).imp fun _ _ marks => .of_noteMarks marks outside)
  intro owned middle
  apply Syncer.IndexKept.bind (noteIsReadable_within.imp fun _ _ marks => .of_noteMarks marks outside)
  intro readable middle
  apply Syncer.IndexKept.bind decideWanted_keepsIndex
  intro decision middle
  cases decision with
  | error errno => exact within_pure.mpr rfl
  | ok decision =>
      apply within_get
      apply Syncer.IndexKept.bind
      · rw [reportReleased]
        split
        · exact Syncer.IndexKept.bind (within_ask.mpr ⟨inScope_idle rfl rfl, fun _ => rfl⟩) fun _ _ => within_pure.mpr rfl
        · exact within_pure.mpr rfl
      intro _ middle
      apply Syncer.IndexKept.bind (settleCard_keepsIndex outside member adds removes)
      intro settled middle
      apply Syncer.IndexKept.bind
      · rw [refreshMemory]
        split
        · apply Syncer.IndexKept.bind (within_modify (.of_eq rfl))
          intro _ middle
          split
          · exact savePorts_keepsIndex member
          · exact within_pure.mpr rfl
        · exact within_pure.mpr rfl
      intro _ middle
      exact Syncer.IndexKept.bind (within_modify (.of_eq rfl)) fun _ _ => within_pure.mpr rfl

theorem followRename_keepsIndex {new : Name} (member' : new ∈ devs) (adds : (index, true) ∈ filters) :
    Within (InScope devs filters) (followRename named new index topo)
      (fun _ after => Syncer.IndexKept dev syncer after) syncer := by
  apply Syncer.IndexKept.bind (loadPorts_keepsIndex member)
  intro _ middle
  apply Syncer.IndexKept.bind
    ((migrateNote_within member member' adds).imp fun _ _ marks => .of_noteMarks marks outside)
  intro moved middle
  split
  · apply Syncer.IndexKept.bind (within_modify (.of_eq (Syncer.indices_followTo named new)))
    intro _ middle
    apply within_get
    exact Syncer.IndexKept.bind (savePorts_keepsIndex member') fun _ _ => within_pure.mpr rfl
  · exact within_pure.mpr rfl

end Indices

/-- What does not concern an uplink, the record beside its note included. -/
structure Untouched (topo : Topology) (dev : Name) (syncer : Syncer) (shelf : Shelf) (after : Syncer) (shelf' : Shelf) :
    Prop extends Apart topo dev syncer shelf after shelf' where
  index : Syncer.IndexKept dev syncer after

namespace Untouched

theorem refl (away : shelf.Away dev) : Untouched topo dev syncer shelf syncer shelf := ⟨.refl away, rfl⟩

theorem trans {middle : Syncer} {between : Shelf} (first : Untouched topo dev syncer shelf middle between)
    (second : Untouched topo dev middle between after shelf') : Untouched topo dev syncer shelf after shelf' :=
  ⟨first.toApart.trans second.toApart, Eq.trans second.index first.index⟩

/-- A look leaves everything, as far as the memory does. -/
theorem of_memory (beside : Syncer.Beside dev syncer after) (index : Syncer.IndexKept dev syncer after)
    (away : shelf.Away dev) : Untouched topo dev syncer shelf after shelf :=
  ⟨⟨beside, rfl, away, fun _ _ => id⟩, index⟩

end Untouched

theorem untouched_shelf {α : Type} {action : Sync α}
    (left : Safe (shelving legible sure) action (fun _ after shelf' => Apart topo dev syncer shelf after shelf')
      syncer shelf)
    (kept : Within (InScope devs filters) action (fun _ after => Syncer.IndexKept dev syncer after) syncer) :
    Safe (shelving legible sure) action (fun _ after shelf' => Untouched topo dev syncer shelf after shelf')
      syncer shelf :=
  (left.and (within_shelf kept)).mono fun _ _ _ holds => ⟨holds.1, holds.2⟩

section Orphans

variable {apply : Bool}

theorem sweepOrphan_untouched {act : Bool} (apart : dev ≠ named) (away : shelf.Away dev) :
    Safe (shelving legible sure) (sweepOrphan named topo act) (fun _ after shelf' =>
      Untouched topo dev syncer shelf after shelf') syncer shelf := by
  have outside : dev ∉ ({named} : Set Name) := apart
  have member : named ∈ ({named} : Set Name) := rfl
  apply untouched_shelf (sweepOrphan_apart apart away)
    (?_ : Within (InScope {named} Set.univ) _ (fun _ after => Syncer.IndexKept dev syncer after) _)
  rw [sweepOrphan]
  split
  · apply Syncer.IndexKept.bind ((sweepNote_within member fun _ _ => Set.mem_univ _).imp
      fun _ _ marks => .of_noteMarks marks outside)
    intro noteGone middle
    apply within_modify
    split <;> rfl
  · exact Syncer.IndexKept.bind ((loadOwned_within member).imp fun _ _ marks => .of_noteMarks marks outside)
      fun _ _ => within_pure.mpr rfl

theorem followRename_untouched {new : Name} (apart : dev ≠ named) (beyond : dev ≠ new)
    (bears : topo.nameOf index = some new) (away : shelf.Away dev) :
    Safe (shelving legible sure) (followRename named new index topo) (fun _ after shelf' =>
      Untouched topo dev syncer shelf after shelf') syncer shelf := by
  have outside : dev ∉ ({named, new} : Set Name) := by simp [apart, beyond]
  exact untouched_shelf (followRename_apart apart beyond bears away)
    (@followRename_keepsIndex _ _ _ _ _ {named, new} Set.univ outside (by simp) _ (by simp) (Set.mem_univ _))

theorem isUnidentified_untouched (apart : dev ≠ named) (away : shelf.Away dev) :
    Safe (shelving legible sure) (isUnidentified named) (fun _ after shelf' =>
      Untouched topo dev syncer shelf after shelf') syncer shelf := by
  have outside : dev ∉ ({named} : Set Name) := apart
  apply untouched_shelf (isUnidentified_apart apart away)
    (?_ : Within (InScope {named} Set.univ) _ (fun _ after => Syncer.IndexKept dev syncer after) _)
  have member : named ∈ ({named} : Set Name) := rfl
  apply within_ask_bind (inScope_file rfl rfl rfl member)
  intro recorded
  split
  · exact within_pure.mpr rfl
  · exact Syncer.IndexKept.bind ((loadOwned_within member).imp fun _ _ marks => .of_noteMarks marks outside)
      fun _ _ => within_pure.mpr rfl

theorem notedLink_untouched (apart : dev ≠ named) (away : shelf.Away dev) :
    Safe (shelving legible sure) (notedLink named topo) (fun _ after shelf' =>
      Untouched topo dev syncer shelf after shelf') syncer shelf :=
  untouched_shelf (notedLink_apart apart away)
    ((@notedLink_within {named} Set.univ topo named syncer rfl).imp fun _ _ holds => .of_eq (congrArg Syncer.indices holds.1))

/-- The sweep over a device that leads to no uplink concerns none. -/
theorem dropOrphan_untouched (apart : dev ≠ named) (unled : ¬ shelf.Leads topo dev named) (away : shelf.Away dev) :
    Safe (shelving legible sure) (dropOrphan topo apply named) (fun _ after shelf' =>
      Untouched topo dev syncer shelf after shelf') syncer shelf := by
  apply safe_bind.mpr (safe_get.mpr ?_)
  dsimp only
  have sweeps {before : Syncer} {between : Shelf} (earlier : Untouched topo dev syncer shelf before between)
      {act : Bool} : Safe (shelving legible sure) (sweepOrphan named topo act) (fun _ after shelf' =>
        Untouched topo dev syncer shelf after shelf') before between :=
    (sweepOrphan_untouched apart earlier.away).mono fun _ _ _ left => earlier.trans left
  apply safe_bind.mpr
  apply (notedLink_untouched apart away).mono
  intro found syncer₁ shelf₁ first
  split
  · exact sweeps first
  · apply safe_bind.mpr
    apply (isUnidentified_untouched apart first.away).mono
    intro unidentified syncer₂ shelf₂ second
    have known := first.trans second
    split
    · exact known
    · apply safe_bind.mpr
      apply renamedTarget_shelf.mono
      intro target syncer₃ shelf₃ ⟨same, same', leadsTo⟩
      subst same same'
      split
      · rename_i target place new
        obtain ⟨bears, other, led⟩ := leadsTo place new rfl
        have beyond : dev ≠ new := by
          intro same
          subst same
          exact unled (known.leads named apart.symm led)
        split
        · apply safe_bind.mpr
          apply (followRename_untouched apart beyond bears known.away).mono
          intro _ after shelf' follows
          exact known.trans follows
        · exact known
      · exact sweeps known

end Orphans

section Turns

variable {pair : Pair} {answer : Answer}

theorem passUplink_untouched {link : Link} {anat : Anatomy} (apart : dev ≠ pair.dev)
    (bears : topo.nameOf anat.dev = some pair.dev) (away : shelf.Away dev) :
    Safe (shelving legible sure) (passUplink reading pair link anat answer) (fun _ after shelf' =>
      Untouched topo dev syncer shelf after shelf') syncer shelf := by
  have outside : dev ∉ ({pair.dev} : Set Name) := apart
  exact untouched_shelf (passUplink_apart apart bears away)
    (@passUplink_keepsIndex _ _ _ {pair.dev} Set.univ _ outside rfl _ _ _ _ rfl (Set.mem_univ _) (Set.mem_univ _))

theorem reused_untouched (apart : dev ≠ named) (away : shelf.Away dev) :
    Safe (shelving legible sure) (locked named .reused (removeNote named)) (fun _ after shelf' =>
      Untouched topo dev syncer shelf ((after.forgetUplink named).sawNote named true) shelf') syncer shelf := by
  have outside : dev ∉ ({named} : Set Name) := apart
  have member : named ∈ ({named} : Set Name) := rfl
  have kept : Within (InScope {named} ∅) (locked named .reused (removeNote named))
      (fun _ after => Syncer.IndexKept dev syncer after) syncer :=
    (locked_within member (removeNote_within member)).imp fun _ _ marks => .of_noteMarks marks outside
  exact ((reused_apart apart away).and (within_shelf kept)).mono fun _ _ _ holds => ⟨holds.1, holds.2⟩

theorem settleName_untouched (apart : dev ≠ named) (unled : ¬ shelf.Leads reading.topo dev named)
    (away : shelf.Away dev) :
    Safe (shelving legible sure) (settleName reading named index) (fun _ after shelf' =>
      Untouched reading.topo dev syncer shelf after shelf') syncer shelf := by
  have idle : Untouched reading.topo dev syncer shelf syncer shelf := .refl away
  apply safe_bind.mpr
  apply recordedIndex_shelf.mono
  intro recorded syncer shelf ⟨same, same'⟩
  subst same same'
  split
  · exact idle
  · apply safe_bind.mpr (safe_get.mpr ?_)
    split
    · exact idle
    · apply safe_bind.mpr
      apply renamedTarget_shelf.mono
      intro target syncer₁ shelf₁ ⟨same, same', leadsTo⟩
      subst same same'
      split
      · rename_i target place new
        obtain ⟨bears, other, led⟩ := leadsTo place new rfl
        have beyond : dev ≠ new := by
          intro same
          subst same
          exact unled led
        exact followRename_untouched apart beyond bears away
      · apply safe_bind.mpr
        apply (reused_untouched apart away).mono
        intro _ after shelf' left
        exact safe_bind.mpr (safe_modify.mpr left)

/-- The turn of another uplink concerns this one only where a record leads from there to
here. -/
theorem passPair_untouched (apart : dev ≠ pair.dev) (unled : ¬ shelf.Leads reading.topo dev pair.dev)
    (away : shelf.Away dev) :
    Safe (shelving legible sure) (passPair reading pair answer) (fun _ after shelf' =>
      Untouched reading.topo dev syncer shelf after shelf') syncer shelf := by
  rw [passPair]
  split
  · rename_i link bridge found below
    split
    · rename_i anat located
      have bears := Topology.nameOf_of_indexOf (Topology.get_spec found).1
      apply safe_bind.mpr
      apply (settleName_untouched apart unled away).mono
      intro goes syncer₁ shelf₁ first
      split
      · apply (passUplink_untouched apart (Topology.anatomy_dev located ▸ bears) first.away).mono
        intro _ after shelf' second
        exact first.trans second
      · exact first
    · exact .refl away
  · exact .refl away

end Turns

end SriovMacSync
