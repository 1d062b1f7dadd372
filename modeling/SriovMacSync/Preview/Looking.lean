import SriovMacSync.Custody.Discipline
import SriovMacSync.Sync.Batch

namespace SriovMacSync

open Data Netlink Interaction Interaction.Action

/-! # What a preview asks

A dry run and a pass that applies nothing only look: no filter write, no file of the
state directory written or removed, and no lock taken. -/

/-- Only looking, and told the same afterwards. -/
def Peeks {α : Type} (action : Sync α) (syncer : Syncer) : Prop :=
  Within (fun request => request.looks = true) action (fun _ after => after.toSettings = syncer.toSettings) syncer

namespace Peeks

variable {α β : Type} {syncer : Syncer}

theorem pure {value : α} : Peeks (pure value) syncer := within_pure.mpr rfl

theorem ask {request : Call} (looks : request.looks = true) : Peeks (SriovMacSync.ask request) syncer :=
  within_ask.mpr ⟨looks, fun _ => rfl⟩

theorem modify {change : Syncer → Syncer} (told : (change syncer).toSettings = syncer.toSettings) :
    Peeks (modify change) syncer := within_modify told

theorem get {rest : Syncer → Sync β} (second : Peeks (rest syncer) syncer) : Peeks (get >>= rest) syncer :=
  within_get second

theorem bind {first : Sync α} {rest : α → Sync β} (left : Peeks first syncer)
    (right : ∀ value middle, middle.toSettings = syncer.toSettings → Peeks (rest value) middle) :
    Peeks (first >>= rest) syncer :=
  Within.bind left fun value middle told =>
    (right value middle told).imp fun _ _ told' => Eq.trans told' told

end Peeks

variable {syncer : Syncer} {dev : Name} {index : Index} {topo : Topology} {reading : Reading} {apply : Bool}

section Notes

theorem loadOwned_peeks : Peeks (loadOwned dev) syncer := by
  apply Peeks.bind (.ask rfl)
  intro answer middle _
  apply Peeks.bind (.modify _)
  · intro _ _ _
    exact .pure
  · dsimp only
    split <;> rfl

theorem noteIsReadable_peeks : Peeks (noteIsReadable dev) syncer := .get .pure

theorem recordedIndex_peeks : Peeks (recordedIndex dev) syncer := by
  apply Peeks.get
  split
  · exact .pure
  · exact .ask rfl

theorem loadPorts_peeks : Peeks (loadPorts dev topo) syncer := by
  apply Peeks.get
  split
  · exact .pure
  · apply Peeks.bind (.modify rfl)
    intro _ middle _
    split
    · exact .pure
    · apply Peeks.bind (.ask rfl)
      intro now middle _
      apply Peeks.bind (.bind (.ask rfl) fun _ _ _ => .pure)
      intro read middle _
      dsimp only
      split
      · exact .modify rfl
      · exact .pure

theorem notedLink_peeks : Peeks (notedLink dev topo) syncer := by
  rw [notedLink]
  split
  · exact .pure
  · apply Peeks.bind recordedIndex_peeks
    intro recorded middle _
    split <;> exact .pure

theorem renamedTarget_peeks : Peeks (renamedTarget dev topo) syncer := by
  apply Peeks.bind (.ask rfl)
  intro recorded middle _
  split
  · exact .pure
  · split <;> exact .pure

theorem notedDevices_peeks : Peeks notedDevices syncer :=
  .bind (.ask rfl) fun _ _ _ => .pure

theorem notedDevicesOrNone_peeks : Peeks notedDevicesOrNone syncer := by
  apply Peeks.bind notedDevices_peeks
  intro listing middle _
  cases listing <;> exact .pure

end Notes

section Orphans

theorem orphaned_peeks : Peeks orphaned syncer := by
  apply Peeks.get
  split
  · exact .bind (.modify rfl) fun _ _ _ => .pure
  · apply Peeks.bind (.ask rfl)
    intro now middle _
    apply Peeks.bind notedDevicesOrNone_peeks
    intro noted middle _
    exact .get (.bind (.modify rfl) fun _ _ _ => .pure)

theorem isUnidentified_peeks : Peeks (isUnidentified dev) syncer := by
  apply Peeks.bind (.ask rfl)
  intro recorded middle _
  split
  · exact .pure
  · exact .bind loadOwned_peeks fun _ _ _ => .pure

/-- Whether a pass is to change nothing. -/
def Syncer.Previews (syncer : Syncer) (apply : Bool) : Prop := apply = false ∨ syncer.dryRun = true

theorem Syncer.Previews.idle (previews : syncer.Previews apply) : (apply && !syncer.dryRun) = false := by
  rcases previews with same | same <;> simp [same]

theorem Syncer.Previews.of_told {after : Syncer} (previews : syncer.Previews apply)
    (told : after.toSettings = syncer.toSettings) : after.Previews apply :=
  previews.imp_right fun dry => (congrArg Settings.dryRun told).trans dry

/-- A preview of the sweep only reads what would be taken back. -/
theorem dropOrphan_peeks (previews : syncer.Previews apply) : Peeks (dropOrphan topo apply dev) syncer := by
  apply Peeks.get
  rw [previews.idle]
  have sweeps {before : Syncer} : Peeks (sweepOrphan dev topo false) before :=
    .bind loadOwned_peeks fun _ _ _ => .pure
  apply Peeks.bind notedLink_peeks
  intro found middle _
  split
  · exact sweeps
  · apply Peeks.bind isUnidentified_peeks
    intro unidentified middle _
    split
    · exact .pure
    · apply Peeks.bind renamedTarget_peeks
      intro target middle _
      split
      · exact .pure
      · exact sweeps

theorem dropOrphans_peeks (previews : syncer.Previews apply) : Peeks (dropOrphans topo apply) syncer := by
  apply Peeks.bind orphaned_peeks
  intro orphans middle told
  have kept : ∀ named ∈ orphans, ∀ before : Syncer, before.toSettings = middle.toSettings →
      Within (fun request => request.looks = true) (dropOrphan topo apply named)
        (fun _ after => after.toSettings = middle.toSettings) before := by
    intro named _ before told'
    have previews' := (previews.of_told told).of_told told'
    exact (dropOrphan_peeks previews').imp fun _ _ same => same.trans told'
  exact within_forM rfl kept

end Orphans

section Turns

variable {pair : Pair} {link : Link} {anat : Anatomy} {answer : Answer} {owned want : Finset Mac}

theorem settleName_peeks (previews : syncer.Previews reading.apply) : Peeks (settleName reading dev index) syncer := by
  apply Peeks.bind recordedIndex_peeks
  intro recorded middle told
  have previews' := previews.of_told told
  split
  · exact .pure
  · apply Peeks.get
    rw [if_pos]
    · exact .pure
    · rcases previews' with same | same <;> simp [same]

theorem decideWanted_peeks : Peeks (decideWanted reading dev anat answer owned) syncer := by
  apply Peeks.get
  dsimp only
  split
  · apply Peeks.bind (.modify rfl)
    intro _ middle _
    apply Peeks.bind (.ask rfl)
    intro fresh middle _
    cases fresh with
    | error errno => exact .pure
    | ok fresh => exact .bind (.modify rfl) fun _ _ _ => .pure
  · exact .pure

theorem reportReleased_peeks {shed : List Mac} : Peeks (reportReleased apply dev shed) syncer := by
  rw [reportReleased]
  split
  · exact .bind (.ask rfl) fun _ _ _ => .pure
  · exact .pure

/-- A preview counts what a turn would do to the filter. -/
theorem settleCard_peeks (previews : syncer.Previews reading.apply) :
    Peeks (settleCard reading dev index want owned) syncer := by
  apply Peeks.get
  rw [previews.idle]
  dsimp only
  apply Peeks.bind (.ask rfl)
  intro wantOrder middle told
  apply Peeks.bind .pure
  intro _ middle told₁
  apply Peeks.bind .pure
  intro put middle told₂
  apply Peeks.bind (.ask rfl)
  intro ownedOrder middle told₃
  apply Peeks.bind .pure
  intro retired middle told₄
  have previews' := ((((previews.of_told told).of_told told₁).of_told told₂).of_told told₃).of_told told₄
  refine .bind ?_ fun _ _ _ => .pure
  rw [mergeOwned]
  split
  · rename_i applies
    have dry : middle.dryRun = true := previews'.resolve_left (by simp [applies.1])
    apply Peeks.get
    simp only [dry, Bool.not_true, Bool.false_eq_true, if_false]
    exact .pure
  · exact .pure

theorem refreshMemory_peeks {readable : Bool} {learntAt : LearntAt} (previews : syncer.Previews reading.apply) :
    Peeks (refreshMemory reading dev readable learntAt owned) syncer := by
  rw [refreshMemory]
  split
  · apply Peeks.bind (.modify rfl)
    intro _ middle told
    split
    · rename_i applies
      have dry : middle.dryRun = true := (previews.of_told told).resolve_left (by simp [applies])
      apply Peeks.get
      rw [if_pos (.inl dry)]
      exact .pure
    · exact .pure
  · exact .pure

theorem passUplink_peeks (previews : syncer.Previews reading.apply) :
    Peeks (passUplink reading pair link anat answer) syncer := by
  apply Peeks.bind loadPorts_peeks
  intro _ middle told
  apply Peeks.bind loadOwned_peeks
  intro owned middle told₁
  apply Peeks.bind noteIsReadable_peeks
  intro readable middle told₂
  apply Peeks.bind decideWanted_peeks
  intro decision middle told₃
  cases decision with
  | error errno => exact .pure
  | ok decision =>
      apply Peeks.get
      apply Peeks.bind reportReleased_peeks
      intro _ middle told₄
      have previews' := ((((previews.of_told told).of_told told₁).of_told told₂).of_told told₃).of_told told₄
      apply Peeks.bind (settleCard_peeks previews')
      intro settled middle told₅
      apply Peeks.bind (refreshMemory_peeks (previews'.of_told told₅))
      intro _ middle _
      exact .bind (.modify rfl) fun _ _ _ => .pure

theorem passPair_peeks (previews : syncer.Previews reading.apply) : Peeks (passPair reading pair answer) syncer := by
  rw [passPair]
  split
  · split
    · apply Peeks.bind (settleName_peeks previews)
      intro goes middle told
      split
      · exact passUplink_peeks (previews.of_told told)
      · exact .pure
    · exact .pure
  · exact .pure

theorem passPairs_peeks {pairs : List Pair} (previews : syncer.Previews reading.apply) :
    Peeks (passPairs reading pairs answer) syncer := by
  induction pairs generalizing answer syncer with
  | nil => exact .pure
  | cons pair rest ih =>
      apply Peeks.bind (passPair_peeks previews)
      intro turn middle told
      cases turn with
      | error errno => exact .pure
      | ok turn =>
          apply Peeks.bind (ih (previews.of_told told))
          intro reports middle _
          cases reports <;> exact .pure

end Turns

section Operations

theorem askDriver_peeks {pfs : List Index} : Peeks (askDriver pfs) syncer := by
  apply Peeks.get
  split
  · exact .pure
  · apply Peeks.bind (.ask rfl)
    intro fresh middle _
    cases fresh with
    | error errno => exact .pure
    | ok fresh => exact .bind (.modify rfl) fun _ _ _ => .pure

theorem stampPass_peeks : Peeks stampPass syncer := by
  apply Peeks.bind (.ask rfl)
  intro clock middle _
  exact .get (.bind (.modify rfl) fun _ _ _ => .pure)

theorem reconcile_peeks (previews : syncer.Previews apply) : Peeks (reconcile apply topo) syncer := by
  apply Peeks.get
  dsimp only
  split
  · exact .bind (dropOrphans_peeks previews) fun _ _ _ => .pure
  · apply Peeks.bind (.ask rfl)
    intro dump middle told
    cases dump with
    | error errno => exact .pure
    | ok fdb =>
        apply Peeks.bind askDriver_peeks
        intro answer middle told₁
        cases answer with
        | error errno => exact .pure
        | ok answer =>
            apply Peeks.bind stampPass_peeks
            intro passAt middle told₂
            have previews' := ((previews.of_told told).of_told told₁).of_told told₂
            apply Peeks.bind (dropOrphans_peeks previews')
            intro _ middle told₃
            exact passPairs_peeks (previews'.of_told told₃)

theorem fastApply_peeks {events : List Event} (dry : syncer.dryRun = true) : Peeks (fastApply topo events) syncer := by
  rw [fastApply]
  split
  · exact .pure
  · apply Peeks.get
    rw [if_pos dry]
    exact .pure

theorem flushNotes_peeks {devs : List Name} (dry : syncer.dryRun = true) : Peeks (flushNotes topo devs) syncer := by
  induction devs generalizing syncer with
  | nil => exact .pure
  | cons dev rest ih =>
      apply Peeks.get
      rw [if_pos dry]
      apply Peeks.bind (.bind loadOwned_peeks fun _ _ _ => noteIsReadable_peeks)
      intro clean middle told
      exact .bind (ih ((congrArg Settings.dryRun told).trans dry)) fun _ _ _ => .pure

theorem flush_peeks (dry : syncer.dryRun = true) : Peeks flush syncer := by
  apply Peeks.bind (.ask rfl)
  intro reading middle told
  cases reading with
  | error errno => exact .pure
  | ok topo =>
      apply Peeks.bind notedDevices_peeks
      intro listing middle told₁
      cases listing with
      | error errno => exact .pure
      | ok devs =>
          have dry' : middle.dryRun = true :=
            (congrArg Settings.dryRun told₁).trans ((congrArg Settings.dryRun told).trans dry)
          exact .bind (flushNotes_peeks dry') fun _ _ _ => .pure

end Operations

end SriovMacSync
