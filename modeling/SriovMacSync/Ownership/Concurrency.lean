import SriovMacSync.Ownership.Replay

namespace SriovMacSync

open Data Netlink Interaction Interaction.Action

/-! # Several processes on one uplink -/

variable {Process : Type} [DecidableEq Process] {dev : Name} {home : Index}

/-- The lines a pass is about to take off the note name nothing of ours on the
card. -/
def Section.mergesGone (ground : Ground Process) : Section → Prop
  | .merge before after => Disjoint (before \ after) ground.ours
  | _ => True

instance {ground : Ground Process} (work : Section) : Decidable (work.mergesGone ground) := by
  cases work <;> unfold Section.mergesGone <;> infer_instance

/-- Every write works, and no pass merges its note after another process put back
what the pass took out. -/
def mergesGone : Terms Process where
  admits ground work := work.mergesGone ground

omit [DecidableEq Process] in
theorem mergesGone_suits : (mergesGone : Terms Process).Suits .crowd where
  admits {ground work} admitted := by
    cases work with
    | merge before after => exact fun _ => admitted
    | shed pool => exact fun shared => absurd rfl shared
    | _ => exact trivial
  alone shared := absurd rfl shared
  tight := nofun
  shared := nofun

/-- No process leaves an entry that no note names. -/
theorem note_names_ours {start : Ground Process → Prop}
    (begins : ∀ ground, start ground → ground.Begins)
    {programs : Process → Program Call Reply Syncer} {ground : Ground Process}
    (reached : (uplinkSystem mergesGone dev home).Reachable start programs ground) :
    ground.ours ⊆ ground.note := by
  obtain ⟨sound, safe⟩ := uplink_reachable mergesGone_suits begins (fun shared => absurd rfl shared)
    (fun _ _ => nofun) reached
  cases held : ground.holder with
  | none => exact sound.free rfl held
  | some process =>
      have seen : ground.books .crowd process = some ground.ledger :=
        Ground.books_of_holder fun _ => held
      have inside := safe process
      rw [seen] at inside
      exact inside.now (fun _ permitted => permitted.2.1) fun _ rests => rests.1.2.1

set_option maxRecDepth 10000 in
theorem note_names_ours_passing : ∃ programs ground,
    (uplinkSystem (mergesGone : Terms Bool) "nic1" 2).Reachable (· = untouched) programs ground ∧
    guest ∈ ground.ours ∧ ground.ours ⊆ ground.note := by
  have reached : (uplinkSystem (mergesGone : Terms Bool) "nic1" 2).Reachable (· = untouched) _ _ :=
    Ground.reachable_advance true
      (Ground.answers_reply bridgedHost (fun ground work => work.mergesGone ground) nowhere
        bridgedTopology_keeps fun _ _ => of_decide_eq_true)
      (Ground.reachable_begin true (pass_operation bridgedSyncer) rfl (reachable_rest rfl untouched))
  refine ⟨_, _, reached, by decide +kernel, note_names_ours ?_ reached⟩
  rintro _ rfl
  exact untouched_begins

def registered : Ground Bool := { note := {guest}, card := {guest}, ours := {guest} }

def beforeMerging : Call → Bool
  | .lock _ (.merge _ _) => true
  | _ => false

set_option maxRecDepth 10000 in
/-- One pass takes the silent guest out and is held up before it merges; another puts
it back; the first one's merge takes the line off the note.

A line taken off in a later window than the card write orphans what another
process registered in between. -/
theorem late_merge_orphans : ∃ programs ground,
    (uplinkSystem ({} : Terms Bool) "nic1" 2).Reachable (· = registered) programs ground ∧
    registered.Begins ∧ guest ∈ ground.ours ∧ guest ∉ ground.note := by
  have first : (uplinkSystem ({} : Terms Bool) "nic1" 2).Reachable (· = registered) _ _ :=
    Ground.reachable_advance true
      (Ground.answers_reply quietHost everything beforeMerging bridgedTopology_keeps fun _ _ _ => True.intro)
      (Ground.reachable_begin true (pass_operation bridgedSyncer) rfl (reachable_rest rfl registered))
  have second := Ground.reachable_advance false
    (Ground.answers_reply bridgedHost everything nowhere bridgedTopology_keeps fun _ _ _ => True.intro)
    (Ground.reachable_begin false (pass_operation bridgedSyncer)
      ((Function.update_of_ne (by decide) _ _).trans (Function.update_of_ne (by decide) _ _)) first)
  have third := Ground.reachable_advance true
    (Ground.answers_reply quietHost everything nowhere bridgedTopology_keeps fun _ _ _ => True.intro)
    second
  exact ⟨_, _, third, ⟨by decide, by decide, rfl⟩, by decide +kernel⟩

end SriovMacSync
