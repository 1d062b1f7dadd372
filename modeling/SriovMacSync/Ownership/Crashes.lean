import SriovMacSync.Ownership.Replay

namespace SriovMacSync

open Data Netlink Interaction Interaction.Action

/-! # One process at a time, with failures and crashes -/

variable {dev : Name} {home : Index}

/-- The quiet pool a batch works from is still on the note. -/
def Section.shedsNoted {Process : Type} (ground : Ground Process) : Section → Prop
  | .shed pool => pool ⊆ ground.note
  | _ => True

instance {Process : Type} {ground : Ground Process} (work : Section) :
    Decidable (work.shedsNoted ground) :=
  match work with
  | .shed pool => inferInstanceAs (Decidable (pool ⊆ ground.note))
  | .register | .retire _ | .merge .. | .ports | .migrate .. | .sweep | .reused | .flush | .probe =>
      .isTrue trivial

/-- Any write may fail, any filter write may be refused whether or not it took
effect, and the process may be cut short at any point. -/
def mishaps : Terms Unit where
  writesFail := True
  readsFail := True
  refuses _ _ := True
  mortal := True

def shedsNoted : Terms Unit := { mishaps with admits := fun ground work => work.shedsNoted ground }

theorem shedsNoted_suits : shedsNoted.Suits .alone where
  admits {ground work} admitted := by
    cases work with
    | merge before after => exact nofun
    | shed pool => exact fun _ => admitted
    | _ => exact trivial
  alone _ := inferInstanceAs (Subsingleton Unit)
  tight := nofun
  shared := False.elim

/-- Through every failure and crash the note names what was put on the card, and
only noted addresses are taken out. -/
theorem ours_noted_and_removals_noted {start : Ground Unit → Prop}
    (begins : ∀ ground, start ground → ground.Begins)
    {programs : Unit → Program Call Reply Syncer} {ground : Ground Unit}
    (reached : (uplinkSystem shedsNoted dev home).Reachable start programs ground) :
    ground.ours ⊆ ground.note ∧
      ∀ mac, (programs ()).asks = some (.setSelfFdb home mac false) → mac ∈ ground.note := by
  obtain ⟨sound, safe⟩ := uplink_reachable shedsNoted_suits begins
    (fun _ ground begun => ⟨(begins ground begun).noted, nofun⟩) (fun _ _ => nofun) reached
  have seen : ground.books .alone () = some ground.ledger := Ground.books_of_holder nofun
  have inside := safe ()
  rw [seen] at inside
  refine ⟨inside.now (fun _ permitted => permitted.2.1) fun _ rests => rests.1.2.1, ?_⟩
  intro mac asks
  obtain ⟨next, same⟩ := Program.of_asks asks
  rw [same] at inside
  exact (inside.1.2.2 rfl).1 nofun

set_option maxRecDepth 10000 in
theorem ours_noted_and_removals_noted_bridged : ∃ programs ground,
    (uplinkSystem shedsNoted "nic1" 2).Reachable (· = untouched) programs ground ∧
    guest ∈ ground.ours ∧ ground.ours ⊆ ground.note := by
  have reached : (uplinkSystem shedsNoted "nic1" 2).Reachable (· = untouched) _ _ :=
    Ground.reachable_operate (.done bridgedSyncer, untouched) pass_operation
      (Ground.answers_reply bridgedHost (fun ground work => work.shedsNoted ground) nowhere
        bridgedTopology_keeps fun _ _ => of_decide_eq_true) (reachable_rest rfl untouched)
  have begins (ground : Ground Unit) (same : ground = untouched) : ground.Begins :=
    same ▸ untouched_begins
  exact ⟨_, _, reached, by decide +kernel, (ours_noted_and_removals_noted begins reached).1⟩

/-- A daemon on the bridged uplink with room for two addresses. -/
def cramped : Syncer := { bridgedSyncer with maxMacs := 2 }

/-- Two more guests speak up. -/
def burst (syncer : Syncer) : Program Call Reply Syncer :=
  (fastApply bridgedTopology [(.newNeigh, { guestLearnt with mac := ⟨2, 0, 0, 0, 0, 3⟩ }),
    (.newNeigh, { guestLearnt with mac := ⟨2, 0, 0, 0, 0, 4⟩ })]).leaving syncer

theorem burst_operation (syncer : Syncer) : Operation "nic1" 2 syncer (burst syncer) :=
  .batch _ _ bridgedTopology_keeps

set_option maxRecDepth 10000 in
/-- A pass registers the guest, the next keeps it quiet, a flush settles its note,
and the burst that follows finds the card too small: it removes what no note
names. -/
theorem shed_removes_unnoted : ∃ programs ground,
    (uplinkSystem mishaps "nic1" 2).Reachable (· = untouched) programs ground ∧
    (programs ()).asks = some (.setSelfFdb 2 guest false) ∧ guest ∉ ground.note := by
  have answers (scene : Host) (stops : Call → Bool) (keeps : scene.topo.Keeps "nic1" 2) :=
    @Ground.answers_reply Unit _ mishaps "nic1" 2 () scene everything stops keeps
      fun _ _ _ => True.intro
  have first : (uplinkSystem mishaps "nic1" 2).Reachable (· = untouched) _ _ :=
    Ground.reachable_operate (.done cramped, untouched) pass_operation
      (answers bridgedHost nowhere bridgedTopology_keeps) (reachable_rest rfl untouched)
  have second := Ground.reachable_operate _ pass_operation
    (answers quietHost nowhere bridgedTopology_keeps) first
  have third := Ground.reachable_operate _ (fun _ => .flush)
    (answers quietHost nowhere bridgedTopology_keeps) second
  have last := Ground.reachable_operate _ burst_operation
    (answers quietHost beforeRemoving bridgedTopology_keeps)
    third
  exact ⟨_, _, last, by decide +kernel, by decide +kernel⟩

end SriovMacSync
