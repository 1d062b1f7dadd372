import SriovMacSync.Interaction.Execution
import SriovMacSync.Sync.Scope

namespace SriovMacSync

open Data Netlink Interaction Interaction.Action

/-! Where additions to a filter come from.  A condition on additions that only
gets easier as more is asked and answered has to be shown in one place, where a
batch of addresses is handed over for registration. -/

abbrev History := List (Exchange Call Reply)

/-- A condition on adding an address to a filter, in terms of the exchanges so
far. -/
structure AddRule where
  allows : History → Index → Mac → Prop
  grows : ∀ {past later : History} {index mac}, past <+: later →
    allows past index mac → allows later index mac

/-- The recorded surroundings in which every addition has to meet a rule. -/
def AddRule.env (rule : AddRule) (admits : Exchange Call Reply → Prop) :
    Environment Call Reply History :=
  .recording admits fun past request =>
    ∀ index mac, request = .setSelfFdb index mac true → rule.allows past index mac

section

variable {rule : AddRule} {admits : Exchange Call Reply → Prop} {syncer : Syncer} {past : History}

theorem AddRule.answers_prefix {request : Call} {reply : Reply request} {later after : History}
    (answered : (rule.env admits).answers later request reply after) (held : past <+: later) :
    past <+: after := by
  obtain ⟨-, rfl⟩ := answered
  exact held.trans (List.prefix_append _ _)

/-- A part of the program that only takes out, or writes no filter, adds nothing
and forgets nothing. -/
theorem removing_safe {α : Type} {action : Sync α} {post : α → Syncer → Prop}
    (within : Within (InScope Set.univ removals) action post syncer) :
    Safe (rule.env admits) action (fun value after later => post value after ∧ past <+: later)
      syncer past := by
  refine Within.frame within ?_ (List.prefix_refl past : past <+: past)
  intro later request held scope
  refine ⟨?_, fun _ _ answered => rule.answers_prefix answered held⟩
  rintro index mac rfl
  exact absurd (scope.2.1 _ rfl) (by simp [removals])

theorem setEach_allowed {index : Index} {macs : List Mac}
    (allowed : ∀ mac ∈ macs, rule.allows past index mac) :
    Safe (rule.env admits) (setEach index true macs)
      (fun _ after later => after = syncer ∧ past <+: later) syncer past := by
  induction macs generalizing past with
  | nil => exact ⟨rfl, List.prefix_refl past⟩
  | cons mac rest ih =>
      refine safe_bind.mpr (safe_ask.mpr ⟨?_, fun reply later answered => safe_bind.mpr ?_⟩)
      · rintro _ _ ⟨⟩
        exact allowed mac (by simp)
      · have held := rule.answers_prefix answered (List.prefix_refl past)
        refine (ih fun other member =>
          rule.grows held (allowed other (List.mem_cons_of_mem _ member))).mono ?_
        rintro answers _ after ⟨rfl, further⟩
        exact ⟨rfl, held.trans further⟩

theorem registerBatchLocked_allowed {dev : Name} {index : Index} {macs : List Mac}
    (allowed : ∀ mac ∈ macs, rule.allows past index mac) :
    Safe (rule.env admits) (registerBatchLocked dev index macs)
      (fun _ after later => NoteMarks Set.univ syncer after ∧ past <+: later) syncer past := by
  have idle {request : Call} {later : History} (quiet : request.writes = none) :
      (rule.env admits).permits later request := by
    rintro _ _ rfl
    simp [Call.writes] at quiet
  refine safe_bind.mpr (safe_ask.mpr ⟨idle rfl, fun _ locked answered => safe_bind.mpr ?_⟩)
  have start := rule.answers_prefix answered (List.prefix_refl past)
  suffices Safe (rule.env admits) _
      (fun _ after later => NoteMarks Set.univ syncer after ∧ past <+: later) syncer locked from
    this.mono fun registered after later holds => safe_bind.mpr (safe_ask.mpr ⟨idle rfl,
      fun _ _ answered => ⟨holds.1, rule.answers_prefix answered holds.2⟩⟩)
  refine safe_bind.mpr ((removing_safe (appendOwnedLocked_within (Set.mem_univ _))).mono ?_)
  rintro appended after later ⟨marks, further⟩
  cases appended with
  | none => exact ⟨marks, start.trans further⟩
  | some fresh =>
      refine safe_bind.mpr ((setEach_allowed fun mac member =>
        rule.grows (start.trans further) (allowed mac member)).mono ?_)
      rintro answers _ later' ⟨rfl, further'⟩
      dsimp only
      split
      · refine safe_bind.mpr ((removing_safe (unnoteLocked_within (Set.mem_univ _))).mono ?_)
        rintro _ after'' later'' ⟨marks'', further''⟩
        exact ⟨marks.trans marks'', ((start.trans further).trans further').trans further''⟩
      · exact ⟨marks, (start.trans further).trans further'⟩

/-- A history that remembers its start. -/
theorem Safe.after_prefix {α : Type} {action : Sync α} {start : History}
    {post : α → Syncer → History → Prop} (held : start <+: past)
    (safe : Safe (rule.env admits) action
      (fun value after later => post value after later ∧ past <+: later) syncer past) :
    Safe (rule.env admits) action
      (fun value after later => post value after later ∧ start <+: later) syncer past :=
  safe.mono fun _ _ _ holds => ⟨holds.1, held.trans holds.2⟩

end

end SriovMacSync
