import SriovMacSync.Growth.Additions

namespace SriovMacSync

open Data Netlink Interaction Interaction.Action

/-! Every addition of a pass is of an address the pass wants, by an answer the
driver gave during that pass. -/

/-- The driver was asked about these functions and answered. -/
def asked (pfs : List Index) (vfMacs : List (Index × Mac)) : Exchange Call Reply :=
  ⟨.vfMacsOf pfs, Except.ok vfMacs⟩

/-- An answer that was not carried over was given in this history. -/
def Answer.IsFrom (answer : Answer) (pfs : List Index) (past : History) : Prop :=
  answer.carried = false → asked pfs answer.vfMacs ∈ past

theorem Answer.IsFrom.later {answer : Answer} {pfs : List Index} {past later : History}
    (given : answer.IsFrom pfs past) (held : past <+: later) : answer.IsFrom pfs later :=
  fun fresh => held.subset (given fresh)

/-- A rule under which a pass may add what it wants. -/
def AddRule.CoversPass (rule : AddRule) (settings : Settings) (reading : Reading) : Prop :=
  ∀ pair ∈ settings.pairs, ∀ index bridge anat,
    reading.topo.indexOf pair.dev = some index → reading.topo.indexOf pair.bridge = some bridge →
    reading.topo.anatomy index bridge = some anat →
    ∀ (now : Syncer) (owned : Finset Mac) (vfMacs : List (Index × Mac)) (past : History) (mac : Mac),
      now.toSettings = settings → asked reading.pfs vfMacs ∈ past →
      mac ∈ (now.wantedWithKeeps reading.topo anat reading.fdb vfMacs owned).want →
      rule.allows past index mac

section

variable {rule : AddRule} {admits : Exchange Call Reply → Prop} {syncer : Syncer} {past : History}

/-- What a part of the program leaves alone, whatever it does to devices. -/
def Continues (settings : Settings) (past : History) (after : Syncer) (later : History) : Prop :=
  after.toSettings = settings ∧ past <+: later

theorem Continues.start : Continues syncer.toSettings past syncer past :=
  ⟨rfl, List.prefix_refl past⟩

theorem Continues.trans {settings : Settings} {start : History} {after : Syncer}
    {middle later : History} (held : start <+: middle)
    (further : Continues settings middle after later) : Continues settings start after later :=
  ⟨further.1, held.trans further.2⟩

theorem idle_permitted {request : Call} {later : History} (quiet : request.writes = none) :
    (rule.env admits).permits later request := by
  rintro _ _ rfl
  simp [Call.writes] at quiet

theorem continues_safe {α : Type} {action : Sync α}
    (within : Within (InScope Set.univ removals) action (fun _ after => DeviceMarks syncer after)
      syncer) :
    Safe (rule.env admits) action
      (fun _ after later => Continues syncer.toSettings past after later) syncer past :=
  (removing_safe within).mono fun _ _ _ holds => ⟨holds.1.settings, holds.2⟩

theorem ask_continues {request : Call} (quiet : request.writes = none)
    {post : Reply request → Syncer → History → Prop}
    (next : ∀ reply later, ⟨request, reply⟩ ∈ later → past <+: later → admits ⟨request, reply⟩ →
      post reply syncer later) :
    Safe (rule.env admits) (ask request) post syncer past := by
  refine safe_ask.mpr ⟨idle_permitted quiet, ?_⟩
  rintro reply _ ⟨admitted, rfl⟩
  exact next reply _ (by simp) (List.prefix_append _ _) admitted

theorem askDriver_safe {pfs : List Index} :
    Safe (rule.env admits) (askDriver pfs)
      (fun result after later => Continues syncer.toSettings past after later ∧
        ∀ answer, result = .ok answer → answer.IsFrom pfs later) syncer past := by
  refine safe_bind.mpr (safe_get.mpr ?_)
  split
  · refine ⟨.start, ?_⟩
    rintro answer ⟨⟩ fresh
    simp at fresh
  · refine safe_bind.mpr (ask_continues rfl ?_)
    intro reply later given held _
    cases reply with
    | error errno => exact ⟨⟨rfl, held⟩, by simp⟩
    | ok fresh =>
        refine ⟨⟨rfl, held⟩, ?_⟩
        rintro answer ⟨⟩ -
        exact given

theorem decideWanted_safe {reading : Reading} {dev : Name} {anat : Anatomy} {answer : Answer}
    {owned : Finset Mac} (given : answer.IsFrom reading.pfs past) :
    Safe (rule.env admits) (decideWanted reading dev anat answer owned)
      (fun result after later => Continues syncer.toSettings past after later ∧
        ∀ wanted answer', result = .ok (wanted, answer') → answer'.IsFrom reading.pfs later ∧
          ∃ vfMacs, wanted = syncer.wantedWithKeeps reading.topo anat reading.fdb vfMacs owned ∧
            (wanted.want ⊆ selfList reading.fdb anat.dev ∨ asked reading.pfs vfMacs ∈ later))
      syncer past := by
  refine safe_bind.mpr (safe_get.mpr ?_)
  dsimp only
  split
  · refine safe_bind.mpr (safe_modify.mpr (safe_bind.mpr (ask_continues rfl ?_)))
    intro reply later happened held _
    cases reply with
    | error errno => exact ⟨⟨rfl, held⟩, by simp⟩
    | ok fresh =>
        refine ⟨⟨rfl, held⟩, ?_⟩
        rintro wanted answer' ⟨⟩
        exact ⟨fun _ => happened, fresh, rfl, .inr happened⟩
  · rename_i settled
    refine ⟨.start, ?_⟩
    rintro wanted answer' ⟨⟩
    refine ⟨given, answer.vfMacs, rfl, ?_⟩
    cases carried : answer.carried with
    | true =>
        simp only [carried, true_and, not_or, not_not] at settled
        exact .inl settled.2
    | false => exact .inr (given carried)

theorem settleCard_safe {reading : Reading} {dev : Name} {index : Index}
    {want owned : Finset Mac}
    (allowed : ∀ mac ∈ want, mac ∉ selfList reading.fdb index → rule.allows past index mac) :
    Safe (rule.env admits) (settleCard reading dev index want owned)
      (fun _ after later => Continues syncer.toSettings past after later) syncer past := by
  have note {α : Type} {action : Sync α} {before : Syncer} {middle : History}
      (within : Within (InScope Set.univ removals) action (fun _ after => NoteMarks Set.univ before after)
        before) :
      Safe (rule.env admits) action
        (fun _ after later => Continues before.toSettings middle after later) before middle :=
    continues_safe (within.imp fun _ _ marks => marks.device)
  refine safe_bind.mpr (safe_get.mpr (safe_bind.mpr (ask_continues rfl ?_)))
  intro order later1 _ held1 _
  have recorded : Safe (rule.env admits) (recordOwner
      ((reading.apply && !syncer.dryRun) && !(decide (owned = ∅) &&
        (order.list.filter (· ∉ selfList reading.fdb index)).isEmpty)) dev index)
      (fun _ after later => Continues syncer.toSettings later1 after later) syncer later1 := by
    unfold recordOwner
    split
    · exact note (noteIndex_within (Set.mem_univ _) mem_removals)
    · exact .start
  refine safe_bind.mpr (recorded.mono ?_)
  rintro _ after2 later2 ⟨same2, held2⟩
  have registered : Safe (rule.env admits) (registerMissing (reading.apply && !syncer.dryRun) dev
      index (order.list.filter (· ∉ selfList reading.fdb index)))
      (fun _ after later => Continues after2.toSettings later2 after later) after2 later2 := by
    unfold registerMissing
    split
    · refine safe_bind.mpr ((registerBatchLocked_allowed ?_).mono ?_)
      · intro mac member
        obtain ⟨inOrder, absent⟩ := List.mem_filter.mp member
        exact rule.grows (held1.trans held2)
          (allowed mac ((order.mem_iff mac).mp inOrder) (by simpa using absent))
      · rintro result after later ⟨marks, held⟩
        have continues : Continues after2.toSettings later2 after later :=
          ⟨marks.device.settings, held⟩
        cases result <;> exact continues
    · exact .start
  refine safe_bind.mpr (registered.mono ?_)
  rintro put after3 later3 ⟨same3, held3⟩
  refine safe_bind.mpr (ask_continues rfl ?_)
  intro ownedOrder later4 _ held4 _
  have retired : Safe (rule.env admits) (retireStale (reading.apply && !syncer.dryRun) dev index
      (ownedOrder.list.filter (· ∉ want)))
      (fun _ after later => Continues after3.toSettings later4 after later) after3 later4 := by
    unfold retireStale
    split
    · refine safe_bind.mpr ((note (retire_within (Set.mem_univ _) mem_removals)).mono ?_)
      rintro retired after later continues
      refine safe_bind.mpr (safe_modify.mpr ?_)
      have same : (after.dropPorts dev (retired.failed.map (·.1))).toSettings = after.toSettings := by
        unfold Syncer.dropPorts
        split <;> rfl
      exact ⟨same.trans continues.1, continues.2⟩
    · exact .start
  refine safe_bind.mpr (retired.mono ?_)
  rintro retired after5 later5 ⟨same5, held5⟩
  have merged : Safe (rule.env admits) (mergeOwned reading.apply dev owned
      ((owned ∪ put.toFinset) \ retired.dropped.toFinset))
      (fun _ after later => Continues after5.toSettings later5 after later) after5 later5 := by
    unfold mergeOwned
    split
    · exact note (saveOwnedMerged_within (Set.mem_univ _))
    · exact .start
  refine safe_bind.mpr (merged.mono ?_)
  rintro _ after6 later6 ⟨same6, held6⟩
  exact ⟨same6.trans (same5.trans (same3.trans same2)),
    held1.trans (held2.trans (held3.trans (held4.trans (held5.trans held6))))⟩

theorem refreshMemory_safe {reading : Reading} {dev : Name} {readable : Bool}
    {learntAt : LearntAt} {owned : Finset Mac} :
    Safe (rule.env admits) (refreshMemory reading dev readable learntAt owned)
      (fun _ after later => Continues syncer.toSettings past after later) syncer past := by
  unfold refreshMemory
  split
  · refine safe_bind.mpr (safe_modify.mpr ?_)
    split
    · refine (removing_safe (savePorts_within (Set.mem_univ _))).mono ?_
      rintro _ _ later ⟨⟨_, rfl⟩, held⟩
      exact ⟨rfl, held⟩
    · exact ⟨rfl, List.prefix_refl past⟩
  · exact .start

/-- The step lemma of a pass: one uplink. -/
theorem passUplink_safe {reading : Reading} {pair : Pair} {link : Link} {anat : Anatomy}
    {answer : Answer} (given : answer.IsFrom reading.pfs past)
    (covered : ∀ (now : Syncer) (owned : Finset Mac) (vfMacs : List (Index × Mac))
      (later : History) (mac : Mac), now.toSettings = syncer.toSettings →
      asked reading.pfs vfMacs ∈ later →
      mac ∈ (now.wantedWithKeeps reading.topo anat reading.fdb vfMacs owned).want →
      rule.allows later anat.dev mac) :
    Safe (rule.env admits) (passUplink reading pair link anat answer)
      (fun result after later => Continues syncer.toSettings past after later ∧
        ∀ report answer', result = .ok (report, answer') → answer'.IsFrom reading.pfs later)
      syncer past := by
  refine safe_bind.mpr ((continues_safe
    ((loadPorts_within (Set.mem_univ _)).imp fun _ _ marks => marks.device)).mono ?_)
  rintro _ after1 later1 ⟨same1, held1⟩
  refine safe_bind.mpr ((continues_safe
    ((loadOwned_within (Set.mem_univ _)).imp fun _ _ marks => marks.device)).mono ?_)
  rintro owned after2 later2 ⟨same2, held2⟩
  refine safe_bind.mpr (safe_bind.mpr (safe_get.mpr (safe_pure.mpr ?_)))
  refine safe_bind.mpr ((decideWanted_safe (given.later (held1.trans held2))).mono ?_)
  rintro result after3 later3 ⟨⟨same3, held3⟩, decided⟩
  cases result with
  | error errno =>
      exact ⟨⟨same3.trans (same2.trans same1), held1.trans (held2.trans held3)⟩, by simp⟩
  | ok outcome =>
      obtain ⟨wanted, answer'⟩ := outcome
      obtain ⟨given', vfMacs, rfl, fresh⟩ := decided wanted answer' rfl
      refine safe_bind.mpr (safe_get.mpr ?_)
      dsimp only
      have told : Safe (rule.env admits) (reportReleased reading.apply pair.dev
          (after3.relieve reading pair.dev anat
            (after2.wantedWithKeeps reading.topo anat reading.fdb vfMacs owned) owned).shed)
          (fun _ after later => Continues after3.toSettings later3 after later) after3 later3 := by
        unfold reportReleased
        split
        · exact safe_bind.mpr (ask_continues rfl fun _ later _ held _ => ⟨rfl, held⟩)
        · exact .start
      refine safe_bind.mpr (told.mono ?_)
      rintro _ after4 later4 ⟨same4, held4⟩
      refine safe_bind.mpr ((settleCard_safe ?_).mono ?_)
      · intro mac member absent
        have wantedMac := (Finset.mem_sdiff.mp member).1
        rcases fresh with present | happened
        · exact absurd (present wantedMac) absent
        · exact covered after2 owned vfMacs later4 mac (same2.trans same1)
            (held4.subset happened) wantedMac
      · rintro settled after5 later5 ⟨same5, held5⟩
        refine safe_bind.mpr (refreshMemory_safe.mono ?_)
        rintro _ after6 later6 ⟨same6, held6⟩
        refine safe_bind.mpr (safe_modify.mpr ?_)
        refine ⟨⟨?_, ?_⟩, ?_⟩
        · exact same6.trans (same5.trans (same4.trans (same3.trans (same2.trans same1))))
        · exact held1.trans (held2.trans (held3.trans (held4.trans (held5.trans held6))))
        · rintro report answer'' ⟨⟩
          exact given'.later (held4.trans (held5.trans held6))

theorem settleName_safe {reading : Reading} {dev : Name} {index : Index} :
    Safe (rule.env admits) (settleName reading dev index)
      (fun _ after later => Continues syncer.toSettings past after later) syncer past := by
  refine continues_safe ((recordedIndex_within (Set.mem_univ _)).bind ?_)
  rintro recorded _ rfl
  split
  · exact within_pure.mpr (.refl _)
  · refine within_get ?_
    split
    · exact within_pure.mpr (.refl _)
    · refine (renamedTarget_within (Set.mem_univ _)).bind ?_
      rintro target _ rfl
      split
      · exact followRename_within
      · refine DeviceMarks.bind ((locked_within (Set.mem_univ _)
          (removeNote_within (Set.mem_univ _))).imp fun _ _ marks => marks.device) ?_
        intro _ middle
        exact Within.bind (within_modify (DeviceMarks.forgetUplink.trans .sawNote))
          fun _ _ marks => within_pure.mpr marks

theorem passPair_safe {reading : Reading} {pair : Pair} {answer : Answer}
    (member : pair ∈ syncer.pairs) (covers : rule.CoversPass syncer.toSettings reading)
    (given : answer.IsFrom reading.pfs past) :
    Safe (rule.env admits) (passPair reading pair answer)
      (fun result after later => Continues syncer.toSettings past after later ∧
        ∀ report answer', result = .ok (report, answer') → answer'.IsFrom reading.pfs later)
      syncer past := by
  have skip : Continues syncer.toSettings past syncer past ∧
      ∀ (report : Option Report) (answer' : Answer),
        (Except.ok (none, answer) : Except Errno (Option Report × Answer)) = .ok (report, answer') →
          answer'.IsFrom reading.pfs past := by
    refine ⟨.start, ?_⟩
    rintro report answer' ⟨⟩
    exact given
  unfold passPair
  split
  · rename_i link bridge found above
    obtain ⟨located, -, -⟩ := Topology.get_spec found
    split
    · rename_i anat below
      refine safe_bind.mpr (settleName_safe.mono ?_)
      rintro settled after later ⟨same, held⟩
      cases settled with
      | true =>
          refine (passUplink_safe (given.later held) ?_).mono ?_
          · intro now owned vfMacs later' mac settings happened wanted
            rw [Topology.anatomy_dev below]
            exact covers pair member link.index bridge anat located above below now owned vfMacs
              later' mac (settings.trans same) happened wanted
          · rintro result after' later' ⟨⟨same', held'⟩, next⟩
            exact ⟨⟨same'.trans same, held.trans held'⟩, next⟩
      | false =>
          refine ⟨⟨same, held⟩, ?_⟩
          rintro report answer' ⟨⟩
          exact given.later held
    · exact skip
  · exact skip

/-- The run lemma of a pass: all its pairs. -/
theorem passPairs_safe {reading : Reading} {pairs : List Pair} {answer : Answer}
    (members : ∀ pair ∈ pairs, pair ∈ syncer.pairs)
    (covers : rule.CoversPass syncer.toSettings reading)
    (given : answer.IsFrom reading.pfs past) :
    Safe (rule.env admits) (passPairs reading pairs answer)
      (fun _ after later => Continues syncer.toSettings past after later) syncer past := by
  induction pairs generalizing syncer past answer with
  | nil => exact .start
  | cons pair rest ih =>
      refine safe_bind.mpr ((passPair_safe (members pair (by simp)) covers given).mono ?_)
      rintro result after later ⟨⟨same, held⟩, next⟩
      cases result with
      | error errno => exact ⟨same, held⟩
      | ok outcome =>
          obtain ⟨report, answer'⟩ := outcome
          have members' : ∀ pair ∈ rest, pair ∈ after.pairs := by
            intro other inRest
            rw [show after.pairs = syncer.pairs from congrArg Settings.pairs same]
            exact members other (by simp [inRest])
          refine safe_bind.mpr ((ih members' (same ▸ covers) (next report answer' rfl)).mono ?_)
          rintro reports after' later' ⟨same', held'⟩
          have continues : Continues syncer.toSettings past after' later' :=
            ⟨same'.trans same, held.trans held'⟩
          cases reports <;> exact continues

/-- A pass adds only what the rule allows, for every state, reading and run. -/
theorem reconcile_safe {apply : Bool} {topo : Topology}
    (covers : ∀ fdb passAt, admits ⟨.dumpFdb, Except.ok fdb⟩ →
      rule.CoversPass syncer.toSettings
        { topo, apply, fdb, pfs := topo.livePfs (syncer.pairs.map (·.dev)), passAt }) :
    Safe (rule.env admits) (reconcile apply topo)
      (fun _ after later => Continues syncer.toSettings past after later) syncer past := by
  refine safe_bind.mpr (safe_get.mpr ?_)
  dsimp only
  split
  · refine safe_bind.mpr ((continues_safe dropOrphans_within).mono ?_)
    exact fun _ _ _ continues => continues
  · refine safe_bind.mpr (ask_continues rfl ?_)
    intro dump later1 _ held1 admitted
    cases dump with
    | error errno => exact ⟨rfl, held1⟩
    | ok fdb =>
        refine safe_bind.mpr (askDriver_safe.mono ?_)
        rintro result after2 later2 ⟨⟨same2, held2⟩, given⟩
        cases result with
        | error errno => exact ⟨same2, held1.trans held2⟩
        | ok answer =>
            refine safe_bind.mpr (safe_bind.mpr (ask_continues rfl ?_))
            intro clock later3 _ held3 _
            refine safe_bind.mpr (safe_get.mpr (safe_bind.mpr (safe_modify.mpr (safe_pure.mpr ?_))))
            refine safe_bind.mpr ((continues_safe dropOrphans_within).mono ?_)
            rintro _ after4 later4 ⟨same4, held4⟩
            have settings : after4.toSettings = syncer.toSettings := same4.trans same2
            refine (passPairs_safe ?_ ?_ ?_).mono ?_
            · intro pair member
              rw [show after4.pairs = syncer.pairs from congrArg Settings.pairs settings]
              exact member
            · rw [settings]
              exact covers fdb _ admitted
            · exact (given answer rfl).later (held3.trans held4)
            · rintro _ after5 later5 ⟨same5, held5⟩
              exact ⟨same5.trans settings,
                held1.trans (held2.trans (held3.trans (held4.trans held5)))⟩

end

end SriovMacSync
