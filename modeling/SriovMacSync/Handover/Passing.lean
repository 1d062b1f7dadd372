import SriovMacSync.Handover.Following
import SriovMacSync.Memory.Turn
import SriovMacSync.Sync.Reports

namespace SriovMacSync

open Data Netlink Interaction Interaction.Action

/-! # A pass over an uplink's file

Once the pass has gone over an uplink, the file matches its memory: it was written, or the
keys say that it need not be. -/

variable {legible sure : Name → Prop} {shelf shelf' : Shelf} {syncer after : Syncer} {dev : Name}
  {index : Index} {topo : Topology} {passAt : Nat} {reading : Reading} {reported reported' : Prop}
  {pair : Pair} {link : Link} {anat : Anatomy} {answer : Answer}

section Settling

/-- An uplink's memory lost addresses at most. -/
def Sheds (dev : Name) (before after : Syncer) : Prop :=
  (after.carriedPorts dev = none → before.carriedPorts dev = none) ∧ Stirs ∅ (before.portsOf dev) (after.portsOf dev)

namespace Sheds

theorem refl : Sheds dev syncer syncer := ⟨id, .refl⟩

theorem of_noteMarks {devs : Set Name} (marks : NoteMarks devs syncer after) : Sheds dev syncer after := by
  obtain ⟨_, _, _, same⟩ := marks
  subst same
  exact .refl

theorem dropPorts {macs : List Mac} : Sheds dev syncer (syncer.dropPorts dev macs) := by
  unfold Syncer.dropPorts
  split
  · rename_i ports known
    refine ⟨fun blank => ?_, ?_⟩
    · simp [Syncer.setPorts] at blank
    · simp only [Syncer.portsOf, known, Syncer.setPorts, Function.update_self, Option.getD_some]
      exact .retain
  · exact .refl

theorem bind {α β : Type} {first : Sync α} {rest : α → Sync β} {before : Syncer} {allowed : Call → Prop}
    (left : Within allowed first (fun _ after => Sheds dev before after) before)
    (right : ∀ value middle, Within allowed (rest value) (fun _ after => Sheds dev middle after) middle) :
    Within allowed (first >>= rest) (fun _ after => Sheds dev before after) before :=
  left.bind fun value middle one => (right value middle).imp fun _ _ two =>
    ⟨fun blank => one.1 (two.1 blank), one.2.trans two.2⟩

end Sheds

variable {want owned : Finset Mac}

theorem settleCard_sheds : Within (InScope Set.univ Set.univ) (settleCard reading dev index want owned)
    (fun _ after => Sheds dev syncer after) syncer := by
  have member : dev ∈ (Set.univ : Set Name) := Set.mem_univ dev
  apply within_get
  dsimp only
  apply within_ask_bind (inScope_idle rfl rfl)
  intro wantOrder
  apply Sheds.bind
  · rw [recordOwner]
    split
    · exact (noteIndex_within member (Set.mem_univ (index, true))).imp fun _ _ marks => .of_noteMarks marks
    · exact within_pure.mpr .refl
  intro _ middle
  apply Sheds.bind
  · rw [registerMissing]
    split
    · apply Sheds.bind ((registerBatchLocked_within member (Set.mem_univ _)).imp fun _ _ marks => .of_noteMarks marks)
      intro registered middle
      cases registered <;> exact within_pure.mpr .refl
    · exact within_pure.mpr .refl
  intro put middle
  apply within_ask_bind (inScope_idle rfl rfl)
  intro ownedOrder
  apply Sheds.bind
  · rw [retireStale]
    split
    · apply Sheds.bind ((retire_within member (Set.mem_univ _)).imp fun _ _ marks => .of_noteMarks marks)
      intro retired middle
      exact Sheds.bind (within_modify .dropPorts) fun _ middle => within_pure.mpr .refl
    · exact within_pure.mpr .refl
  intro retired middle
  apply Sheds.bind
  · rw [mergeOwned]
    split
    · exact (saveOwnedMerged_within member).imp fun _ _ marks => .of_noteMarks marks
    · exact within_pure.mpr .refl
  exact fun _ middle => within_pure.mpr .refl

theorem settleCard_rests : Safe (shelving legible sure) (settleCard reading dev index want owned)
    (fun _ after shelf' => Rests ∅ dev syncer shelf after shelf') syncer shelf := by
  apply ((settleCard_shelf Mac.zero).and (within_shelf settleCard_sheds)).mono
  intro _ after shelf' ⟨⟨tends, _⟩, sheds⟩
  refine ⟨tends.settings, fun ⟨unloaded, blank⟩ => ?_, ⟨tends.written, tends.ports⟩, sheds.2, tends.stuck, tends.away⟩
  exact ⟨fun loaded => unloaded (tends.loaded.mpr loaded), sheds.1 blank⟩

end Settling

section Refreshing

variable {learntAt : LearntAt} {ports : PortMap} {owned : Finset Mac} {mac : Mac} {spot : Index × Nat}

theorem noteSeen_stamped {other : Mac} {port : Index} {seen : Nat}
    (found : (noteSeen ports other (some port) seen).lookup mac = some spot) (silent : spot.2 < seen) :
    ports.lookup mac = some spot := by
  by_cases same : mac = other
  · subst same
    unfold noteSeen at found
    split at found
    · rw [AList.lookup_insert] at found
      obtain rfl := Option.some.inj found
      exact absurd silent (Nat.not_lt.mpr (Nat.le_max_right _ _))
    · rw [AList.lookup_insert] at found
      obtain rfl := Option.some.inj found
      exact absurd silent (Nat.lt_irrefl seen)
  · exact Stirs.noteSeen (Set.mem_singleton other) mac same spot found

/-- What is older than the pass was not seen by it. -/
theorem lookup_follow (found : (ports.follow learntAt passAt owned).lookup mac = some spot)
    (silent : spot.2 < passAt) : ports.lookup mac = some spot := by
  rw [PortMap.follow, lookup_retain] at found
  split at found
  · generalize learntAt.entries = rows at found
    induction rows generalizing ports with
    | nil => exact found
    | cons row rest ih => exact noteSeen_stamped (ih found) silent
  · cases found

theorem refreshMemory_advances (plain : reading.topo.Plain) (applies : reading.apply = true)
    (ready : Ready dev syncer shelf) :
    Safe (shelving legible sure) (refreshMemory reading dev true learntAt owned) (fun _ after shelf' =>
      Advances reported reported' reading.topo reading.passAt dev syncer shelf after shelf') syncer shelf := by
  rw [refreshMemory, if_pos rfl, if_pos applies]
  apply safe_bind.mpr (safe_modify.mpr ?_)
  set followed := PortMap.follow ((syncer.carriedPorts dev).getD ∅) learntAt reading.passAt owned with followed_def
  set middle := syncer.setPorts dev (some followed) with middle_def
  have carried : middle.carriedPorts dev = some followed := by simp [middle, Syncer.setPorts]
  have held : middle.portsOf dev = followed := by rw [Syncer.portsOf, carried, Option.getD_some]
  have heard : ¬ middle.Unread dev := by
    intro facts
    obtain ⟨_, blank⟩ := facts
    rw [carried] at blank
    cases blank
  have ready' : Ready dev middle shelf := ⟨ready.acts, ready.loose, ready.away, fun never => absurd never heard⟩
  apply (savePorts_writes ready').mono
  intro _ after shelf' facts
  obtain ⟨free, outcome⟩ := facts
  rcases outcome with ⟨spared, same, drawer⟩ | ⟨_, wrote, drawer⟩
  · subst same
    obtain ⟨memo, file⟩ := spared.resolve_left heard
    rw [held] at memo file
    refine ⟨⟨ready.acts, drawer ▸ ready.loose, free, fun never => absurd never heard⟩, .inl (if_neg heard), ?_⟩
    intro stirred origin stands
    have agrees (some : (shelf.drawer dev).ports.isSome) : ∃ ahead bound, Matches reading.topo followed reading.passAt
        ahead bound stirred origin (shelf.drawer dev).ports followed := by
      obtain ⟨topo, rows, passAt, ahead, bound, plain', same, agrees⟩ := stands.backed _ memo some
      exact ⟨ahead, bound, agrees.of_keys plain' plain same.symm fun mac spot => lookup_follow⟩
    refine .inl ⟨⟨rfl, by rw [drawer]⟩, fun keys written some => ?_, fun _ => by rw [memo]; rfl, fun _ => ?_⟩
    · rw [memo] at written
      obtain rfl := Option.some.inj written
      rw [drawer] at some ⊢
      obtain ⟨ahead, bound, agrees⟩ := agrees some
      exact ⟨reading.topo, followed, reading.passAt, ahead, bound, plain, rfl, held.symm ▸ agrees⟩
    · rw [drawer, held]
      cases text : (shelf.drawer dev).ports with
      | some text' => exact text ▸ agrees (by rw [text]; rfl)
      | none =>
          refine ⟨0, 0, .inl ⟨rfl, by simp [onFile, OneEach]⟩, fun mac index seen name found named => ?_⟩
          have listed : portsLine mac name index seen ∈ linesOf reading.topo followed :=
            mem_linesOf.mpr ⟨mac, index, seen, name, found, named, rfl⟩
          have some := file (List.ne_nil_of_mem listed)
          rw [text] at some
          cases some
  · subst wrote
    refine .of_written plain ⟨ready.acts, by rw [drawer]; exact ready.loose, free, fun never => absurd never heard⟩ heard
      (by simp [Syncer.setPortsWritten]; rfl) (by rw [drawer]; rfl)

end Refreshing

section Turns

/-- An uplink's own turn, in a pass that applies. -/
theorem passUplink_advances (plain : reading.topo.Plain) (applies : reading.apply = true)
    (ready : Ready pair.dev syncer shelf) :
    Safe (shelving legible sure) (passUplink reading pair link anat answer) (fun result after shelf' =>
      Advances reported (legible pair.dev ∧ ∃ turn, result = .ok turn) reading.topo reading.passAt pair.dev syncer
        shelf after shelf') syncer shelf := by
  apply safe_bind.mpr
  apply (loadPorts_advances plain ready).mono
  intro _ syncer₁ shelf₁ loads
  apply safe_bind.mpr
  apply loadOwned_shelf.mono
  intro owned syncer₂ shelf₂ ⟨same, marks, reads⟩
  subst same
  refine safe_bind.mpr (safe_bind.mpr (safe_get.mpr (safe_pure.mpr ?_)))
  apply safe_bind.mpr
  apply decideWanted_shelf.mono
  intro decision syncer₃ shelf₃ ⟨same, beside, _⟩
  subst same
  have looks : Rests ∅ pair.dev syncer₁ shelf₃ syncer₃ shelf₃ :=
    (Rests.of_noteMarks marks rfl rfl id).trans (.of_beside beside rfl id)
  have decided : Advances reported reported reading.topo reading.passAt pair.dev syncer shelf syncer₃ shelf₃ :=
    loads.trans (.of_rests looks loads.ready)
  cases decision with
  | error errno => exact decided.imp fun ⟨_, _, same⟩ => nomatch same
  | ok decision =>
      obtain ⟨wanted, answer'⟩ := decision
      apply safe_bind.mpr (safe_get.mpr ?_)
      apply safe_bind.mpr
      apply reportReleased_shelf.mono
      intro _ syncer₄ shelf₄ ⟨told, same⟩
      subst told same
      apply safe_bind.mpr
      apply settleCard_rests.mono
      intro settled syncer₅ shelf₅ settles
      have settled : Advances reported reported reading.topo reading.passAt pair.dev syncer shelf syncer₅ shelf₅ :=
        decided.trans (.of_rests settles decided.ready)
      apply safe_bind.mpr
      by_cases readable : pair.dev ∈ syncer₂.unreadable
      · have idle : ¬ legible pair.dev := fun certain =>
          absurd readable (reads.resolve_left fun failed => failed.2.2.2 certain).1
        rw [refreshMemory, if_neg (by simpa using readable)]
        refine safe_pure.mpr (safe_bind.mpr (safe_modify.mpr (safe_pure.mpr ?_)))
        exact (settled.trans (.of_rests .setCarried settled.ready)).imp fun told => absurd told.1 idle
      · rw [decide_eq_true readable]
        apply (refreshMemory_advances plain applies settled.ready).mono
        intro _ syncer₆ shelf₆ refreshes
        refine safe_bind.mpr (safe_modify.mpr (safe_pure.mpr ?_))
        exact (settled.trans refreshes).trans (.of_rests .setCarried refreshes.ready)

/-- A turn of a pass, whether an uplink's own or another's. -/
theorem passPair_advances (reported : Prop) (plain : reading.topo.Plain) (applies : reading.apply = true)
    (ready : Ready dev syncer shelf) :
    Safe (shelving legible sure) (passPair reading pair answer) (fun result after shelf' =>
      Advances (legible dev ∧ reported) (legible dev ∧ ∃ turn answer', result = .ok (turn, answer') ∧
        (reported ∨ ∃ report ∈ turn, report.dev = dev)) reading.topo reading.passAt dev syncer shelf after shelf')
      syncer shelf := by
  have silent (said : legible dev ∧ ∃ turn answer', (.ok (none, answer) : Except Errno (Option Report × Answer)) =
      .ok (turn, answer') ∧ (reported ∨ ∃ report ∈ turn, report.dev = dev)) : legible dev ∧ reported := by
    obtain ⟨certain, turn, answer', same, before | ⟨report, listed, _⟩⟩ := said
    · exact ⟨certain, before⟩
    · cases same
      cases listed
  rw [passPair]
  split
  · split
    · rename_i link bridge _ _ _ anat _
      apply safe_bind.mpr
      apply (settleName_advances plain ready).mono
      intro goes syncer₁ shelf₁ settles
      cases goes with
      | false => exact settles.imp fun told => ⟨silent told, fun _ => rfl⟩
      | true =>
          by_cases own : dev = pair.dev
          · subst own
            have settled : Advances (legible pair.dev ∧ reported) False reading.topo reading.passAt pair.dev syncer shelf
                syncer₁ shelf₁ := settles.imp False.elim
            apply (passUplink_advances plain applies settled.ready).mono
            intro result after shelf' turned
            apply (settled.trans turned).imp
            intro facts
            obtain ⟨certain, turn, answer', same, _⟩ := facts
            exact ⟨certain, _, same⟩
          · have settled : Advances (legible dev ∧ reported) (legible dev ∧ reported) reading.topo reading.passAt dev
                syncer shelf syncer₁ shelf₁ := settles.imp fun told => ⟨told, fun same => absurd same own⟩
            have others : Safe (shelving legible sure) (passUplink reading pair link anat answer)
                (fun _ after shelf' => Rests ∅ dev syncer₁ shelf₁ after shelf') syncer₁ shelf₁ :=
              rests_elsewhere (passUplink_beside own) (by simpa using own) settled.ready.away
            apply (others.and (within_shelf passUplink_reports)).mono
            intro result after shelf' facts
            obtain ⟨rests, _, names⟩ := facts
            apply (settled.trans (.of_rests rests settled.ready)).imp
            intro facts
            obtain ⟨certain, turn, answer', same, told⟩ := facts
            refine ⟨certain, told.resolve_right fun here => own ?_⟩
            obtain ⟨report, listed, about⟩ := here
            rw [Option.mem_def.mp listed] at same
            exact about.symm.trans (names report answer' same)
    · exact (Advances.refl ready).imp silent
  · exact (Advances.refl ready).imp silent

theorem passPairs_advances (reported : Prop) (plain : reading.topo.Plain) (applies : reading.apply = true)
    {pairs : List Pair} (ready : Ready dev syncer shelf) :
    Safe (shelving legible sure) (passPairs reading pairs answer) (fun result after shelf' =>
      Advances (legible dev ∧ reported) (legible dev ∧ ∃ reports, result = .ok reports ∧
        (reported ∨ ∃ report ∈ reports, report.dev = dev)) reading.topo reading.passAt dev syncer shelf after shelf')
      syncer shelf := by
  induction pairs generalizing answer syncer shelf reported with
  | nil =>
      apply (Advances.refl ready).imp
      intro ⟨certain, reports, same, told⟩
      cases same
      simpa using And.intro certain told
  | cons pair rest ih =>
      apply safe_bind.mpr
      apply (passPair_advances reported plain applies ready).mono
      intro result syncer₁ shelf₁ turned
      cases result with
      | error errno => exact turned.imp fun ⟨_, _, same, _⟩ => nomatch same
      | ok result =>
          obtain ⟨turn, answer'⟩ := result
          apply safe_bind.mpr
          have turned : Advances (legible dev ∧ reported) (legible dev ∧ (reported ∨ ∃ report ∈ turn, report.dev = dev))
              reading.topo reading.passAt dev syncer shelf syncer₁ shelf₁ :=
            turned.imp fun ⟨certain, told⟩ => ⟨certain, turn, answer', rfl, told⟩
          apply (ih (reported ∨ ∃ report ∈ turn, report.dev = dev) turned.ready).mono
          intro result after shelf' passes
          have passed := turned.trans passes
          cases result with
          | error errno => exact passed.imp fun ⟨_, _, same, _⟩ => nomatch same
          | ok reports =>
              refine passed.imp fun ⟨certain, all, same, told⟩ => ⟨certain, reports, rfl, ?_⟩
              cases same
              rcases told with before | ⟨report, listed, about⟩
              · exact .inl (.inl before)
              · rcases List.mem_append.mp listed with listed | listed
                · exact .inl (.inr ⟨report, Option.mem_toList.mp listed, about⟩)
                · exact .inr ⟨report, listed, about⟩

end Turns

end SriovMacSync
