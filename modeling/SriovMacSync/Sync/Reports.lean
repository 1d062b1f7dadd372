import SriovMacSync.Sync.Scope

namespace SriovMacSync

open Data Netlink Interaction Interaction.Action

/-! What every turn of a pass leaves of the pass stamp, and what it reports on. -/

variable {syncer : Syncer} {dev : Name} {index : Index} {reading : Reading} {pair : Pair} {link : Link}
  {anat : Anatomy} {answer : Answer}

def Stamped (before after : Syncer) : Prop := after.lastPassAt = before.lastPassAt

namespace Stamped

theorem refl : Stamped syncer syncer := rfl

theorem bind {α β : Type} {first : Sync α} {rest : α → Sync β} {post : β → Prop} {before : Syncer}
    (left : Within (fun _ => True) first (fun _ after => Stamped before after) before)
    (right : ∀ value middle, Within (fun _ => True) (rest value) (fun result after =>
      Stamped middle after ∧ post result) middle) :
    Within (fun _ => True) (first >>= rest) (fun result after => Stamped before after ∧ post result) before :=
  left.bind fun value middle one => (right value middle).imp fun _ _ ⟨two, holds⟩ => ⟨two.trans one, holds⟩

theorem seq {α β : Type} {first : Sync α} {rest : α → Sync β} {before : Syncer}
    (left : Within (fun _ => True) first (fun _ after => Stamped before after) before)
    (right : ∀ value middle, Within (fun _ => True) (rest value) (fun _ after => Stamped middle after) middle) :
    Within (fun _ => True) (first >>= rest) (fun _ after => Stamped before after) before :=
  left.bind fun value middle one => (right value middle).imp fun _ _ two => two.trans one

theorem of_device {α : Type} {action : Sync α} {devs : Set Name} {filters : Set (Index × Bool)}
    (within : Within (InScope devs filters) action (fun _ after => DeviceMarks syncer after) syncer) :
    Within (fun _ => True) action (fun _ after => Stamped syncer after) syncer := by
  apply within.mono fun _ _ => trivial
  intro _ after ⟨_, _, _, _, _, _, _, same⟩
  subst same
  exact .refl

theorem of_note {α : Type} {action : Sync α}
    (within : Within (InScope Set.univ Set.univ) action (fun _ after => NoteMarks Set.univ syncer after) syncer) :
    Within (fun _ => True) action (fun _ after => Stamped syncer after) syncer :=
  of_device (within.imp fun _ _ marks => marks.device)

end Stamped

theorem savePorts_stamped {topo : Topology} {passAt : Nat} :
    Within (fun _ => True) (savePorts dev topo passAt) (fun _ after => Stamped syncer after) syncer := by
  apply (savePorts_within (Set.mem_univ dev) : Within (InScope Set.univ Set.univ) _ _ _).mono fun _ _ => trivial
  intro _ after ⟨written, same⟩
  subst same
  exact .refl

theorem settleName_stamped :
    Within (fun _ => True) (settleName reading dev index) (fun _ after => Stamped syncer after) syncer := by
  apply Within.bind ((recordedIndex_within (Set.mem_univ dev) : Within (InScope Set.univ Set.univ) _ _ _).mono
    (fun _ _ => trivial) fun _ _ same => same)
  intro recorded after same
  subst same
  split
  · exact within_pure.mpr .refl
  · apply within_get
    split
    · exact within_pure.mpr .refl
    · apply Within.bind ((renamedTarget_within (Set.mem_univ dev) : Within (InScope Set.univ Set.univ) _ _ _).mono
        (fun _ _ => trivial) fun _ _ same => same)
      intro target after same
      subst same
      split
      · exact Stamped.of_device followRename_within
      · apply Stamped.seq (Stamped.of_note (locked_within (Set.mem_univ dev) (removeNote_within (Set.mem_univ dev))))
        intro _ middle
        apply Stamped.seq (within_modify (Stamped.refl : Stamped _ ((middle.forgetUplink dev).sawNote dev true)))
        exact fun _ middle => within_pure.mpr .refl

theorem decideWanted_stamped {owned : Finset Mac} :
    Within (fun _ => True) (decideWanted reading dev anat answer owned) (fun _ after => Stamped syncer after)
      syncer := by
  apply within_get
  dsimp only
  split
  · apply Stamped.seq (within_modify .refl)
    intro _ middle
    apply within_ask_bind trivial
    intro fresh
    cases fresh with
    | error errno => exact within_pure.mpr .refl
    | ok fresh =>
        apply Stamped.seq (within_modify .refl)
        exact fun _ middle => within_pure.mpr .refl
  · exact within_pure.mpr .refl

theorem settleCard_stamped {want owned : Finset Mac} :
    Within (fun _ => True) (settleCard reading dev index want owned) (fun _ after => Stamped syncer after) syncer := by
  apply within_get
  dsimp only
  apply within_ask_bind trivial
  intro wantOrder
  apply Stamped.seq
  · rw [recordOwner]
    split
    · exact Stamped.of_note (noteIndex_within (Set.mem_univ dev) (Set.mem_univ (index, true)))
    · exact within_pure.mpr .refl
  intro _ middle
  apply Stamped.seq
  · rw [registerMissing]
    split
    · apply Stamped.seq (Stamped.of_note (registerBatchLocked_within (Set.mem_univ dev) (Set.mem_univ _)))
      intro registered middle
      cases registered <;> exact within_pure.mpr .refl
    · exact within_pure.mpr .refl
  intro put middle
  apply within_ask_bind trivial
  intro ownedOrder
  apply Stamped.seq
  · rw [retireStale]
    split
    · apply Stamped.seq (Stamped.of_note (retire_within (Set.mem_univ dev) (Set.mem_univ _)))
      intro retired middle
      have dropped {macs : List Mac} : Stamped middle (middle.dropPorts dev macs) := by
        unfold Syncer.dropPorts
        split <;> exact .refl
      exact Stamped.seq (within_modify dropped) fun _ middle => within_pure.mpr .refl
    · exact within_pure.mpr .refl
  intro retired middle
  apply Stamped.seq
  · rw [mergeOwned]
    split
    · exact Stamped.of_note (saveOwnedMerged_within (Set.mem_univ dev))
    · exact within_pure.mpr .refl
  exact fun _ middle => within_pure.mpr .refl

/-- A turn reports on its own uplink. -/
theorem passUplink_reports : Within (fun _ => True) (passUplink reading pair link anat answer) (fun result after =>
    Stamped syncer after ∧ ∀ report answer', result = .ok (some report, answer') → report.dev = pair.dev) syncer := by
  apply Stamped.bind (Stamped.of_device ((loadPorts_within (Set.mem_univ pair.dev) :
    Within (InScope Set.univ Set.univ) _ _ _).imp fun _ _ marks => marks.device))
  intro _ middle
  apply Stamped.bind (Stamped.of_note (loadOwned_within (Set.mem_univ pair.dev)))
  intro owned middle
  apply Stamped.bind (Stamped.of_note noteIsReadable_within)
  intro readable middle
  apply Stamped.bind decideWanted_stamped
  intro decision middle
  cases decision with
  | error errno => exact within_pure.mpr ⟨.refl, nofun⟩
  | ok decision =>
      apply within_get
      apply Stamped.bind
      · rw [reportReleased]
        split
        · exact Stamped.seq (within_ask.mpr ⟨trivial, fun _ => .refl⟩) fun _ middle => within_pure.mpr .refl
        · exact within_pure.mpr .refl
      intro _ middle
      apply Stamped.bind settleCard_stamped
      intro settled middle
      apply Stamped.bind
      · rw [refreshMemory]
        split
        · apply Stamped.seq (within_modify .refl)
          intro _ middle
          split
          · exact savePorts_stamped
          · exact within_pure.mpr .refl
        · exact within_pure.mpr .refl
      intro _ middle
      apply Stamped.bind (within_modify .refl)
      intro _ middle
      refine within_pure.mpr ⟨.refl, fun report answer' same => ?_⟩
      cases same
      rfl

theorem passPair_reports : Within (fun _ => True) (passPair reading pair answer) (fun result after =>
    Stamped syncer after ∧ ∀ report answer', result = .ok (some report, answer') → report.dev = pair.dev) syncer := by
  rw [passPair]
  split
  · split
    · apply Stamped.bind settleName_stamped
      intro goes middle
      split
      · exact passUplink_reports
      · exact within_pure.mpr ⟨.refl, nofun⟩
    · exact within_pure.mpr ⟨.refl, nofun⟩
  · exact within_pure.mpr ⟨.refl, nofun⟩

/-- A pass reports on its own pairs. -/
theorem passPairs_reports {pairs : List Pair} :
    Within (fun _ => True) (passPairs reading pairs answer) (fun result after => Stamped syncer after ∧
      ∀ reports, result = .ok reports → ∀ report ∈ reports, report.dev ∈ pairs.map (·.dev)) syncer := by
  induction pairs generalizing answer syncer with
  | nil =>
      refine within_pure.mpr ⟨.refl, fun reports same => ?_⟩
      cases same
      exact nofun
  | cons pair rest ih =>
      apply passPair_reports.bind
      intro turn middle ⟨stamped, named⟩
      cases turn with
      | error errno => exact within_pure.mpr ⟨stamped, nofun⟩
      | ok turn =>
          obtain ⟨report, answer'⟩ := turn
          apply ih.bind
          intro result after ⟨stamped', others⟩
          cases result with
          | error errno => exact within_pure.mpr ⟨stamped'.trans stamped, nofun⟩
          | ok later =>
              refine within_pure.mpr ⟨stamped'.trans stamped, fun reports same => ?_⟩
              cases same
              intro listed member
              rw [List.map_cons, List.mem_cons]
              rcases List.mem_append.mp member with first | member
              · exact .inl (named listed answer' (by rw [Option.mem_toList.mp first]))
              · exact .inr (others later rfl listed member)

end SriovMacSync
