import SriovMacSync.Custody.Ledger

namespace SriovMacSync

open Data Netlink Interaction Interaction.Action

/-! What each locked piece of work does to the books of the uplink it is about. -/

variable {regime : Regime} {dev : Name} {home : Index} {syncer : Syncer} {ledger : Ledger}

/-- A piece of work done while the note is held. -/
def Keeping (regime : Regime) (dev : Name) (home : Index) {α : Type} (action : Sync α)
    (post : α → Syncer → Ledger → Prop) (syncer : Syncer) (ledger : Ledger) : Prop :=
  Safe (bookkeeping regime dev home) action
    (fun value after books => ∃ ledger', books = some ledger' ∧ after.Recalls dev home ∧
      post value after ledger') syncer (some ledger)

namespace Keeping

theorem mono {α : Type} {action : Sync α} {post weaker : α → Syncer → Ledger → Prop}
    (keeping : Keeping regime dev home action post syncer ledger)
    (implies : ∀ value after ledger', after.Recalls dev home → post value after ledger' →
      weaker value after ledger') :
    Keeping regime dev home action weaker syncer ledger :=
  Safe.mono keeping fun value after _ ⟨ledger', same, recalls, holds⟩ =>
    ⟨ledger', same, recalls, implies value after ledger' recalls holds⟩

theorem bind {α β : Type} {action : Sync α} {rest : α → Sync β}
    {middle : α → Syncer → Ledger → Prop} {post : β → Syncer → Ledger → Prop}
    (first : Keeping regime dev home action middle syncer ledger)
    (second : ∀ value after ledger', after.Recalls dev home → middle value after ledger' →
      Keeping regime dev home (rest value) post after ledger') :
    Keeping regime dev home (action >>= rest) post syncer ledger := by
  refine safe_bind.mpr (Safe.mono first ?_)
  rintro value after _ ⟨ledger', rfl, recalls, holds⟩
  exact second value after ledger' recalls holds

theorem pure {α : Type} {value : α} {post : α → Syncer → Ledger → Prop}
    (recalls : syncer.Recalls dev home) (holds : post value syncer ledger) :
    Keeping regime dev home (Pure.pure value) post syncer ledger :=
  ⟨ledger, rfl, recalls, holds⟩

theorem get {α : Type} {rest : Syncer → Sync α} {post : α → Syncer → Ledger → Prop}
    (keeping : Keeping regime dev home (rest syncer) post syncer ledger) :
    Keeping regime dev home (MonadStateOf.get >>= rest) post syncer ledger := keeping

end Keeping

/-- What a look at the note told. -/
def Ledger.ReadAs (ledger : Ledger) (regime : Regime) (dev : Name) (owned : Finset Mac)
    (after : Syncer) : Prop :=
  dev ∉ after.unreadable ∧ owned = ledger.note ∨
    regime ≠ .tight ∧ dev ∈ after.unreadable ∧ owned = ∅

theorem readAs_of_shows {reading : NoteReading} (shows : regime.Shows reading ledger.note)
    {after : Syncer} (unreadable : after.unreadable =
      (syncer.sawNote dev reading.isReadable).unreadable) :
    ledger.ReadAs regime dev reading.owned after := by
  rcases shows with ⟨readable, owned⟩ | ⟨loose, rfl⟩
  · refine .inl ⟨?_, owned⟩
    have seen : reading.isReadable = true := by
      cases reading <;> first | rfl | exact absurd rfl readable
    simp [unreadable, Syncer.sawNote, seen]
  · refine .inr ⟨loose, ?_, rfl⟩
    simp [unreadable, Syncer.sawNote, NoteReading.isReadable]

theorem readOwned_keeps (sound : ledger.Sound) (recalls : syncer.Recalls dev home) :
    Keeping regime dev home (readOwned dev)
      (fun owned after ledger' => ledger' = ledger ∧ ledger.ReadAs regime dev owned after)
      syncer ledger := by
  refine safe_bind.mpr (safe_ask.mpr ⟨⟨trivial, sound, trivial⟩, ?_⟩)
  rintro reading _ ⟨-, _, rfl, rfl, shows⟩
  exact ⟨_, rfl, recalls, rfl, readAs_of_shows (shows rfl) rfl⟩

theorem loadOwned_keeps (sound : ledger.Sound) (recalls : syncer.Recalls dev home) :
    Keeping regime dev home (loadOwned dev)
      (fun owned after ledger' => ledger' = ledger ∧ ledger.ReadAs regime dev owned after)
      syncer ledger := by
  refine safe_bind.mpr (safe_ask.mpr ⟨⟨trivial, sound, trivial⟩, ?_⟩)
  rintro reading _ ⟨-, _, rfl, rfl, shows⟩
  refine safe_bind.mpr (safe_modify.mpr ?_)
  dsimp only
  split
  · exact ⟨_, rfl, recalls, rfl, readAs_of_shows (shows rfl) rfl⟩
  · exact ⟨_, rfl, .inl (by simp [Syncer.setIndex]), rfl, readAs_of_shows (shows rfl) rfl⟩

theorem noteIsReadable_keeps (recalls : syncer.Recalls dev home) :
    Keeping regime dev home (noteIsReadable dev)
      (fun readable after ledger' => after = syncer ∧ ledger' = ledger ∧
        (readable = true ↔ dev ∉ syncer.unreadable)) syncer ledger :=
  ⟨ledger, rfl, recalls, rfl, rfl, by simp⟩

/-- The note is the old one or the wanted one, and under good conditions the
wanted one. -/
theorem writeOwned_keeps {set : Finset Mac} (sound : ledger.Sound)
    (recalls : syncer.Recalls dev home) :
    Keeping regime dev home (writeOwned dev set)
      (fun _ _ ledger' => ∃ note, ledger' = ledger.rewrite note ∧
        (note = ledger.note ∨ note = set ∧ dev ∉ syncer.unreadable) ∧
        (regime = .tight → dev ∉ syncer.unreadable → note = set)) syncer ledger := by
  refine (noteIsReadable_keeps recalls).bind ?_
  rintro readable _ ledger recalls ⟨rfl, rfl, readable⟩
  split
  · refine (loadOwned_keeps sound recalls).bind ?_
    rintro owned after' ledger recalls ⟨rfl, read⟩
    split
    · rename_i same
      refine .pure recalls ⟨ledger.note, rfl, .inl rfl, fun tight _ => ?_⟩
      rcases read with ⟨-, owned⟩ | ⟨loose, -⟩
      · exact owned.symm.trans same
      · exact absurd tight loose
    · refine safe_ask.mpr ⟨⟨trivial, sound, trivial⟩, ?_⟩
      rintro done _ ⟨-, _, rfl, becomes⟩
      simp only [Ledger.Becomes, if_true] at becomes
      obtain ⟨note, rfl, written, -⟩ := becomes
      rw [ascending_toFinset] at written
      refine ⟨_, rfl, recalls, note, rfl, ?_, fun tight _ => ?_⟩
      · exact written.elim (fun done => .inr ⟨done, readable.mp ‹_›⟩) fun refused => .inl refused.2.2
      · exact written.resolve_right fun refused => refused.1 tight
  · rename_i unreadable
    refine .pure recalls ⟨ledger.note, rfl, .inl rfl, fun _ now => ?_⟩
    exact absurd (readable.mpr now) unreadable

theorem removeNote_keeps (sound : ledger.Sound) (empty : ledger.ours = ∅) :
    Keeping regime dev home (removeNote dev)
      (fun _ _ ledger' => ∃ note, ledger' = ledger.rewrite note ∧
        (regime = .tight → note = ∅)) syncer ledger := by
  refine safe_bind.mpr (safe_ask.mpr ⟨⟨trivial, sound, trivial⟩, ?_⟩)
  rintro _ _ ⟨-, _, rfl, becomes⟩
  simp only [Ledger.Becomes, if_true] at becomes
  obtain ⟨note, rfl, unlinked⟩ := becomes
  have sound : (ledger.rewrite note).Sound := by
    simp [Ledger.Sound, Ledger.rewrite, empty]
  refine safe_bind.mpr (safe_ask.mpr ⟨⟨trivial, sound, trivial⟩, ?_⟩)
  rintro _ _ ⟨-, _, rfl, rfl⟩
  refine safe_bind.mpr (safe_ask.mpr ⟨⟨trivial, sound, trivial⟩, ?_⟩)
  rintro _ _ ⟨-, _, rfl, rfl⟩
  refine safe_modify.mpr ⟨_, rfl, .inl (by simp [Syncer.setIndex]), note, rfl, fun tight => ?_⟩
  exact unlinked.resolve_right fun left => left.1 tight

/-- What an append did: either the note would not take the addresses, or it now
names them. -/
theorem appendOwnedLocked_keeps {added : List Mac} (sound : ledger.Sound)
    (recalls : syncer.Recalls dev home) :
    Keeping regime dev home (appendOwnedLocked dev added)
      (fun result after ledger' => match result with
        | none => regime ≠ .tight ∧
            ∃ note, ledger' = ledger.rewrite note ∧ ledger.note ⊆ note
        | some fresh => fresh = added.filter (· ∉ ledger.note) ∧
            dev ∉ after.unreadable ∧
            ledger' = ledger.rewrite (ledger.note ∪ added.toFinset))
      syncer ledger := by
  refine (loadOwned_keeps sound recalls).bind ?_
  rintro set after ledger recalls ⟨rfl, read⟩
  refine (noteIsReadable_keeps recalls).bind ?_
  rintro readable _ ledger recalls ⟨rfl, rfl, readable⟩
  split
  · rename_i isReadable
    have now := readable.mp isReadable
    obtain rfl : set = ledger.note := read.elim (·.2) fun lost => absurd lost.2.1 now
    have whole : ledger.note ∪ (added.filter (· ∉ ledger.note)).toFinset =
        ledger.note ∪ added.toFinset := by
      ext mac
      by_cases member : mac ∈ ledger.note <;> simp [member]
    dsimp only
    split
    · rename_i nothing
      refine .pure recalls ⟨rfl, now, ?_⟩
      rw [nothing] at whole
      rw [← whole, List.toFinset_nil, Finset.union_empty]
      rfl
    · refine safe_bind.mpr (safe_ask.mpr ⟨⟨trivial, sound, trivial⟩, ?_⟩)
      rintro done _ ⟨-, _, rfl, becomes⟩
      simp only [Ledger.Becomes, if_true, whole] at becomes
      obtain ⟨note, rfl, written, always⟩ := becomes
      cases done with
      | true =>
          obtain rfl := written.resolve_right (by simp)
          exact ⟨_, rfl, recalls, rfl, now, rfl⟩
      | false =>
          refine ⟨_, rfl, recalls, fun tight => by simpa using always tight, note, rfl, ?_⟩
          rcases written with rfl | ⟨-, -, rfl⟩
          · exact Finset.subset_union_left
          · exact Finset.Subset.refl _
  · rename_i unreadable
    have lost := read.resolve_left fun kept => unreadable (readable.mpr kept.1)
    exact .pure recalls ⟨lost.1, ledger.note, rfl, Finset.Subset.refl _⟩

/-- Taking lines back that name nothing of ours, the note read before under this
lock. -/
theorem unnoteLocked_keeps {macs : List Mac} (sound : ledger.Sound)
    (recalls : syncer.Recalls dev home) :
    Keeping regime dev home (unnoteLocked dev macs)
      (fun _ _ ledger' => ∃ note, ledger' = ledger.rewrite note ∧
        (note = ledger.note ∨ note = ledger.note \ macs.toFinset) ∧
        (regime = .tight → dev ∉ syncer.unreadable → note = ledger.note \ macs.toFinset))
      syncer ledger := by
  refine (noteIsReadable_keeps recalls).bind ?_
  rintro readable _ ledger recalls ⟨rfl, rfl, readable⟩
  split
  · refine (loadOwned_keeps sound recalls).bind ?_
    rintro before after ledger recalls ⟨rfl, read⟩
    dsimp only
    split
    · rename_i same
      refine .pure recalls ⟨ledger.note, rfl, .inl rfl, fun tight _ => ?_⟩
      obtain ⟨-, rfl⟩ := read.resolve_right fun lost => lost.1 tight
      exact (Finset.eq_of_subset_of_card_le Finset.sdiff_subset same.ge).symm
    · rename_i changed
      obtain ⟨now, rfl⟩ := read.resolve_right fun lost => changed (by simp [lost.2.2])
      refine (writeOwned_keeps sound recalls).mono ?_
      rintro _ _ _ _ ⟨note, rfl, either, always⟩
      exact ⟨note, rfl, either.imp_right (·.1), fun tight _ => always tight now⟩
  · rename_i unreadable
    refine .pure recalls ⟨ledger.note, rfl, .inl rfl, fun _ now => ?_⟩
    exact absurd (readable.mpr now) unreadable

theorem forgetLocked_keeps {dropped : List Mac} (sound : ledger.Sound)
    (recalls : syncer.Recalls dev home) :
    Keeping regime dev home (forgetLocked dev dropped)
      (fun _ _ ledger' => ∃ note, ledger' = ledger.rewrite note ∧
        (note = ledger.note ∨ note = ledger.note \ dropped.toFinset) ∧
        (regime = .tight → note = ledger.note \ dropped.toFinset)) syncer ledger := by
  unfold forgetLocked
  split
  · refine (readOwned_keeps sound recalls).bind ?_
    rintro fin after ledger recalls ⟨rfl, read⟩
    refine (writeOwned_keeps sound recalls).bind ?_
    rintro _ _ _ recalls ⟨note, rfl, either, always⟩
    refine .pure recalls ⟨note, rfl, ?_⟩
    rcases read with ⟨now, rfl⟩ | ⟨loose, lost, -⟩
    · exact ⟨either.imp_right (·.1), fun tight => always tight now⟩
    · exact ⟨.inl (either.resolve_right fun changed => changed.2 lost), fun tight => absurd tight loose⟩
  · rename_i nothing
    obtain rfl := not_not.mp nothing
    exact .pure recalls ⟨ledger.note, rfl, .inl rfl, fun _ => by simp⟩

/-- What additions answered so did to the entries of ours. -/
structure Added (regime : Regime) (before after : Finset Mac) (macs : List Mac)
    (answers : List (Mac × Except Errno Unit)) : Prop where
  more : before ⊆ after
  only : ∀ mac ∈ after, mac ∈ before ∨ mac ∈ macs
  put : ∀ mac, (mac, .ok ()) ∈ answers → mac ∈ after
  refused : ∀ mac, (mac, .error .exists) ∈ answers → mac ∈ macs ∧ (mac ∈ after → mac ∈ before)
  all : regime = .tight → ∀ mac ∈ macs, mac ∈ after ∨ (mac, .error .exists) ∈ answers

/-- What removals answered so did to the entries of ours. -/
structure Removed (regime : Regime) (before after : Finset Mac) (macs : List Mac)
    (answers : List (Mac × Except Errno Unit)) : Prop where
  fewer : after ⊆ before
  only : ∀ mac ∈ before, mac ∈ after ∨ mac ∈ macs
  named : ∀ mac reply, (mac, reply) ∈ answers → mac ∈ macs
  all : ∀ mac ∈ macs, ∃ reply, (mac, reply) ∈ answers
  gone : ∀ mac, mac ∈ absentOrOk answers → mac ∉ after
  kept : regime = .tight → ∀ mac ∈ (refusedBut .noEntry answers).map (·.1), mac ∈ after

theorem added_one {mac : Mac} {reply : Except Errno Unit} {after : Ledger}
    (filtered : regime.Filtered ledger mac true reply after) :
    after.note = ledger.note ∧ Added regime ledger.ours after.ours [mac] [(mac, reply)] := by
  have same (refused : reply ≠ .ok ()) (all : regime = .tight → reply = .error .exists) :
      Added regime ledger.ours ledger.ours [mac] [(mac, reply)] :=
    { more := Finset.Subset.refl _
      only := fun _ => .inl
      put := by simp [refused.symm]
      refused := by simp +contextual
      all := by simp +contextual [all] }
  have more (refused : reply ≠ .error .exists) :
      Added regime ledger.ours (insert mac ledger.ours) [mac] [(mac, reply)] :=
    { more := Finset.subset_insert _ _
      only := by simp [or_comm]
      put := by simp +contextual
      refused := by simp [refused.symm]
      all := by simp }
  match reply, filtered with
  | .ok _, filtered =>
      obtain rfl : after = ledger.put mac := filtered
      exact ⟨rfl, more (by simp)⟩
  | .error .exists, filtered =>
      obtain rfl : after = ledger := filtered
      exact ⟨rfl, same (by simp) fun _ => rfl⟩
  | .error .noEntry, filtered =>
      obtain ⟨loose, rfl | rfl⟩ := filtered
      · exact ⟨rfl, same (by simp) fun tight => absurd tight loose⟩
      · exact ⟨rfl, more (by simp)⟩
  | .error (.other _), filtered =>
      obtain ⟨loose, rfl | rfl⟩ := filtered
      · exact ⟨rfl, same (by simp) fun tight => absurd tight loose⟩
      · exact ⟨rfl, more (by simp)⟩

theorem removed_one {mac : Mac} {reply : Except Errno Unit} {after : Ledger}
    (held : regime = .tight → mac ∈ ledger.ours)
    (filtered : regime.Filtered ledger mac false reply after) :
    after.note = ledger.note ∧ Removed regime ledger.ours after.ours [mac] [(mac, reply)] := by
  have same (kept : mac ∉ ledger.ours ∨ reply ≠ .ok () ∧ reply ≠ .error .noEntry) :
      Removed regime ledger.ours ledger.ours [mac] [(mac, reply)] :=
    { fewer := Finset.Subset.refl _
      only := fun _ => .inl
      named := by simp +contextual
      all := by simp
      gone := by
        rintro other gone
        rw [mem_absentOrOk] at gone
        rcases kept with absent | refused
        · rcases gone with gone | gone <;> simp_all
        · rcases gone with gone | gone <;> simp_all
      kept := by
        rintro tight other refused
        obtain ⟨_, -, member⟩ := mem_refusedBut.mp refused
        obtain ⟨rfl, -⟩ : other = mac ∧ _ := by simpa using member
        exact held tight }
  have fewer (done : regime = .tight → reply = .ok ()) :
      Removed regime ledger.ours (ledger.ours \ {mac}) [mac] [(mac, reply)] :=
    { fewer := Finset.sdiff_subset
      only := by
        intro other member
        by_cases own : other = mac <;> simp [own, member]
      named := by simp +contextual
      all := by simp
      gone := by
        rintro other gone
        rw [mem_absentOrOk] at gone
        rcases gone with gone | gone <;> simp_all
      kept := by
        rintro tight other refused
        obtain ⟨_, -, member⟩ := mem_refusedBut.mp refused
        simp [done tight] at member }
  match reply, filtered with
  | .ok _, filtered =>
      obtain rfl : after = ledger.take mac := filtered
      exact ⟨rfl, fewer fun _ => rfl⟩
  | .error .noEntry, filtered =>
      obtain ⟨rfl, absent⟩ := filtered
      exact ⟨rfl, same (.inl absent)⟩
  | .error .exists, filtered =>
      rcases filtered with rfl | ⟨loose, rfl⟩
      · exact ⟨rfl, same (.inr (by simp))⟩
      · exact ⟨rfl, fewer fun tight => absurd tight loose⟩
  | .error (.other _), filtered =>
      rcases filtered with rfl | ⟨loose, rfl⟩
      · exact ⟨rfl, same (.inr (by simp))⟩
      · exact ⟨rfl, fewer fun tight => absurd tight loose⟩

theorem Added.cons {before middle after : Finset Mac} {mac : Mac} {reply : Except Errno Unit}
    {rest : List Mac} {answers : List (Mac × Except Errno Unit)} (apart : mac ∉ rest)
    (one : Added regime before middle [mac] [(mac, reply)])
    (more : Added regime middle after rest answers) :
    Added regime before after (mac :: rest) ((mac, reply) :: answers) where
  more := one.more.trans more.more
  only other member := by
    rcases more.only other member with early | late
    · exact (one.only other early).imp_right fun same => by simp_all
    · exact .inr (List.mem_cons_of_mem _ late)
  put other answered := by
    rcases List.mem_cons.mp answered with same | answered
    · obtain ⟨rfl, rfl⟩ := Prod.mk.inj same
      exact more.more (one.put _ (by simp))
    · exact more.put other answered
  refused other answered := by
    rcases List.mem_cons.mp answered with same | answered
    · obtain ⟨rfl, rfl⟩ := Prod.mk.inj same
      refine ⟨by simp, fun held => ?_⟩
      rcases more.only _ held with early | late
      · exact (one.refused _ (by simp)).2 early
      · exact absurd late apart
    · obtain ⟨inRest, held⟩ := more.refused other answered
      refine ⟨List.mem_cons_of_mem _ inRest, fun late => ?_⟩
      refine (one.only other (held late)).resolve_right fun same => ?_
      obtain rfl := List.mem_singleton.mp same
      exact apart inRest
  all tight other member := by
    rcases List.mem_cons.mp member with rfl | member
    · exact (one.all tight other (by simp)).imp (fun held => more.more held) fun exist => by simp_all
    · exact (more.all tight other member).imp_right (List.mem_cons_of_mem _)

theorem Removed.cons {before middle after : Finset Mac} {mac : Mac} {reply : Except Errno Unit}
    {rest : List Mac} {answers : List (Mac × Except Errno Unit)} (apart : mac ∉ rest)
    (one : Removed regime before middle [mac] [(mac, reply)])
    (more : Removed regime middle after rest answers) :
    Removed regime before after (mac :: rest) ((mac, reply) :: answers) where
  fewer := more.fewer.trans one.fewer
  only other member := by
    rcases one.only other member with held | same
    · exact (more.only other held).imp_right (List.mem_cons_of_mem _)
    · exact .inr (by simp_all)
  named other answer answered := by
    rcases List.mem_cons.mp answered with same | answered
    · simp [(Prod.mk.inj same).1]
    · exact List.mem_cons_of_mem _ (more.named other answer answered)
  all other member := by
    rcases List.mem_cons.mp member with rfl | member
    · exact ⟨reply, by simp⟩
    · obtain ⟨answer, answered⟩ := more.all other member
      exact ⟨answer, List.mem_cons_of_mem _ answered⟩
  gone other gone := by
    have cases : other ∈ absentOrOk [(mac, reply)] ∨ other ∈ absentOrOk answers := by
      rw [mem_absentOrOk] at gone ⊢
      rw [mem_absentOrOk]
      simp only [List.mem_cons, List.not_mem_nil, or_false] at gone ⊢
      tauto
    rcases cases with early | late
    · exact fun held => one.gone other early (more.fewer held)
    · exact more.gone other late
  kept tight other refused := by
    obtain ⟨errno, present, answered⟩ := mem_refusedBut.mp refused
    rcases List.mem_cons.mp answered with same | answered
    · obtain ⟨rfl, rfl⟩ := Prod.mk.inj same
      have held := one.kept tight other (mem_refusedBut.mpr ⟨errno, present, by simp⟩)
      exact (more.only _ held).resolve_right apart
    · exact more.kept tight other (mem_refusedBut.mpr ⟨errno, present, answered⟩)

theorem setEach_adds {macs : List Mac} (distinct : macs.Nodup) (sound : ledger.Sound)
    (recalls : syncer.Recalls dev home) (noted : ∀ mac ∈ macs, mac ∈ ledger.note) :
    Keeping regime dev home (setEach home true macs)
      (fun answers after ledger' => after = syncer ∧ ledger'.note = ledger.note ∧
        Added regime ledger.ours ledger'.ours macs answers) syncer ledger := by
  induction macs generalizing ledger with
  | nil =>
      exact .pure recalls ⟨rfl, rfl,
        { more := Finset.Subset.refl _
          only := fun _ => .inl
          put := by simp
          refused := by simp
          all := by simp }⟩
  | cons mac rest ih =>
      obtain ⟨apart, distinct⟩ := List.nodup_cons.mp distinct
      refine safe_bind.mpr (safe_ask.mpr ⟨⟨trivial, sound, trivial⟩, ?_⟩)
      rintro reply _ ⟨-, middle, rfl, becomes⟩
      simp only [Ledger.Becomes, if_true] at becomes
      obtain ⟨sameNote, one⟩ := added_one becomes
      have soundMiddle : middle.Sound := by
        intro other member
        rw [sameNote]
        rcases one.only other member with early | same
        · exact sound early
        · exact noted other (by simp_all)
      have notedRest : ∀ other ∈ rest, other ∈ middle.note := fun other member => by
        rw [sameNote]
        exact noted other (List.mem_cons_of_mem _ member)
      refine (ih distinct soundMiddle notedRest).bind ?_
      rintro answers _ ledger' recalls ⟨rfl, sameNote', added⟩
      exact .pure recalls ⟨rfl, sameNote'.trans sameNote, one.cons apart added⟩

theorem setEach_removes {macs : List Mac} (distinct : macs.Nodup) (sound : ledger.Sound)
    (recalls : syncer.Recalls dev home)
    (noted : regime ≠ .crowd → ∀ mac ∈ macs, mac ∈ ledger.note)
    (held : regime = .tight → ∀ mac ∈ macs, mac ∈ ledger.ours) :
    Keeping regime dev home (setEach home false macs)
      (fun answers after ledger' => after = syncer ∧ ledger'.note = ledger.note ∧
        Removed regime ledger.ours ledger'.ours macs answers) syncer ledger := by
  induction macs generalizing ledger with
  | nil =>
      exact .pure recalls ⟨rfl, rfl,
        { fewer := Finset.Subset.refl _
          only := fun _ => .inl
          named := by simp
          all := by simp
          gone := by simp [absentOrOk]
          kept := by simp [refusedBut] }⟩
  | cons mac rest ih =>
      obtain ⟨apart, distinct⟩ := List.nodup_cons.mp distinct
      refine safe_bind.mpr (safe_ask.mpr ⟨⟨trivial, sound, fun _ => ⟨fun alone =>
        noted alone mac (by simp), fun tight => held tight mac (by simp)⟩⟩, ?_⟩)
      rintro reply _ ⟨-, middle, rfl, becomes⟩
      simp only [Ledger.Becomes, if_true] at becomes
      obtain ⟨sameNote, one⟩ := removed_one (fun tight => held tight mac (by simp)) becomes
      have soundMiddle : middle.Sound := by
        rw [Ledger.Sound, sameNote]
        exact one.fewer.trans sound
      have heldRest (tight : regime = .tight) (other : Mac) (member : other ∈ rest) :
          other ∈ middle.ours := by
        refine (one.only other (held tight other (List.mem_cons_of_mem _ member))).resolve_right ?_
        intro same
        obtain rfl := List.mem_singleton.mp same
        exact apart member
      refine (ih distinct soundMiddle (fun alone other member => ?_) heldRest).bind ?_
      · rw [sameNote]
        exact noted alone other (List.mem_cons_of_mem _ member)
      · rintro answers _ ledger' recalls ⟨rfl, sameNote', removed⟩
        exact .pure recalls ⟨rfl, sameNote'.trans sameNote, one.cons apart removed⟩

variable {books : Books}

/-- What a process counts as owned and has not let go is on the note, and what it
let go is not on the card any more. -/
def Books.Names (books : Books) (owned dropped : Finset Mac) : Prop :=
  ∀ ledger, books = some ledger → owned \ dropped ⊆ ledger.note ∧ Disjoint dropped ledger.ours

/-- A section that keeps the books settled takes them from rest to rest. -/
theorem locked_rests {α : Type} {work : Section} {body : Sync α}
    (post : α → Syncer → Ledger → Prop) (rest : books.Rest regime)
    (works : ∀ ledger, ledger.Settled regime → regime.Admits ledger work →
      (regime ≠ .crowd → books = some ledger) →
      Keeping regime dev home body
        (fun value after ledger' => ledger'.Settled regime ∧ post value after ledger')
        syncer ledger) :
    Safe (bookkeeping regime dev home) (locked dev work body)
      (fun value after books' => books'.Rest regime ∧ after.Recalls dev home ∧
        ∃ ledger', post value after ledger' ∧ ∀ known, books' = some known → known = ledger')
      syncer books := by
  have inside (ledger : Ledger) (settled : ledger.Settled regime)
      (admitted : regime.Admits ledger work) (known : regime ≠ .crowd → books = some ledger) :
      Safe (bookkeeping regime dev home) (do
        let out ← body
        let _ ← ask (.unlock dev)
        return out)
        (fun value after books' => books'.Rest regime ∧ after.Recalls dev home ∧
          ∃ ledger', post value after ledger' ∧ ∀ known, books' = some known → known = ledger')
        syncer (some ledger) := by
    refine safe_bind.mpr (Safe.mono (works ledger settled admitted known) ?_)
    rintro value after _ ⟨ledger', rfl, recalls, settled, holds⟩
    refine safe_bind.mpr (safe_ask.mpr ⟨⟨trivial, settled.1, fun _ => settled.2⟩, ?_⟩)
    rintro _ _ ⟨-, rfl⟩
    by_cases crowd : regime = .crowd
    · refine safe_pure.mpr ?_
      simp only [crowd, and_self, if_true]
      exact ⟨rfl, recalls, ledger', holds, by simp⟩
    · refine safe_pure.mpr ?_
      simp only [crowd, false_and, if_false]
      exact ⟨⟨crowd, settled⟩, recalls, ledger', holds, fun _ same => (Option.some.inj same).symm⟩
  cases books with
  | none =>
      refine safe_bind.mpr (safe_ask.mpr ⟨⟨trivial, id⟩, ?_⟩)
      rintro _ _ ⟨-, becomes⟩
      simp only [Books.Becomes, if_true] at becomes
      obtain ⟨ledger, rfl, sound, admitted⟩ := becomes
      have crowd : regime = .crowd := rest
      exact inside ledger ⟨sound, by simp [crowd]⟩ admitted fun apart => absurd crowd apart
  | some ledger =>
      refine safe_bind.mpr (safe_ask.mpr ⟨⟨trivial, rest.2.1, trivial⟩, ?_⟩)
      rintro _ _ ⟨-, _, rfl, rfl, admitted⟩
      exact inside _ rest.2 (admitted rfl) fun _ => rfl

theorem Books.Rest.alone {ledger : Ledger} (rest : books.Rest regime)
    (same : books = some ledger) : regime ≠ .crowd := by
  subst same
  exact rest.1

/-- Lines that turn out to name somebody else's entries come off the note again, and
the books are settled. -/
theorem Added.settles {before after : Ledger} {macs : List Mac}
    {answers : List (Mac × Except Errno Unit)} {unclaim note : Finset Mac}
    (added : Added regime before.ours after.ours macs answers) (settled : before.Settled regime)
    (appended : after.note = before.note ∪ macs.toFinset)
    (unclaimed : ∀ mac, mac ∈ unclaim ↔
      (mac, .error .exists) ∈ answers ∧ mac ∈ macs ∧ mac ∉ before.note)
    (either : note = after.note ∨ note = after.note \ unclaim)
    (always : regime = .tight → note = after.note \ unclaim) :
    (after.rewrite note).Settled regime ∧ before.note ⊆ note ∧
      (answeredOk answers).toFinset ⊆ note := by
  have kept {mac : Mac} (noted : mac ∈ before.note ∨ mac ∈ macs) (claimed : mac ∉ unclaim) :
      mac ∈ note := by
    rcases either with rfl | rfl
    · simpa [appended] using noted
    · simpa [appended, claimed] using noted
  have claimed {mac : Mac} (held : mac ∈ after.ours) : mac ∉ unclaim := by
    intro member
    obtain ⟨exist, -, fresh⟩ := (unclaimed mac).mp member
    exact fresh (settled.1 ((added.refused mac exist).2 held))
  have sound {mac : Mac} (held : mac ∈ after.ours) : mac ∈ note := by
    refine kept ?_ (claimed held)
    exact (added.only mac held).imp_left fun early => settled.1 early
  refine ⟨⟨fun mac held => sound held, fun tight mac noted => ?_⟩, ?_, ?_⟩
  · obtain rfl := always tight
    obtain ⟨noted, claims⟩ := Finset.mem_sdiff.mp noted
    rw [appended, Finset.mem_union, List.mem_toFinset] at noted
    by_cases early : mac ∈ before.note
    · exact added.more (settled.2 tight early)
    · have member := noted.resolve_left early
      refine (added.all tight mac member).resolve_right fun exist => ?_
      exact claims ((unclaimed mac).mpr ⟨exist, member, early⟩)
  · intro mac noted
    exact kept (.inl noted) fun member => ((unclaimed mac).mp member).2.2 noted
  · intro mac put
    exact sound (added.put mac (mem_answeredOk.mp (List.mem_toFinset.mp put)))

theorem registerBatchLocked_rests {macs : List Mac} {owned : Finset Mac} (distinct : macs.Nodup)
    (rest : books.Rest regime) (recalls : syncer.Recalls dev home) (names : books.Names owned ∅) :
    Safe (bookkeeping regime dev home) (registerBatchLocked dev home macs)
      (fun result after books' => books'.Rest regime ∧ after.Recalls dev home ∧
        books'.Names (owned ∪ ((result.map (·.put)).getD []).toFinset) ∅) syncer books := by
  refine (locked_rests (fun result _ ledger' => regime ≠ .crowd →
    owned ∪ ((result.map (·.put)).getD []).toFinset ⊆ ledger'.note) rest ?_).mono ?_
  · intro ledger settled _ known
    have noted (alone : regime ≠ .crowd) : owned ⊆ ledger.note := by
      simpa using (names ledger (known alone)).1
    refine (appendOwnedLocked_keeps settled.1 recalls).bind ?_
    rintro appended after middle recalls result
    cases appended with
    | none =>
        obtain ⟨loose, note, rfl, grown⟩ := result
        refine .pure recalls ⟨⟨settled.1.trans grown, fun tight => absurd tight loose⟩, ?_⟩
        intro alone
        simpa using (noted alone).trans grown
    | some fresh =>
        obtain ⟨rfl, readable, rfl⟩ := result
        have sound : (ledger.rewrite (ledger.note ∪ macs.toFinset)).Sound :=
          settled.1.trans Finset.subset_union_left
        refine (setEach_adds distinct sound recalls fun mac member => by
          simp [Ledger.rewrite, member]).bind ?_
        rintro answers _ ledger' recalls ⟨rfl, sameNote, added⟩
        have added : Added regime ledger.ours ledger'.ours macs answers := added
        have sound : ledger'.Sound := fun mac held => by
          rw [sameNote, Ledger.rewrite_note, Finset.mem_union, List.mem_toFinset]
          exact (added.only mac held).imp_left fun early => settled.1 early
        have unclaimed (mac : Mac) : mac ∈ ((answeredWith .exists answers).filter
            (· ∈ macs.filter (· ∉ ledger.note))).toFinset ↔
              (mac, .error .exists) ∈ answers ∧ mac ∈ macs ∧ mac ∉ ledger.note := by
          simp only [List.mem_toFinset, List.mem_filter, decide_eq_true_eq, mem_answeredWith]
        have settles (note : Finset Mac) := @Added.settles _ _ _ _ _ _ note added settled sameNote unclaimed
        have owns {note : Finset Mac} (grown : ledger.note ⊆ note)
            (put : (answeredOk answers).toFinset ⊆ note) (alone : regime ≠ .crowd) :
            owned ∪ (answeredOk answers).toFinset ⊆ note :=
          Finset.union_subset ((noted alone).trans grown) put
        dsimp only
        split
        · refine (unnoteLocked_keeps sound recalls).bind ?_
          rintro _ _ _ recalls ⟨note, rfl, either, always⟩
          obtain ⟨settledAfter, grown, put⟩ := settles note either fun tight => always tight readable
          exact .pure recalls ⟨settledAfter, owns grown put⟩
        · rename_i nothing
          obtain ⟨settledAfter, grown, put⟩ := settles ledger'.note (.inl rfl) fun _ => by
            rw [not_not.mp nothing, List.toFinset_nil, Finset.sdiff_empty]
          exact .pure recalls ⟨settledAfter, owns grown put⟩
  · rintro result after books' ⟨rest, recalls, ledger', held, only⟩
    refine ⟨rest, recalls, fun known same => ?_⟩
    obtain rfl := only known same
    exact ⟨by simpa using held (rest.alone same), by simp⟩

theorem Removed.answered {before after : Finset Mac} {macs : List Mac}
    {answers : List (Mac × Except Errno Unit)}
    (removed : Removed regime before after macs answers) {mac : Mac} (member : mac ∈ macs) :
    mac ∈ absentOrOk answers ∨ mac ∈ (refusedBut .noEntry answers).map (·.1) := by
  obtain ⟨reply, answered⟩ := removed.all mac member
  match reply, answered with
  | .ok (), answered => exact .inl (mem_absentOrOk.mpr (.inl answered))
  | .error errno, answered =>
      by_cases absent : errno = .noEntry
      · exact .inl (mem_absentOrOk.mpr (.inr (absent ▸ answered)))
      · exact .inr (mem_refusedBut.mpr ⟨errno, absent, answered⟩)

/-- What the card let go comes off the note, and the books are settled. -/
theorem Removed.settles {before after : Ledger} {macs : List Mac}
    {answers : List (Mac × Except Errno Unit)} {note : Finset Mac}
    (removed : Removed regime before.ours after.ours macs answers)
    (settled : before.Settled regime) (sameNote : after.note = before.note)
    (either : note = after.note ∨ note = after.note \ (absentOrOk answers).toFinset)
    (always : regime = .tight → note = after.note \ (absentOrOk answers).toFinset) :
    (after.rewrite note).Settled regime ∧ before.note \ (absentOrOk answers).toFinset ⊆ note ∧
      Disjoint (absentOrOk answers).toFinset after.ours := by
  have gone {mac : Mac} (held : mac ∈ after.ours) : mac ∉ (absentOrOk answers).toFinset :=
    fun member => removed.gone mac (List.mem_toFinset.mp member) held
  have left : before.note \ (absentOrOk answers).toFinset ⊆ note := by
    rcases either with rfl | rfl
    · rw [sameNote]
      exact Finset.sdiff_subset
    · rw [sameNote]
  refine ⟨⟨fun mac held => left ?_, fun tight mac noted => ?_⟩, left, ?_⟩
  · exact Finset.mem_sdiff.mpr ⟨settled.1 (removed.fewer held), gone held⟩
  · obtain rfl := always tight
    obtain ⟨noted, stays⟩ := Finset.mem_sdiff.mp noted
    rw [sameNote] at noted
    refine (removed.only mac (settled.2 tight noted)).elim id fun member => ?_
    refine removed.kept tight mac ((removed.answered member).resolve_left fun dropped => ?_)
    exact stays (List.mem_toFinset.mpr dropped)
  · exact Finset.disjoint_left.mpr fun mac member held => gone held member

theorem retire_rests {work : Section} {macs : List Mac} {owned : Finset Mac} (distinct : macs.Nodup)
    (rest : books.Rest regime) (recalls : syncer.Recalls dev home) (names : books.Names owned ∅)
    (noted : ∀ ledger, books = some ledger → regime.Admits ledger work →
      ∀ mac ∈ macs, mac ∈ ledger.note) :
    Safe (bookkeeping regime dev home) (retire work dev home macs)
      (fun retired after books' => books'.Rest regime ∧ after.Recalls dev home ∧
        books'.Names owned retired.dropped.toFinset) syncer books := by
  refine (locked_rests (fun retired _ ledger' => regime ≠ .crowd →
    owned \ retired.dropped.toFinset ⊆ ledger'.note ∧
      Disjoint retired.dropped.toFinset ledger'.ours) rest ?_).mono ?_
  · intro ledger settled admitted known
    have inNote (alone : regime ≠ .crowd) := noted ledger (known alone) admitted
    refine (setEach_removes distinct settled.1 recalls inNote fun tight mac member =>
      settled.2 tight (inNote (by simp [tight]) mac member)).bind ?_
    rintro answers _ ledger' recalls ⟨rfl, sameNote, removed⟩
    have sound : ledger'.Sound := by
      rw [Ledger.Sound, sameNote]
      exact removed.fewer.trans settled.1
    refine (forgetLocked_keeps sound recalls).bind ?_
    rintro _ _ _ recalls ⟨note, rfl, either, always⟩
    obtain ⟨settledAfter, left, apart⟩ := removed.settles settled sameNote either always
    refine .pure recalls ⟨settledAfter, fun alone => ⟨?_, apart⟩⟩
    have held : owned ⊆ ledger.note := by simpa using (names ledger (known alone)).1
    exact (Finset.sdiff_subset_sdiff held (Finset.Subset.refl _)).trans left
  · rintro retired after books' ⟨rest, recalls, ledger', held, only⟩
    refine ⟨rest, recalls, fun known same => ?_⟩
    obtain rfl := only known same
    exact held (rest.alone same)

theorem Books.Names.nothing : books.Names ∅ ∅ := fun _ _ => by simp

theorem saveOwnedMerged_rests {before owned dropped : Finset Mac} (grown : before ⊆ owned)
    (rest : books.Rest regime) (recalls : syncer.Recalls dev home)
    (names : books.Names owned dropped) :
    Safe (bookkeeping regime dev home) (saveOwnedMerged dev before (owned \ dropped))
      (fun _ after books' => books'.Rest regime ∧ after.Recalls dev home) syncer books := by
  refine safe_bind.mpr (safe_get.mpr ?_)
  split
  · refine (locked_rests (fun _ _ _ => True) rest ?_).mono
      fun _ _ _ holds => ⟨holds.1, holds.2.1⟩
    intro ledger settled admitted known
    refine (readOwned_keeps settled.1 recalls).bind ?_
    rintro current after ledger recalls ⟨rfl, read⟩
    refine (writeOwned_keeps settled.1 recalls).bind ?_
    rintro _ _ _ recalls ⟨note, rfl, either, -⟩
    refine .pure recalls ⟨?_, trivial⟩
    rcases either with rfl | ⟨rfl, now⟩
    · exact settled
    · obtain ⟨-, rfl⟩ := read.resolve_right fun lost => now lost.2.1
      have apart : Disjoint (before \ (owned \ dropped)) ledger.ours := by
        by_cases crowd : regime = .crowd
        · exact admitted crowd
        · refine (names ledger (known crowd)).2.mono_left fun mac member => ?_
          obtain ⟨early, late⟩ := Finset.mem_sdiff.mp member
          by_contra stays
          exact late (Finset.mem_sdiff.mpr ⟨grown early, stays⟩)
      refine ⟨fun mac held => ?_, fun tight mac noted => ?_⟩
      · refine Finset.mem_sdiff.mpr ⟨Finset.mem_union_left _ (settled.1 held), fun member => ?_⟩
        exact Finset.disjoint_left.mp apart member held
      · obtain ⟨noted, -⟩ := Finset.mem_sdiff.mp noted
        refine settled.2 tight ((Finset.mem_union.mp noted).elim id fun added => ?_)
        exact (names ledger (known (by simp [tight]))).1 (Finset.mem_sdiff.mp added).1
  · exact ⟨rest, recalls⟩

end SriovMacSync
