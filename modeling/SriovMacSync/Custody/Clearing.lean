import SriovMacSync.Custody.Sections

namespace SriovMacSync

open Data Netlink Interaction Interaction.Action

/-! Taking back everything a note names: the sweep and the flush. -/

variable {regime : Regime} {dev : Name} {home : Index} {syncer : Syncer} {ledger : Ledger}
  {books : Books} {topo : Topology}

/-- The reading's one interface of this name carries this index. -/
theorem Topology.Keeps.get_iff (keeps : topo.Keeps dev home) {name : Name} {index : Index}
    (located : topo.indexOf name = some index) : name = dev ↔ index = home := by
  obtain ⟨link, found, rfl, rfl⟩ := Topology.get_of_indexOf located
  exact keeps.2 link (Topology.mem_of_linkAt (Topology.get_spec found).2.1)

theorem Topology.Keeps.get (keeps : topo.Keeps dev home) :
    ∃ link, topo.get dev = some link ∧ link.index = home := by
  obtain ⟨⟨link, member, atHome⟩, only⟩ := keeps
  obtain ⟨found, located⟩ : ∃ found, topo.links.reverse.find? (·.name == dev) = some found :=
    Option.isSome_iff_exists.mp (List.find?_isSome.mpr
      ⟨link, List.mem_reverse.mpr member, by simpa using (only link member).mpr atHome⟩)
  have named : topo.indexOf dev = some found.index := by rw [Topology.indexOf, located]; rfl
  obtain ⟨link', got, sameIndex, sameName⟩ := Topology.get_of_indexOf named
  exact ⟨link', got, (only link' (Topology.mem_of_linkAt (Topology.get_spec got).2.1)).mp sameName⟩

theorem recordedIndex_keeps (sound : ledger.Sound) (recalls : syncer.Recalls dev home) :
    Keeping regime dev home (recordedIndex dev)
      (fun recorded after ledger' => after = syncer ∧ ledger' = ledger ∧
        (recorded = none ∨ recorded = some home)) syncer ledger := by
  refine safe_bind.mpr (safe_get.mpr ?_)
  rcases recalls with unknown | known
  · rw [unknown]
    refine safe_ask.mpr ⟨⟨trivial, sound, trivial⟩, ?_⟩
    rintro recorded _ ⟨identifies, _, rfl, rfl⟩
    exact ⟨_, rfl, .inl unknown, rfl, rfl, identifies.1 rfl⟩
  · rw [known]
    exact ⟨ledger, rfl, .inr known, rfl, rfl, .inr rfl⟩

theorem notedLink_keeps (keeps : topo.Keeps dev home) (sound : ledger.Sound)
    (recalls : syncer.Recalls dev home) :
    Keeping regime dev home (notedLink dev topo)
      (fun found after ledger' => after = syncer ∧ ledger' = ledger ∧
        ∃ link, found = some link ∧ link.index = home) syncer ledger := by
  obtain ⟨link, located, atHome⟩ := keeps.get
  unfold notedLink
  rw [located]
  refine (recordedIndex_keeps sound recalls).bind ?_
  rintro recorded _ _ recalls ⟨rfl, rfl, rfl | rfl⟩
  · exact .pure recalls ⟨rfl, rfl, link, rfl, atHome⟩
  · simp only [atHome, if_true]
    exact .pure recalls ⟨rfl, rfl, link, rfl, atHome⟩

/-- What is left of a note once everything it names was asked out of the card. -/
structure Cleared (regime : Regime) (before after : Ledger) (owned kept : Finset Mac) : Prop where
  note : after.note = before.note
  fewer : after.ours ⊆ before.ours
  left : ∀ mac ∈ owned, mac ∈ after.ours → mac ∈ kept
  tight : regime = .tight → kept ⊆ after.ours

theorem unregisterAll_keeps {owned : Finset Mac} (settled : ledger.Settled regime)
    (recalls : syncer.Recalls dev home) (noted : owned ⊆ ledger.note) :
    Keeping regime dev home (unregisterAll home owned)
      (fun result after ledger' => after = syncer ∧ Cleared regime ledger ledger' owned result.2)
      syncer ledger := by
  refine safe_bind.mpr (safe_ask.mpr ⟨⟨trivial, settled.1, trivial⟩, ?_⟩)
  rintro order _ ⟨-, ledger, rfl, rfl⟩
  have inNote : ∀ mac ∈ order.list, mac ∈ ledger.note := fun mac member =>
    noted ((order.mem_iff mac).mp member)
  refine (setEach_removes order.nodup settled.1 recalls (fun _ => inNote) fun tight mac member =>
    settled.2 tight (inNote mac member)).bind ?_
  rintro answers _ ledger' recalls ⟨rfl, sameNote, removed⟩
  refine .pure recalls ⟨rfl, sameNote, removed.fewer, fun mac member held => ?_, fun tight mac kept => ?_⟩
  · refine List.mem_toFinset.mpr ((removed.answered ((order.mem_iff mac).mpr member)).resolve_left ?_)
    exact fun gone => removed.gone mac gone held
  · exact removed.kept tight mac (List.mem_toFinset.mp kept)

/-- A cleared note is settled when it is left as it is, when it is cut to what was
kept, and, with nothing kept, when it goes. -/
theorem Cleared.settles {after : Ledger} {owned kept note : Finset Mac}
    (cleared : Cleared regime ledger after owned kept) (settled : ledger.Settled regime)
    (whole : owned = ledger.note) (either : note = after.note ∨ note = kept)
    (always : regime = .tight → note = kept) : (after.rewrite note).Settled regime := by
  subst whole
  refine ⟨fun mac held => ?_, fun tight => by
    obtain rfl := always tight
    exact cleared.tight tight⟩
  have noted := settled.1 (cleared.fewer held)
  rcases either with rfl | rfl
  · simpa [cleared.note] using noted
  · exact cleared.left mac noted held

theorem Cleared.ours_empty {after : Ledger} {owned : Finset Mac}
    (cleared : Cleared regime ledger after owned ∅) (settled : ledger.Settled regime)
    (whole : owned = ledger.note) : after.ours = ∅ := by
  subst whole
  refine Finset.eq_empty_of_forall_notMem fun mac held => ?_
  exact Finset.notMem_empty _ (cleared.left mac (settled.1 (cleared.fewer held)) held)

theorem Cleared.sound {after : Ledger} {owned kept : Finset Mac}
    (cleared : Cleared regime ledger after owned kept) (settled : ledger.Settled regime) :
    after.Sound := by
  rw [Ledger.Sound, cleared.note]
  exact cleared.fewer.trans settled.1

theorem sweepNote_rests (keeps : topo.Keeps dev home) (rest : books.Rest regime)
    (recalls : syncer.Recalls dev home) :
    Safe (bookkeeping regime dev home) (sweepNote dev topo)
      (fun _ after books' => books'.Rest regime ∧ after.Recalls dev home) syncer books := by
  refine (locked_rests (fun _ _ _ => True) rest ?_).mono
    fun _ _ _ holds => ⟨holds.1, holds.2.1⟩
  intro ledger settled _ _
  refine (loadOwned_keeps settled.1 recalls).bind ?_
  rintro owned after ledger recalls ⟨rfl, read⟩
  split
  · rename_i nothing
    refine (noteIsReadable_keeps recalls).bind ?_
    rintro readable _ ledger recalls ⟨rfl, rfl, readable⟩
    split
    · rename_i isReadable
      obtain ⟨-, rfl⟩ := read.resolve_right fun lost => readable.mp isReadable lost.2.1
      have empty : ledger.ours = ∅ := Finset.subset_empty.mp (nothing ▸ settled.1)
      refine (removeNote_keeps settled.1 empty).bind ?_
      rintro _ _ _ recalls ⟨note, rfl, always⟩
      refine .pure recalls ⟨⟨?_, fun tight => ?_⟩, trivial⟩
      · simp [Ledger.Sound, empty]
      · simp [always tight]
    · exact .pure recalls ⟨settled, trivial⟩
  · rename_i some
    obtain ⟨now, rfl⟩ := read.resolve_right fun lost => some lost.2.2
    have taken : Keeping regime dev home (takeOut dev topo ledger.note)
        (fun kept after' ledger' => after' = after ∧ Cleared regime ledger ledger' ledger.note kept)
        after ledger := by
      refine (notedLink_keeps keeps settled.1 recalls).bind ?_
      rintro _ _ ledger recalls ⟨rfl, rfl, link, rfl, atHome⟩
      dsimp only
      rw [atHome]
      refine (unregisterAll_keeps settled recalls (Finset.Subset.refl _)).bind ?_
      rintro result _ ledger' recalls ⟨rfl, cleared⟩
      exact .pure recalls ⟨rfl, cleared⟩
    refine taken.bind ?_
    rintro kept _ ledger' recalls ⟨rfl, cleared⟩
    refine (noteIsReadable_keeps recalls).bind ?_
    rintro readable _ ledger' recalls ⟨rfl, rfl, readable⟩
    split
    · rename_i gone
      obtain ⟨rfl, -⟩ := gone
      have empty := cleared.ours_empty settled rfl
      refine (removeNote_keeps (cleared.sound settled) empty).bind ?_
      rintro _ _ _ recalls ⟨note, rfl, always⟩
      refine .pure recalls ⟨⟨?_, fun tight => ?_⟩, trivial⟩
      · simp [Ledger.Sound, empty]
      · simp [always tight]
    · refine (writeOwned_keeps (cleared.sound settled) recalls).bind ?_
      rintro _ _ _ recalls ⟨note, rfl, either, always⟩
      exact .pure recalls ⟨cleared.settles settled rfl (either.imp_right (·.1))
        fun tight => always tight now, trivial⟩

theorem flushNote_rests (keeps : topo.Keeps dev home) (rest : books.Rest regime)
    (recalls : syncer.Recalls dev home) :
    Safe (bookkeeping regime dev home) (flushNote dev topo)
      (fun _ after books' => books'.Rest regime ∧ after.Recalls dev home) syncer books := by
  refine (locked_rests (fun _ _ _ => True) rest ?_).mono
    fun _ _ _ holds => ⟨holds.1, holds.2.1⟩
  intro ledger settled _ _
  refine (loadOwned_keeps settled.1 recalls).bind ?_
  rintro owned after ledger recalls ⟨rfl, read⟩
  have noted : owned ⊆ ledger.note := by
    rcases read with ⟨-, rfl⟩ | ⟨-, -, rfl⟩
    · exact Finset.Subset.refl _
    · exact Finset.empty_subset _
  have flushed : Keeping regime dev home (flushEntries dev topo owned)
      (fun kept after' ledger' => after' = after ∧ Cleared regime ledger ledger' owned kept)
      after ledger := by
    have targets : Keeping regime dev home (flushTarget dev topo)
        (fun target after' ledger' => after' = after ∧ ledger' = ledger ∧ target = some home)
        after ledger := by
      refine (notedLink_keeps keeps settled.1 recalls).bind ?_
      rintro _ _ ledger recalls ⟨rfl, rfl, link, rfl, atHome⟩
      exact .pure recalls ⟨rfl, rfl, by rw [atHome]⟩
    refine targets.bind ?_
    rintro _ _ ledger recalls ⟨rfl, rfl, rfl⟩
    refine (unregisterAll_keeps settled recalls noted).bind ?_
    rintro result _ ledger' recalls ⟨rfl, cleared⟩
    exact .pure recalls ⟨rfl, cleared⟩
  refine flushed.bind ?_
  rintro kept _ ledger' recalls ⟨rfl, cleared⟩
  refine (noteIsReadable_keeps recalls).bind ?_
  rintro readable _ ledger' recalls ⟨rfl, rfl, readable⟩
  split
  · rename_i isReadable
    obtain ⟨now, rfl⟩ := read.resolve_right fun lost => readable.mp isReadable lost.2.1
    split
    · rename_i gone
      subst gone
      have empty := cleared.ours_empty settled rfl
      refine (removeNote_keeps (cleared.sound settled) empty).bind ?_
      rintro _ _ _ recalls ⟨note, rfl, always⟩
      refine .pure recalls ⟨⟨?_, fun tight => ?_⟩, trivial⟩
      · simp [Ledger.Sound, empty]
      · simp [always tight]
    · refine (writeOwned_keeps (cleared.sound settled) recalls).bind ?_
      rintro _ _ _ recalls ⟨note, rfl, either, always⟩
      exact .pure recalls ⟨cleared.settles settled rfl (either.imp_right (·.1))
        fun tight => always tight now, trivial⟩
  · rename_i unreadable
    refine .pure recalls ⟨⟨cleared.sound settled, fun tight => ?_⟩, trivial⟩
    exact absurd tight (read.resolve_left fun seen => unreadable (readable.mpr seen.1)).1

end SriovMacSync
