import SriovMacSync.Growth.PassAdditions

namespace SriovMacSync

open Data Netlink Interaction Interaction.Action

/-! Every addition of a batch is of an address learnt behind the bridge, off the
wire by everything the process knows, and either vetted by an answer given during
that batch or put back where it was. -/

/-- What an answer has for these functions was returned by a question asked in
this history. -/
def AnsweredNow (past : History) (functions : List Index) (vfMacs : List (Index × Mac)) : Prop :=
  ∃ pfs reply, asked pfs reply ∈ past ∧ functions ⊆ pfs ∧
    ∀ entry, entry.1 ∈ functions → (entry ∈ vfMacs ↔ entry ∈ reply)

/-- The address was read on the device's note and in the interface's own list. -/
def HeldNow (past : History) (dev : Name) (index : Index) (mac : Mac) : Prop :=
  (∃ macs steady, (⟨.readNote dev, NoteReading.lines macs steady⟩ : Exchange Call Reply) ∈ past ∧
    mac ∈ macs) ∧
  ∃ entries, (⟨.dumpFdbOf index, Except.ok entries⟩ : Exchange Call Reply) ∈ past ∧
    mac ∈ selfList entries index

theorem AnsweredNow.later {past later : History} {functions : List Index}
    {vfMacs : List (Index × Mac)} (now : AnsweredNow past functions vfMacs)
    (held : past <+: later) : AnsweredNow later functions vfMacs := by
  obtain ⟨pfs, reply, happened, covers, agrees⟩ := now
  exact ⟨pfs, reply, held.subset happened, covers, agrees⟩

theorem HeldNow.later {past later : History} {dev : Name} {index : Index} {mac : Mac}
    (now : HeldNow past dev index mac) (held : past <+: later) : HeldNow later dev index mac := by
  obtain ⟨⟨macs, steady, read, onNote⟩, entries, dumped, onCard⟩ := now
  exact ⟨⟨macs, steady, held.subset read, onNote⟩, entries, held.subset dumped, onCard⟩

/-- What a batch does to a process besides device marks: the wire it carries only
grows. -/
def BatchMarks (before after : Syncer) : Prop :=
  after.toSettings = before.toSettings ∧ ∀ dev, before.carriedWire dev ⊆ after.carriedWire dev

theorem BatchMarks.refl (syncer : Syncer) : BatchMarks syncer syncer :=
  ⟨rfl, fun _ => Finset.Subset.refl _⟩

theorem BatchMarks.trans {first second third : Syncer} (one : BatchMarks first second)
    (two : BatchMarks second third) : BatchMarks first third :=
  ⟨two.1.trans one.1, fun dev => (one.2 dev).trans (two.2 dev)⟩

theorem BatchMarks.bind {allowed : Call → Prop} {α β : Type} {first : Sync α} {rest : α → Sync β}
    {before : Syncer}
    (left : Within allowed first (fun _ after => BatchMarks before after) before)
    (right : ∀ value middle,
      Within allowed (rest value) (fun _ after => BatchMarks middle after) middle) :
    Within allowed (first >>= rest) (fun _ after => BatchMarks before after) before :=
  left.bind fun value middle one => (right value middle).imp fun _ _ two => one.trans two

theorem BatchMarks.of_carried {before after : Syncer} (settings : after.toSettings = before.toSettings)
    (carried : after.carried = before.carried) : BatchMarks before after :=
  ⟨settings, fun dev => by rw [Syncer.carriedWire, Syncer.carriedWire, carried]⟩

theorem NoteMarks.batch {before after : Syncer} (marks : NoteMarks Set.univ before after) :
    BatchMarks before after := by
  obtain ⟨_, _, _, rfl⟩ := marks
  exact .of_carried rfl rfl

theorem PortMarks.batch {before after : Syncer} (marks : PortMarks before after) :
    BatchMarks before after := by
  obtain ⟨_, _, _, rfl⟩ := marks
  exact .of_carried rfl rfl

section Marks

variable {syncer : Syncer} {dev : Name}

theorem carriedWire_setCarried {other : Name} {carried : Carried} :
    (syncer.setCarried dev (some carried)).carriedWire other =
      if other = dev then carried.wire else syncer.carriedWire other := by
  unfold Syncer.carriedWire Syncer.setCarried
  by_cases same : other = dev
  · subst same
    simp
  · simp [same]

/-- Whatever else is kept about an uplink may change as long as its wire stays. -/
theorem BatchMarks.setCarried {carried : Carried} (wire : syncer.carriedWire dev ⊆ carried.wire) :
    BatchMarks syncer (syncer.setCarried dev (some carried)) := by
  refine ⟨rfl, fun other => ?_⟩
  rw [carriedWire_setCarried]
  split
  · rename_i same
    exact same ▸ wire
  · exact Finset.Subset.refl _

theorem carriedWire_of_carried {carried : Carried} (found : syncer.carried dev = some carried) :
    syncer.carriedWire dev = carried.wire := by
  simp [Syncer.carriedWire, found]

theorem BatchMarks.dropPorts {macs : List Mac} : BatchMarks syncer (syncer.dropPorts dev macs) := by
  unfold Syncer.dropPorts
  split
  · exact .of_carried rfl rfl
  · exact .refl _

theorem BatchMarks.noLongerKept {macs : List Mac} :
    BatchMarks syncer (syncer.noLongerKept dev macs) := by
  unfold Syncer.noLongerKept
  split
  · rename_i carried found
    exact .setCarried (carriedWire_of_carried found).subset
  · exact .refl _

theorem BatchMarks.freeSlots {count : Nat} : BatchMarks syncer (syncer.freeSlots dev count) := by
  unfold Syncer.freeSlots
  split
  · rename_i carried found
    exact .setCarried (carriedWire_of_carried found).subset
  · exact .refl _

theorem carriedWire_getD : ((syncer.carried dev).getD {}).wire = syncer.carriedWire dev := by
  unfold Syncer.carriedWire
  cases syncer.carried dev <;> rfl

theorem BatchMarks.addToWire {macs : List Mac} : BatchMarks syncer (syncer.addToWire dev macs) :=
  .setCarried (carriedWire_getD.symm.subset.trans Finset.subset_union_left)

theorem BatchMarks.leaveOccupancy {card : Name} {occupancy : Nat} :
    BatchMarks syncer (syncer.leaveOccupancy dev card occupancy) :=
  .setCarried carriedWire_getD.symm.subset

theorem savePorts_batch {topo : Topology} {passAt : Nat} :
    Within (InScope Set.univ removals) (savePorts dev topo passAt)
      (fun _ after => BatchMarks syncer after) syncer := by
  refine (savePorts_within (Set.mem_univ _)).imp ?_
  rintro _ _ ⟨_, rfl⟩
  exact .of_carried rfl rfl

theorem forgetReflected_within {topo : Topology} {ours : List Mac} {freed : Nat} :
    Within (InScope Set.univ removals) (forgetReflected topo dev ours freed)
      (fun _ after => BatchMarks syncer after) syncer := by
  rw [forgetReflected]
  split
  · refine BatchMarks.bind (within_modify ?_) fun _ middle => within_get savePorts_batch
    exact (BatchMarks.dropPorts.trans .noLongerKept).trans .freeSlots
  · exact within_pure.mpr (.refl _)

theorem reflectPair_within {topo : Topology} {seen : Finset Mac} {fp : FastPair} :
    Within (InScope Set.univ removals) (reflectPair topo seen fp)
      (fun _ after => BatchMarks syncer after) syncer := by
  rw [reflectPair]
  split
  · exact within_pure.mpr (.refl _)
  · have look {before : Syncer} : Within (InScope Set.univ removals) (loadOwned fp.dev)
        (fun _ after => BatchMarks before after) before :=
      (loadOwned_within (Set.mem_univ _)).imp fun _ _ marks => marks.batch
    refine BatchMarks.bind look fun known middle => ?_
    split
    · exact within_pure.mpr (.refl _)
    · refine BatchMarks.bind look fun owned middle => ?_
      refine BatchMarks.bind (within_ask.mpr ⟨inScope_idle rfl rfl, fun _ => .refl _⟩)
        fun order middle => ?_
      refine BatchMarks.bind ((retire_within (Set.mem_univ _) mem_removals).imp
        fun _ _ marks => marks.batch) fun retired middle => ?_
      refine BatchMarks.bind forgetReflected_within fun _ middle => ?_
      refine BatchMarks.bind ?_ fun _ middle => within_pure.mpr (.refl _)
      rw [rememberWire]
      split
      · exact within_modify .addToWire
      · exact within_pure.mpr (.refl _)

theorem reflectPairs_within {topo : Topology} {seen : Name → Finset Mac} {pairs : List FastPair} :
    Within (InScope Set.univ removals) (reflectPairs topo seen pairs)
      (fun _ after => BatchMarks syncer after) syncer := by
  induction pairs generalizing syncer with
  | nil => exact within_pure.mpr (.refl _)
  | cons fp rest ih =>
      refine BatchMarks.bind reflectPair_within fun now middle => ?_
      exact BatchMarks.bind ih fun _ middle => within_pure.mpr (.refl _)

theorem shedKeeps_within {index : Index} {need : Nat} {topo : Topology} {onCard : Finset Mac} :
    Within (InScope Set.univ removals) (shedKeeps dev index need topo onCard)
      (fun _ after => BatchMarks syncer after) syncer := by
  refine BatchMarks.bind ((loadOwned_within (Set.mem_univ _)).imp fun _ _ marks => marks.batch)
    fun _ middle => ?_
  refine BatchMarks.bind (noteIsReadable_within.imp fun _ _ marks => marks.batch)
    fun readable middle => ?_
  split
  · refine within_get ?_
    split
    · dsimp only
      split
      · exact within_pure.mpr (.refl _)
      · refine BatchMarks.bind ((retire_within (Set.mem_univ _) mem_removals).imp
          fun _ _ marks => marks.batch) fun retired middle => ?_
        split
        · exact within_pure.mpr (.refl _)
        · refine BatchMarks.bind (within_modify .dropPorts) fun _ middle => ?_
          refine BatchMarks.bind savePorts_batch fun _ middle => ?_
          refine BatchMarks.bind (within_modify .noLongerKept) fun _ middle => ?_
          exact BatchMarks.bind (within_ask.mpr ⟨inScope_idle rfl rfl, fun _ => .refl _⟩)
            fun _ middle => within_pure.mpr (.refl _)
    · exact within_pure.mpr (.refl _)
  · exact within_pure.mpr (.refl _)

theorem makeRoom_within {index : Index} {excess : Nat} {topo : Topology} {onCard : Finset Mac} :
    Within (InScope Set.univ removals) (makeRoom dev index excess topo onCard)
      (fun _ after => BatchMarks syncer after) syncer := by
  rw [makeRoom]
  split
  · exact shedKeeps_within
  · exact within_pure.mpr (.refl _)

theorem dateAll_batch {topo : Topology} {now : Nat} {events : List Event} :
    BatchMarks syncer (events.foldl (Syncer.dateOne topo now) syncer) := by
  obtain ⟨carriedPorts, same⟩ := @dateAll_marks syncer topo now events
  rw [same]
  exact .of_carried rfl rfl

theorem dateDeletions_within {topo : Topology} {events : List Event} :
    Within (InScope Set.univ removals) (dateDeletions topo events)
      (fun _ after => BatchMarks syncer after) syncer := by
  rw [dateDeletions]
  split
  · refine BatchMarks.bind (BatchMarks.bind (within_ask.mpr ⟨inScope_idle rfl rfl, fun _ => .refl _⟩)
      fun now middle => within_modify dateAll_batch) fun _ middle => within_pure.mpr (.refl _)
  · exact within_pure.mpr (.refl _)

end Marks

section Growth

variable {rule : AddRule} {admits : Exchange Call Reply → Prop} {syncer : Syncer} {past : History}
  {topo : Topology}

/-- A batch goes on from here: nothing was forgotten, neither of the exchanges nor
of the wire. -/
def GoesOn (start : Syncer) (past : History) (after : Syncer) (later : History) : Prop :=
  BatchMarks start after ∧ past <+: later

theorem GoesOn.refl : GoesOn syncer past syncer past := ⟨.refl _, List.prefix_refl past⟩

theorem GoesOn.trans {start middle after : Syncer} {between later : History}
    (first : GoesOn start past middle between) (second : GoesOn middle between after later) :
    GoesOn start past after later :=
  ⟨first.1.trans second.1, first.2.trans second.2⟩

theorem follows_safe {α : Type} {action : Sync α}
    (within : Within (InScope Set.univ removals) action (fun _ after => BatchMarks syncer after)
      syncer) :
    Safe (rule.env admits) action (fun _ after later => GoesOn syncer past after later)
      syncer past :=
  removing_safe within

/-- What a batch has read back, it was told in this history. -/
def ReadBack.IsFrom (cache : ReadBack) (past : History) : Prop :=
  ∀ index held, cache index = some held → ∃ entries,
    (⟨.dumpFdbOf index, Except.ok entries⟩ : Exchange Call Reply) ∈ past ∧
      held = selfList entries index

theorem ReadBack.IsFrom.later {cache : ReadBack} {later : History} (given : cache.IsFrom past)
    (held : past <+: later) : cache.IsFrom later := by
  intro index list found
  obtain ⟨entries, happened, same⟩ := given index list found
  exact ⟨entries, held.subset happened, same⟩

theorem readBack_safe {index : Index} {cache : ReadBack} (given : cache.IsFrom past) :
    Safe (rule.env admits) (readBack index cache)
      (fun result after later => (after = syncer ∧ past <+: later) ∧
        ∀ held cache', result = .ok (held, cache') → cache'.IsFrom later ∧
          cache' index = some held) syncer past := by
  unfold readBack
  split
  · rename_i held found
    refine ⟨⟨rfl, List.prefix_refl past⟩, ?_⟩
    rintro _ _ ⟨⟩
    exact ⟨given, found⟩
  · refine safe_bind.mpr (ask_continues rfl ?_)
    intro reply later happened held _
    cases reply with
    | error errno => exact ⟨⟨rfl, held⟩, by simp⟩
    | ok entries =>
        refine ⟨⟨rfl, held⟩, ?_⟩
        rintro list cache' ⟨⟩
        refine ⟨?_, Function.update_self ..⟩
        intro other list found
        by_cases same : other = index
        · subst same
          rw [Function.update_self] at found
          exact ⟨entries, happened, (Option.some.inj found).symm⟩
        · rw [Function.update_of_ne same] at found
          exact (given.later held) other list found

theorem loadOwned_safe {dev : Name} :
    Safe (rule.env admits) (loadOwned dev)
      (fun owned after later => GoesOn syncer past after later ∧ NoteMarks Set.univ syncer after ∧
        ∀ mac ∈ owned, ∃ macs steady,
          (⟨.readNote dev, NoteReading.lines macs steady⟩ : Exchange Call Reply) ∈ later ∧
            mac ∈ macs) syncer past := by
  refine safe_bind.mpr (ask_continues rfl ?_)
  intro reading later happened held _
  refine safe_bind.mpr (safe_modify.mpr (safe_pure.mpr ?_))
  have marks : NoteMarks Set.univ syncer (if reading.isSteady then
      syncer.sawNote dev reading.isReadable
    else (syncer.sawNote dev reading.isReadable).setIndex dev none) := by
    split
    · exact .sawNote
    · exact NoteMarks.sawNote.trans (.setIndex (Set.mem_univ _))
  refine ⟨⟨marks.batch, held⟩, marks, ?_⟩
  intro mac member
  cases reading with
  | absent => simp [NoteReading.owned] at member
  | unreadable => simp [NoteReading.owned] at member
  | lines macs steady => exact ⟨macs, steady, happened, List.mem_toFinset.mp member⟩

theorem holds_insert {candidates : Candidates} {dev other : Name} {learns : List (Mac × Index)}
    {learn : Mac × Index} :
    Candidates.holds (candidates.insert dev learns) other learn ↔
      if other = dev then learn ∈ learns else candidates.holds other learn := by
  unfold Candidates.holds
  by_cases same : other = dev
  · subst same
    simp [AList.lookup_insert]
  · simp [AList.lookup_insert_ne same, same]

/-- A candidate leaves the growing ones only as one read on the note and in the
card. -/
theorem growing_safe {pairs : List FastPair} {devs : List Name} {would : Candidates}
    {cache : ReadBack} (given : cache.IsFrom past) :
    Safe (rule.env admits) (growing pairs devs would cache)
      (fun result after later => (GoesOn syncer past after later ∧ NoteMarks Set.univ syncer after) ∧
        ∀ would' cache', result = .ok (would', cache') → cache'.IsFrom later ∧
          ∀ dev learn, would.holds dev learn → would'.holds dev learn ∨
            ∃ fp ∈ pairs, fp.dev = dev ∧ HeldNow later dev fp.anat.dev learn.1)
      syncer past := by
  induction devs generalizing syncer past would cache with
  | nil =>
      refine ⟨⟨.refl, .refl _⟩, ?_⟩
      rintro would' cache' ⟨⟩
      exact ⟨given, fun dev learn held => .inl held⟩
  | cons dev rest ih =>
      rw [growing]
      split
      · exact ih given
      · rename_i fp found
        have named : fp.dev = dev := by simpa using List.find?_some found
        have member := List.mem_of_find?_eq_some found
        refine safe_bind.mpr ((readBack_safe given).mono ?_)
        rintro result _ later1 ⟨⟨rfl, held1⟩, readBack⟩
        cases result with
        | error errno => exact ⟨⟨⟨.refl _, held1⟩, .refl _⟩, by simp⟩
        | ok outcome =>
            obtain ⟨present, cache1⟩ := outcome
            obtain ⟨given1, cached⟩ := readBack present cache1 rfl
            refine safe_bind.mpr (loadOwned_safe.mono ?_)
            rintro owned after2 later2 ⟨follows2, marks2, onNote⟩
            refine (ih (given1.later follows2.2)).mono ?_
            rintro result after3 later3 ⟨⟨follows3, marks3⟩, last⟩
            refine ⟨⟨⟨follows2.1.trans follows3.1, held1.trans (follows2.2.trans follows3.2)⟩,
              marks2.trans marks3⟩, ?_⟩
            intro would' cache' finished
            obtain ⟨given', kept⟩ := last would' cache' finished
            refine ⟨given', fun other learn held => ?_⟩
            by_cases vetted : other = dev ∧ learn.1 ∈ owned ∧ learn.1 ∈ present
            · obtain ⟨rfl, ours, inCard⟩ := vetted
              refine .inr ⟨fp, member, named, ?_⟩
              obtain ⟨macs, steady, read, inMacs⟩ := onNote learn.1 ours
              obtain ⟨entries, dumped, rfl⟩ := given1 fp.anat.dev present cached
              exact ⟨⟨macs, steady, follows3.2.subset read, inMacs⟩, entries,
                follows3.2.subset (follows2.2.subset dumped), inCard⟩
            · refine kept other learn (holds_insert.mpr ?_)
              split
              · rename_i same
                subst same
                refine List.mem_filter.mpr ⟨held, ?_⟩
                simp only [true_and, not_and] at vetted
                simpa [imp_iff_not_or] using vetted
              · exact held

/-- The pair of the fast path is about an uplink of this process in this
reading. -/
def FastPair.Fits (fp : FastPair) (syncer : Syncer) (topo : Topology) : Prop :=
  ∃ pair ∈ syncer.pairs, ∃ index bridge, pair.dev = fp.dev ∧ topo.indexOf fp.dev = some index ∧
    topo.indexOf pair.bridge = some bridge ∧ topo.anatomy index bridge = some fp.anat

theorem FastPair.Fits.indexOf {fp : FastPair} (fits : fp.Fits syncer topo) :
    topo.indexOf fp.dev = some fp.anat.dev := by
  obtain ⟨pair, -, index, bridge, -, located, -, found⟩ := fits
  rw [located, Topology.anatomy_dev found]

theorem FastPair.Fits.functions_subset {fp : FastPair} {devs : List Name}
    (fits : fp.Fits syncer topo) (named : fp.dev ∈ devs) :
    fp.anat.functions ⊆ topo.livePfs devs := by
  have located := fits.indexOf
  obtain ⟨pair, -, index, bridge, -, found, -, anatomy⟩ := fits
  intro pf member
  rw [Topology.anatomy_functions anatomy] at member
  exact Topology.mem_livePfs.mpr ⟨fp.dev, named, index, found, member⟩

theorem Candidates.mem_devs {candidates : Candidates} {dev : Name} {learn : Mac × Index}
    (held : candidates.holds dev learn) : dev ∈ candidates.devs := by
  have nonempty : (candidates.lookup dev).getD [] ≠ [] := List.ne_nil_of_mem held
  have known : dev ∈ candidates.keys := by
    rw [← AList.mem_keys, ← AList.lookup_isSome]
    cases found : candidates.lookup dev with
    | none => simp [found] at nonempty
    | some learns => rfl
  exact List.mem_toFinset.mpr (List.mem_filter.mpr ⟨known, by simpa using nonempty⟩)

/-- How the exclusions a batch commits by came about: the answer behind them was
given in this history, or the candidate was read where it is put. -/
def Vouched (syncer : Syncer) (topo : Topology) (past : History) (fp : FastPair)
    (vfMacs : List (Index × Mac)) (mac : Mac) : Prop :=
  mac ∉ syncer.exclusions topo fp.anat vfMacs ∧
    (AnsweredNow past fp.anat.functions vfMacs ∨ HeldNow past fp.dev fp.anat.dev mac)

/-- What refreshing promises for the pairs a batch commits by. -/
def Refreshed (start now : Syncer) (topo : Topology) (events : List Event)
    (pairs committed : List FastPair) (past : History) : Prop :=
  ∃ vfMacs, (∀ fp ∈ committed, ∃ before ∈ pairs,
      fp = { before with skip := start.exclusions topo before.anat vfMacs }) ∧
    ∀ event ∈ events, ∀ master, Learns topo event master → ∀ fp ∈ committed,
      now.Considers .commit event.2 master fp →
        Vouched start topo past fp vfMacs event.2.mac

/-- A candidate of the commit phase was one of the decide phase. -/
theorem considers_decide {entry : FdbEntry} {master : Index} {fp : FastPair}
    {old fresh : List (Index × Mac)} (skip : fp.skip = syncer.exclusions topo fp.anat old)
    (vfOwn : fp.vfOwn = vfReported fp.anat.functions old)
    (considers : syncer.Considers .commit entry master
      { fp with skip := syncer.exclusions topo fp.anat fresh }) :
    syncer.Considers .decide entry master fp := by
  obtain ⟨apart, ⟨-, impossible, -⟩ | ⟨freed, offWire, behind, unseen⟩⟩ := considers
  · cases impossible
  · refine ⟨apart, ?_⟩
    by_cases excluded : entry.mac ∈ fp.skip
    · refine .inl ⟨excluded, rfl, ?_⟩
      rw [vfOwn]
      exact mem_vfReported_of_excluded (skip ▸ excluded) freed
    · exact .inr ⟨excluded, offWire, behind, unseen⟩

theorem considers_congr {other : Syncer} {phase : FastPhase} {entry : FdbEntry} {master : Index}
    {fp : FastPair} (same : other.carriedWire = syncer.carriedWire)
    (considers : other.Considers phase entry master fp) :
    syncer.Considers phase entry master fp := by
  unfold Syncer.Considers at considers ⊢
  rwa [same] at considers

theorem carriedWire_of_noteMarks {after : Syncer} (marks : NoteMarks Set.univ syncer after) :
    after.carriedWire = syncer.carriedWire := by
  obtain ⟨_, _, _, rfl⟩ := marks
  rfl

theorem refreshForGrowth_safe {pfs : List Index} {answer : Answer} {events : List Event}
    {pairs : List FastPair} (given : answer.IsFrom pfs past)
    (asksAll : ∀ fp ∈ pairs, fp.anat.functions ⊆ pfs)
    (fits : ∀ fp ∈ pairs, fp.Fits syncer topo ∧
      fp.skip = syncer.exclusions topo fp.anat answer.vfMacs ∧
      fp.vfOwn = if answer.carried then vfReported fp.anat.functions answer.vfMacs else ∅) :
    Safe (rule.env admits) (refreshForGrowth topo pfs answer events pairs)
      (fun result after later => (GoesOn syncer past after later) ∧
        ∀ committed cache, result = .ok (committed, cache) → cache.IsFrom later ∧
          Refreshed syncer after topo events pairs committed later) syncer past := by
  have unread : ReadBack.IsFrom (fun _ => none) past := by
    intro index held found
    cases found
  have same : ∀ fp ∈ pairs, fp = { fp with skip := syncer.exclusions topo fp.anat answer.vfMacs } :=
    fun fp member => by rw [← (fits fp member).2.1]
  have notExcluded {now : Syncer} {entry : FdbEntry} {master : Index} {fp : FastPair}
      (considers : now.Considers .commit entry master fp) : entry.mac ∉ fp.skip := by
    obtain ⟨-, ⟨-, impossible, -⟩ | ⟨freed, -⟩⟩ := considers
    · cases impossible
    · exact freed
  unfold refreshForGrowth
  split
  · rename_i carried
    refine safe_bind.mpr (safe_get.mpr (safe_bind.mpr (ask_continues rfl ?_)))
    intro devs later1 _ held1 _
    refine safe_bind.mpr ((growing_safe (unread.later held1)).mono ?_)
    rintro result after2 later2 ⟨⟨follows2, marks2⟩, grown⟩
    have start2 : GoesOn syncer past after2 later2 := ⟨follows2.1, held1.trans follows2.2⟩
    cases result with
    | error errno => exact ⟨start2, by simp⟩
    | ok outcome =>
        obtain ⟨would, cache⟩ := outcome
        obtain ⟨given2, kept⟩ := grown would cache rfl
        -- what the commit phase takes is still growing, or was read in its place
        have settled : ∀ event ∈ events, ∀ master, Learns topo event master → ∀ fp ∈ pairs,
            syncer.Considers .decide event.2 master fp →
              would.holds fp.dev (event.2.mac, event.2.ifindex) ∨
                HeldNow later2 fp.dev fp.anat.dev event.2.mac := by
          intro event inEvents master learns fp member considers
          have candidate := holds_fastAddAll.mpr
            ⟨event, inEvents, master, fp, learns, member, rfl, rfl, considers⟩
          rcases kept _ _ candidate with growing | ⟨other, inPairs, named, held⟩
          · exact .inl growing
          · have located := (fits other inPairs).1.indexOf
            rw [named, (fits fp member).1.indexOf] at located
            rw [← Option.some.inj located] at held
            exact .inr held
        dsimp only
        split
        · rename_i nothing
          refine ⟨start2, ?_⟩
          rintro committed cache' ⟨⟩
          refine ⟨given2, answer.vfMacs, fun fp member => ⟨fp, member, same fp member⟩, ?_⟩
          intro event inEvents master learns fp member considers
          refine ⟨(fits fp member).2.1 ▸ notExcluded considers, .inr ?_⟩
          have before := considers_congr (carriedWire_of_noteMarks marks2) considers
          rw [same fp member] at before
          have decided := considers_decide (fits fp member).2.1
            ((fits fp member).2.2.trans (if_pos carried)) before
          rcases settled event inEvents master learns fp member decided with growing | held
          · exact absurd (Candidates.mem_devs growing) (nothing ▸ Finset.notMem_empty _)
          · exact held
        · refine safe_bind.mpr (safe_modify.mpr (safe_bind.mpr (ask_continues rfl ?_)))
          intro order later3 _ held3 _
          refine safe_bind.mpr (ask_continues rfl ?_)
          intro reply later4 happened held4 _
          have start4 : past <+: later4 := start2.2.trans (held3.trans held4)
          cases reply with
          | error errno => exact ⟨⟨⟨start2.1.1, start2.1.2⟩, start4⟩, by simp⟩
          | ok reply =>
              refine safe_bind.mpr (safe_modify.mpr (safe_bind.mpr (safe_get.mpr ?_)))
              refine ⟨⟨⟨start2.1.1, start2.1.2⟩, start4⟩, ?_⟩
              rintro committed cache' ⟨⟩
              refine ⟨given2.later (held3.trans held4),
                answer.vfMacs.filter (·.1 ∉ topo.livePfs order.list) ++ reply, ?_, ?_⟩
              · intro fp member
                obtain ⟨before, inPairs, rfl⟩ := List.mem_map.mp member
                refine ⟨before, inPairs, ?_⟩
                congr 1
                exact exclusions_congr (congrArg Settings.exclude start2.1.1)
              · intro event inEvents master learns fp member considers
                obtain ⟨before, inPairs, rfl⟩ := List.mem_map.mp member
                have sameSkip : ∀ vfMacs, ({ after2 with vfStale := true }.rememberVf pfs
                    vfMacs).exclusions topo before.anat vfMacs =
                      syncer.exclusions topo before.anat vfMacs := fun vfMacs =>
                  exclusions_congr (congrArg Settings.exclude start2.1.1)
                rw [sameSkip] at considers ⊢
                refine ⟨notExcluded considers, ?_⟩
                have earlier : syncer.Considers _ _ _ _ :=
                  considers_congr (carriedWire_of_noteMarks marks2) considers
                have decided := considers_decide (fits before inPairs).2.1
                  ((fits before inPairs).2.2.trans (if_pos carried)) earlier
                rcases settled event inEvents master learns before inPairs decided with
                  growing | held
                · refine .inl ⟨_, reply, happened, ?_, ?_⟩
                  · exact (fits before inPairs).1.functions_subset
                      ((order.mem_iff _).mpr (Candidates.mem_devs growing))
                  · intro entry function
                    have covered := (fits before inPairs).1.functions_subset
                      ((order.mem_iff _).mpr (Candidates.mem_devs growing)) function
                    simp [covered]
                · exact .inr (held.later (held3.trans held4))
  · rename_i fresh
    refine ⟨.refl, ?_⟩
    rintro committed cache ⟨⟩
    refine ⟨unread, answer.vfMacs, fun fp member => ⟨fp, member, same fp member⟩, ?_⟩
    intro event inEvents master learns fp member considers
    refine ⟨(fits fp member).2.1 ▸ notExcluded considers, .inl ?_⟩
    exact ⟨pfs, answer.vfMacs, given (by simpa using fresh), asksAll fp member,
      fun _ _ => Iff.rfl⟩

theorem mem_lastPorts {learns : List (Mac × Index)} {mac : Mac}
    (member : mac ∈ (lastPorts learns).keys) : ∃ port, (mac, port) ∈ learns := by
  have step : ∀ (learns : List (Mac × Index)) (table : LearntAt),
      mac ∈ (learns.foldl (fun table learn => table.insert learn.1 learn.2) table).keys →
        mac ∈ table.keys ∨ ∃ port, (mac, port) ∈ learns := by
    intro learns
    induction learns with
    | nil => exact fun table member => .inl member
    | cons learn rest ih =>
        intro table member
        rcases ih _ member with known | ⟨port, later⟩
        · rw [← AList.mem_keys, AList.mem_insert, AList.mem_keys] at known
          rcases known with rfl | known
          · exact .inr ⟨learn.2, by simp⟩
          · exact .inl known
        · exact .inr ⟨port, by simp [later]⟩
  simpa using step learns ∅ member

theorem registerLearns_safe {fp : FastPair} {learns : List (Mac × Index)} {cache : ReadBack}
    (given : cache.IsFrom past)
    (allowed : ∀ learn ∈ learns, rule.allows past fp.anat.dev learn.1) :
    Safe (rule.env admits) (registerLearns topo fp learns cache)
      (fun result after later => GoesOn syncer past after later ∧
        ∀ cache', result = .ok cache' → cache'.IsFrom later) syncer past := by
  refine safe_bind.mpr (ask_continues rfl ?_)
  intro now later1 _ held1 _
  refine safe_bind.mpr (safe_modify.mpr ?_)
  have stamped : BatchMarks syncer
      (if fp.dev ∈ syncer.portsLoaded then
        syncer.setPorts fp.dev <| some <|
          (ascending (lastPorts learns).keys.toFinset).foldl
            (fun ports mac => noteSeen ports mac ((lastPorts learns).lookup mac) now)
            ((syncer.carriedPorts fp.dev).getD ∅)
      else syncer) := by
    split
    · exact .of_carried rfl rfl
    · exact .refl _
  refine safe_bind.mpr ((readBack_safe (given.later held1)).mono ?_)
  rintro result _ later2 ⟨⟨rfl, held2⟩, readBack⟩
  have start2 : GoesOn syncer past _ later2 := ⟨stamped, held1.trans held2⟩
  cases result with
  | error errno => exact ⟨start2, by simp⟩
  | ok outcome =>
      obtain ⟨onCard, cache1⟩ := outcome
      obtain ⟨given1, -⟩ := readBack onCard cache1 rfl
      refine safe_bind.mpr (safe_get.mpr ?_)
      dsimp only
      refine safe_bind.mpr ((follows_safe makeRoom_within).mono ?_)
      intro freed after3 later3 goes3
      refine safe_bind.mpr ((follows_safe ((noteIndex_within (Set.mem_univ _) mem_removals).imp
        fun _ _ marks => marks.batch)).mono ?_)
      intro _ after4 later4 goes4
      have start4 := start2.trans (goes3.trans goes4)
      have registered : Safe (rule.env admits) (registerCounted fp.dev fp.anat.dev
          (ascending (lastPorts learns).keys.toFinset))
          (fun _ after later => GoesOn after4 later4 after later) after4 later4 := by
        refine safe_bind.mpr ((registerBatchLocked_allowed ?_).mono ?_)
        · intro mac member
          obtain ⟨port, learnt⟩ := mem_lastPorts (List.mem_toFinset.mp (mem_ascending.mp member))
          exact rule.grows start4.2 (allowed _ learnt)
        · rintro registered after later ⟨marks, held⟩
          have goes : GoesOn after4 later4 after later := ⟨marks.batch, held⟩
          cases registered <;> exact goes
      refine safe_bind.mpr (registered.mono ?_)
      intro put after5 later5 goes5
      refine safe_bind.mpr (safe_modify.mpr ?_)
      have last := start4.trans goes5
      refine ⟨⟨last.1.trans .leaveOccupancy, last.2⟩, ?_⟩
      rintro cache' ⟨⟩
      exact given1.later (goes3.2.trans (goes4.2.trans goes5.2))

theorem registerEach_safe {pairs : List FastPair} {candidates : Candidates} {devs : List Name}
    {cache : ReadBack} (given : cache.IsFrom past)
    (allowed : ∀ fp ∈ pairs, ∀ learn, candidates.holds fp.dev learn →
      rule.allows past fp.anat.dev learn.1) :
    Safe (rule.env admits) (registerEach topo pairs candidates devs cache)
      (fun _ after later => GoesOn syncer past after later) syncer past := by
  induction devs generalizing syncer past cache with
  | nil => exact .refl
  | cons dev rest ih =>
      rw [registerEach]
      split
      · exact ih given allowed
      · rename_i fp found
        have named : fp.dev = dev := by simpa using List.find?_some found
        have member := List.mem_of_find?_eq_some found
        refine safe_bind.mpr ((registerLearns_safe given ?_).mono ?_)
        · intro learn held
          exact allowed fp member learn (named ▸ held)
        · rintro result after later ⟨goes, readBack⟩
          cases result with
          | error errno => exact goes
          | ok cache' =>
              refine (ih (readBack cache' rfl) fun fp member learn held =>
                rule.grows goes.2 (allowed fp member learn held)).mono ?_
              exact fun _ _ _ goes' => goes.trans goes'

/-- The batch reports the address learnt on this uplink's port or a sibling. -/
def Reports (events : List Event) (anat : Anatomy) (mac : Mac) : Prop :=
  ∃ event ∈ events, event.1 = .newNeigh ∧ event.2.isLearned ∧ event.2.isUnicast ∧
    (event.2.ifindex = anat.port ∨ event.2.ifindex ∈ anat.siblings) ∧ event.2.mac = mac

theorem mem_seenOnWire {pairs : List FastPair} {events : List Event} {fp : FastPair} {mac : Mac}
    (member : fp ∈ pairs) (reports : Reports events fp.anat mac) :
    mac ∈ seenOnWire pairs events fp.dev := by
  obtain ⟨event, inEvents, kind, learned, unicast, onWire, rfl⟩ := reports
  refine List.mem_toFinset.mpr (List.mem_map.mpr ⟨event, List.mem_filter.mpr ⟨inEvents, ?_⟩, rfl⟩)
  simp only [decide_eq_true_eq]
  exact ⟨kind, learned, unicast, fp, member, rfl, onWire⟩

/-- A rule under which a batch may add what it learns behind the bridge. -/
def AddRule.CoversBatch (rule : AddRule) (start : Syncer) (topo : Topology)
    (events : List Event) : Prop :=
  ∀ fp : FastPair, fp.Fits start topo → ∀ (mac : Mac) (past : History) vfMacs,
    mac ∉ start.carriedWire fp.dev → ¬ Reports events fp.anat mac →
    Vouched start topo past fp vfMacs mac → rule.allows past fp.anat.dev mac

theorem applyLearns_safe {events : List Event} {urgency : Urgency} {start : Syncer}
    (begun : BatchMarks start syncer) (covers : rule.CoversBatch start topo events) :
    Safe (rule.env admits) (applyLearns topo events urgency)
      (fun _ after later => GoesOn syncer past after later) syncer past := by
  refine safe_bind.mpr (safe_get.mpr ?_)
  dsimp only
  refine safe_bind.mpr ((askDriver_safe.and (follows_safe ?_)).mono ?_)
  · refine within_get ?_
    split
    · exact within_pure.mpr (.refl _)
    · refine BatchMarks.bind (within_ask.mpr ⟨inScope_idle rfl rfl, fun _ => .refl _⟩)
        fun reply middle => ?_
      cases reply with
      | error errno => exact within_pure.mpr (.refl _)
      | ok fresh =>
          exact BatchMarks.bind (within_modify (.of_carried rfl rfl)) fun _ middle =>
            within_pure.mpr (.refl _)
  rintro result after1 later1 ⟨⟨-, given⟩, goes1⟩
  cases result with
  | error errno => exact goes1
  | ok answer =>
      refine safe_bind.mpr (safe_get.mpr (safe_bind.mpr
        ((follows_safe reflectPairs_within).mono ?_)))
      intro reflected after2 later2 goes2
      have start2 : BatchMarks syncer after2 := goes1.1.trans goes2.1
      have samePairs : after1.pairs = syncer.pairs := congrArg Settings.pairs goes1.1.1
      have samePairs2 : after2.pairs = syncer.pairs := congrArg Settings.pairs start2.1
      refine safe_bind.mpr ((refreshForGrowth_safe ((given answer rfl).later goes2.2) ?_ ?_).mono ?_)
      · intro fp member
        obtain ⟨before, inPairs, rfl⟩ := List.mem_map.mp member
        obtain ⟨pair, known, index, bridge, named, located, above, found, -⟩ := mem_fastPairs inPairs
        have fits : before.Fits syncer topo :=
          ⟨pair, samePairs ▸ known, index, bridge, named, located, above, found⟩
        refine fits.functions_subset ?_
        exact List.mem_map.mpr ⟨pair, samePairs ▸ known, named⟩
      · intro fp member
        obtain ⟨before, inPairs, rfl⟩ := List.mem_map.mp member
        obtain ⟨pair, known, index, bridge, named, located, above, found, -, skip, vfOwn⟩ :=
          mem_fastPairs inPairs
        refine ⟨⟨pair, ?_, index, bridge, named, located, above, found⟩, ?_, vfOwn⟩
        · rw [samePairs2, ← samePairs]
          exact known
        · refine skip.trans (exclusions_congr ?_).symm
          exact congrArg Settings.exclude goes2.1.1
      · rintro result after3 later3 ⟨goes3, refreshed⟩
        have start3 : GoesOn syncer past after3 later3 := goes1.trans (goes2.trans goes3)
        cases result with
        | error errno => exact start3
        | ok outcome =>
            obtain ⟨committed, cache⟩ := outcome
            obtain ⟨given3, vfMacs, made, vouched⟩ := refreshed committed cache rfl
            refine safe_bind.mpr (safe_get.mpr ?_)
            refine safe_bind.mpr (ask_continues rfl ?_)
            intro devs later4 _ held4 _
            refine safe_bind.mpr ((registerEach_safe (given3.later held4) ?_).mono ?_)
            · intro fp member learn held
              obtain ⟨event, inEvents, master, other, learns, inCommitted, named, rfl, considers⟩ :=
                holds_fastAddAll.mp held
              have promise := vouched event inEvents master learns other inCommitted considers
              obtain ⟨before, inPairs, rfl⟩ := made fp member
              obtain ⟨before', inPairs', rfl⟩ := made other inCommitted
              obtain ⟨original, inFast, rfl⟩ := List.mem_map.mp inPairs
              obtain ⟨original', inFast', rfl⟩ := List.mem_map.mp inPairs'
              have fit : ∀ fp ∈ after1.fastPairs topo answer, fp.Fits start topo := by
                intro fp member
                obtain ⟨pair, known, index, bridge, named, located, above, found, -⟩ :=
                  mem_fastPairs member
                refine ⟨pair, ?_, index, bridge, named, located, above, found⟩
                rw [← show syncer.pairs = start.pairs from congrArg Settings.pairs begun.1,
                  ← samePairs]
                exact known
              have sameDev : original.anat.dev = original'.anat.dev := by
                have located := (fit original inFast).indexOf
                have located' := (fit original' inFast').indexOf
                rw [show original.dev = original'.dev from named, located'] at located
                exact (Option.some.inj located).symm
              have offWire : event.2.mac ∉ start.carriedWire original'.dev := by
                obtain ⟨-, ⟨-, impossible, -⟩ | ⟨-, offWire, -⟩⟩ := considers
                · cases impossible
                · exact fun onWire => offWire
                    ((begun.trans start3.1).2 original'.dev onWire)
              have unreported : ¬ Reports events original'.anat event.2.mac := by
                obtain ⟨-, ⟨-, impossible, -⟩ | ⟨-, -, -, unseen⟩⟩ := considers
                · cases impossible
                · exact fun reports => unseen (mem_seenOnWire inFast' reports)
              have sameSkip : after2.exclusions topo original'.anat vfMacs =
                  start.exclusions topo original'.anat vfMacs :=
                exclusions_congr (congrArg Settings.exclude (begun.trans start2).1)
              obtain ⟨freed, grounds⟩ := promise
              show rule.allows later4 original.anat.dev event.2.mac
              rw [sameDev]
              refine rule.grows held4 (covers original' (fit original' inFast') event.2.mac later3
                vfMacs offWire unreported ⟨?_, grounds⟩)
              exact sameSkip ▸ freed
            · rintro result after5 later5 goes5
              have last : GoesOn syncer past after5 later5 :=
                ⟨start3.1.trans goes5.1, start3.2.trans (held4.trans goes5.2)⟩
              cases result <;> exact last

/-- A batch adds only what the rule allows, for every state, reading and run. -/
theorem fastApply_safe {events : List Event} (covers : rule.CoversBatch syncer topo events) :
    Safe (rule.env admits) (fastApply topo events)
      (fun _ after later => GoesOn syncer past after later) syncer past := by
  unfold fastApply
  split
  · exact .refl
  · refine safe_bind.mpr (safe_get.mpr ?_)
    split
    · exact .refl
    · refine safe_bind.mpr ((follows_safe dateDeletions_within).mono ?_)
      intro urgency after later goes
      split
      · refine (applyLearns_safe goes.1 covers).mono ?_
        exact fun _ _ _ goes' => goes.trans goes'
      · exact goes

end Growth

end SriovMacSync
