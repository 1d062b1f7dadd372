import SriovMacSync.Custody.Bookkeeping
import SriovMacSync.Interaction.Processes

namespace SriovMacSync

open Data Netlink Interaction Interaction.Action

/-! Every operation of a process takes the books of an uplink from rest to rest. -/

variable {regime : Regime} {dev : Name} {home : Index} {syncer : Syncer} {books : Books}
  {topo : Topology}

/-- What a process may be asked to do. -/
inductive Undertaking (syncer : Syncer) : Program Call Reply Syncer → Prop where
  | pass (apply : Bool) (topo : Topology) : Undertaking syncer ((reconcile apply topo).leaving syncer)
  | batch (topo : Topology) (events : List Event) :
      Undertaking syncer ((fastApply topo events).leaving syncer)
  | flush : Undertaking syncer (flush.leaving syncer)
  /-- the daemon looks anew at its pairs and limits, or hears of a function's change -/
  | told (settings : Settings) (vfStale : Bool) :
      Undertaking syncer (.done { syncer with toSettings := settings, vfStale })

/-- What a process may be asked to do while the uplink keeps its name and index. -/
inductive Operation (dev : Name) (home : Index) (syncer : Syncer) :
    Program Call Reply Syncer → Prop where
  | pass (apply : Bool) (topo : Topology) (keeps : topo.Keeps dev home) :
      Operation dev home syncer ((reconcile apply topo).leaving syncer)
  | batch (topo : Topology) (events : List Event) (keeps : topo.Keeps dev home) :
      Operation dev home syncer ((fastApply topo events).leaving syncer)
  | flush : Operation dev home syncer (flush.leaving syncer)
  /-- the daemon looks anew at its pairs and limits, or hears of a function's change -/
  | told (settings : Settings) (vfStale : Bool) :
      Operation dev home syncer (.done { syncer with toSettings := settings, vfStale })

theorem recordedIndex_books (rest : books.Rest regime) (recalls : syncer.Recalls dev home)
    {name : Name} :
    Safe (bookkeeping regime dev home) (recordedIndex name)
      (fun recorded after books' => after = syncer ∧ books' = books ∧
        (name = dev → recorded = none ∨ recorded = some home)) syncer books := by
  refine safe_bind.mpr (safe_get.mpr ?_)
  split
  · rename_i index remembered
    refine ⟨rfl, rfl, ?_⟩
    rintro rfl
    rcases recalls with unknown | known
    · cases remembered.symm.trans unknown
    · exact .inr (remembered.symm.trans known)
  · refine (notedIndex_identifies rest).mono ?_
    rintro record _ _ ⟨rfl, rfl, own, -⟩
    exact ⟨rfl, rfl, own⟩

theorem bookDiscipline_settles {reading : Reading} (keeps : reading.topo.Keeps dev home) :
    (@bookDiscipline regime dev home _ keeps).Settles := by
  rintro name index syncer books located ⟨rest, recalls⟩
  have place := keeps.get_iff located
  refine safe_bind.mpr ((recordedIndex_books rest recalls).mono ?_)
  rintro recorded _ _ ⟨rfl, rfl, own⟩
  split
  · exact ⟨rest, recalls, place, fun _ => .nothing⟩
  · rename_i foreign
    have apart : name ≠ dev := by
      rintro rfl
      rcases own rfl with none | same
      · exact foreign (.inl none)
      · exact foreign (.inr (same.trans (congrArg some (place.mp rfl).symm)))
    refine safe_bind.mpr (safe_get.mpr ?_)
    split
    · exact ⟨rest, recalls⟩
    · refine safe_bind.mpr (((bookDiscipline keeps).targets ⟨rest, recalls⟩).mono ?_)
      rintro target after books' ⟨standing, moving⟩
      split
      · refine ((bookDiscipline keeps).followRename_rests (moving _ _ rfl)).mono ?_
        rintro moved after _ ⟨rest, recalls⟩
        cases moved with
        | true => exact bookStage_elsewhere rest recalls place apart
        | false => exact ⟨rest, recalls⟩
      · obtain ⟨rest, recalls⟩ := standing
        refine safe_bind.mpr ((elsewhere_safe (locked_within apart (removeNote_within apart)) rest
          recalls).mono ?_)
        rintro _ after _ ⟨recalls, rfl⟩
        exact safe_bind.mpr (safe_modify.mpr (safe_pure.mpr
          (bookStage_elsewhere rest recalls place apart)))

theorem flushTarget_elsewhere (keeps : topo.Keeps dev home) (rest : books.Rest regime)
    {name : Name} (apart : name ≠ dev) :
    Safe (bookkeeping regime dev home) (flushTarget name topo)
      (fun target after books' => after = syncer ∧ books' = books ∧
        ∀ index, target = some index → index ≠ home) syncer books := by
  refine safe_bind.mpr (Safe.mono (spares_safe ((notedLink_within apart).mono
    (fun _ => spares_elsewhere) fun _ _ holds => holds) rest.sound) ?_)
  rintro found _ _ ⟨⟨rfl, located⟩, rfl⟩
  cases found with
  | some link =>
      refine ⟨rfl, rfl, ?_⟩
      rintro _ ⟨⟩ same
      exact apart ((keeps.get_iff (Topology.get_spec (located link rfl)).1).mpr same)
  | none =>
      refine safe_map.mpr ((renamedTarget_elsewhere keeps rest).mono ?_)
      rintro found _ _ ⟨rfl, rfl, elsewhere⟩
      refine ⟨rfl, rfl, ?_⟩
      rintro index found'
      obtain ⟨⟨index', new⟩, rfl, rfl⟩ := Option.map_eq_some_iff.mp found'
      exact (elsewhere index' new rfl).2.2

theorem flushEntries_elsewhere (keeps : topo.Keeps dev home) (rest : books.Rest regime)
    {name : Name} (apart : name ≠ dev) {owned : Finset Mac} :
    Safe (bookkeeping regime dev home) (flushEntries name topo owned)
      (fun _ after books' => after = syncer ∧ books' = books) syncer books := by
  refine safe_bind.mpr ((flushTarget_elsewhere keeps rest apart).mono ?_)
  rintro target _ _ ⟨rfl, rfl, elsewhere⟩
  cases target with
  | none => exact ⟨rfl, rfl⟩
  | some index =>
      refine safe_bind.mpr (Safe.mono (spares_safe ((unregisterAll_within
        (mem_elsewhere false (elsewhere index rfl))).mono
          (fun _ => spares_elsewhere) fun _ _ same => same) rest.sound) ?_)
      rintro result _ _ ⟨rfl, rfl⟩
      exact ⟨rfl, rfl⟩

/-- A section on another note. -/
theorem locked_elsewhere {name : Name} {work : Section} {α : Type} {body : Sync α}
    (apart : name ≠ dev) (rest : books.Rest regime)
    (works : Safe (bookkeeping regime dev home) body
      (fun _ after books' => after.Recalls dev home ∧ books' = books) syncer books) :
    Safe (bookkeeping regime dev home) (locked name work body)
      (fun _ after books' => after.Recalls dev home ∧ books' = books) syncer books := by
  have asks {request : Call} (spares : request.Spares dev home) {now : Syncer} :
      Safe (bookkeeping regime dev home) (ask request)
        (fun _ after books' => after = now ∧ books' = books) now books :=
    spares_safe (within_ask.mpr ⟨spares, fun _ => rfl⟩) rest.sound
  refine safe_bind.mpr ((asks ?_).mono ?_)
  · simp [Call.Spares, Call.Touches, Call.RecordsRight, Call.locks, apart]
  rintro _ _ _ ⟨rfl, rfl⟩
  refine safe_bind.mpr (works.mono ?_)
  rintro value now _ ⟨recalls, rfl⟩
  refine safe_bind.mpr ((asks ?_).mono ?_)
  · simp [Call.Spares, Call.Touches, Call.RecordsRight, Call.locks, apart]
  rintro _ _ _ ⟨rfl, rfl⟩
  exact ⟨recalls, rfl⟩

/-- A flush of another note reaches only what that note is about. -/
theorem flushNote_elsewhere (keeps : topo.Keeps dev home) (rest : books.Rest regime)
    (recalls : syncer.Recalls dev home) {name : Name} (apart : name ≠ dev) :
    Safe (bookkeeping regime dev home) (flushNote name topo)
      (fun _ after books' => after.Recalls dev home ∧ books' = books) syncer books := by
  refine locked_elsewhere apart rest ?_
  refine safe_bind.mpr ((elsewhere_safe (loadOwned_within apart) rest recalls).mono ?_)
  rintro owned now _ ⟨recalls, rfl⟩
  refine safe_bind.mpr ((flushEntries_elsewhere keeps rest apart).mono ?_)
  rintro kept _ _ ⟨rfl, rfl⟩
  refine safe_bind.mpr (safe_bind.mpr (safe_get.mpr (safe_pure.mpr ?_)))
  split
  · split
    · exact safe_bind.mpr ((elsewhere_safe (removeNote_within apart) rest recalls).mono
        fun _ _ _ holds => holds)
    · exact safe_bind.mpr ((elsewhere_safe (writeOwned_within apart) rest recalls).mono
        fun _ _ _ holds => holds)
  · exact ⟨recalls, rfl⟩

theorem flush_rests (rest : books.Rest regime) (recalls : syncer.Recalls dev home) :
    Safe (bookkeeping regime dev home) flush
      (fun _ after books' => books'.Rest regime ∧ after.Recalls dev home) syncer books := by
  obtain ⟨permitted, same⟩ := spares_same rest.sound
    (spares_looks rfl : Call.Spares .dumpLinks dev home)
  refine safe_bind.mpr (safe_ask.mpr ⟨permitted, fun reading after answered => ?_⟩)
  obtain rfl := same reading after answered
  cases reading with
  | error errno => exact ⟨rest, recalls⟩
  | ok topo =>
      have keeps : topo.Keeps dev home := answered.1 topo rfl
      have standing : (@bookDiscipline regime dev home _ keeps).stage .rest syncer after :=
        ⟨rest, recalls⟩
      refine safe_bind.mpr (safe_bind.mpr ((bookDiscipline keeps).look rfl standing
        fun listing _ standing => safe_pure.mpr ?_))
      cases listing with
      | error errno => exact standing
      | ok devs =>
          refine safe_bind.mpr (((bookDiscipline keeps).flushNotes_rests ?_ standing).mono
            fun _ _ _ standing => standing)
          rintro name now books ⟨rest, recalls⟩
          by_cases own : name = dev
          · subst own
            exact flushNote_rests keeps rest recalls
          · refine (flushNote_elsewhere keeps rest recalls own).mono ?_
            rintro _ after _ ⟨recalls, rfl⟩
            exact ⟨rest, recalls⟩

/-- Every operation takes settled books to settled books. -/
theorem Operation.safe {program : Program Call Reply Syncer}
    (operation : Operation dev home syncer program)
    (standing : books.Rest regime ∧ syncer.Recalls dev home) :
    program.Safe (bookkeeping regime dev home)
      (fun after books' => books'.Rest regime ∧ after.Recalls dev home) books := by
  cases operation with
  | pass apply topo keeps =>
      exact Safe.leaving ((bookDiscipline keeps).reconcile_rests
        (fun _ _ _ => bookDiscipline_settles keeps) standing)
  | batch topo events keeps =>
      refine Safe.leaving ((bookDiscipline keeps).fastApply_rests ?_ standing)
      rintro pair - index located now books' ⟨rest, recalls⟩
      exact ⟨rest, recalls, keeps.get_iff located, fun _ => .nothing⟩
  | flush => exact Safe.leaving (flush_rests standing.1 standing.2)
  | told settings vfStale => exact standing

end SriovMacSync
