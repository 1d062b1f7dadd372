import SriovMacSync.Ownership.Ground

namespace SriovMacSync

open Data Netlink Interaction Interaction.Action

/-! The ground, seen by one process, is the surroundings its judgement speaks of. -/

variable {Process : Type} [DecidableEq Process] {terms : Terms Process} {regime : Regime}
  {dev : Name} {home : Index} {ground : Ground Process}

/-- The terms under which a process may rely on a regime. -/
structure Terms.Suits (terms : Terms Process) (regime : Regime) : Prop where
  admits {ground work} : terms.admits ground work → regime.Admits ground.ledger work
  alone : regime ≠ .crowd → Subsingleton Process
  tight : regime = .tight →
    ¬ terms.writesFail ∧ ¬ terms.readsFail ∧ (∀ effective, ¬ terms.refuses true effective) ∧
      ¬ terms.refuses false true ∧ ¬ terms.mortal
  shared : terms.shared → regime = .tight

namespace Ground

/-- What one process sees of the ground. -/
def books (regime : Regime) (process : Process) (ground : Ground Process) : Books :=
  if regime = .crowd ∧ ground.holder ≠ some process then none else some ground.ledger

/-- What holds of the ground at any moment. -/
structure Sound (regime : Regime) (ground : Ground Process) : Prop where
  free : regime = .crowd → ground.holder = none → ground.ours ⊆ ground.note
  held : ground.ours ⊆ ground.card
  others : regime = .tight → ground.foreign ⊆ ground.card ∧ Disjoint ground.foreign ground.ours

theorem books_some {process : Process} {ledger : Ledger}
    (seen : ground.books regime process = some ledger) :
    ledger = ground.ledger ∧ (regime = .crowd → ground.holder = some process) := by
  unfold books at seen
  split at seen
  · cases seen
  · rename_i visible
    refine ⟨(Option.some.inj seen).symm, fun crowd => ?_⟩
    by_contra apart
    exact visible ⟨crowd, apart⟩

theorem books_of_holder {process : Process}
    (holds : regime = .crowd → ground.holder = some process) :
    ground.books regime process = some ground.ledger := by
  unfold books
  rw [if_neg]
  rintro ⟨crowd, apart⟩
  exact apart (holds crowd)

/-- Nobody else sees what the holder of the note does. -/
theorem books_others {process : Process} {after : Ground Process} (suits : terms.Suits regime)
    (before : regime = .crowd → ground.holder = none ∨ ground.holder = some process)
    (later : regime = .crowd → after.holder = none ∨ after.holder = some process)
    (other : Process) (apart : other ≠ process) :
    after.books regime other = ground.books regime other := by
  by_cases crowd : regime = .crowd
  · have hidden {state : Ground Process} (holder : state.holder = none ∨ state.holder = some process) :
        state.books regime other = none := by
      unfold books
      rw [if_pos]
      refine ⟨crowd, ?_⟩
      rcases holder with free | held
      · simp [free]
      · simpa [held] using apart.symm
    rw [hidden (before crowd), hidden (later crowd)]
  · have := suits.alone crowd
    exact absurd (Subsingleton.elim _ _) apart

/-- A write under the note's lock: only its holder sees it. -/
theorem step_held {process : Process} {request : Call} {reply : Reply request}
    {after : Ground Process} (suits : terms.Suits regime)
    (identifies : request.Identifies dev home reply)
    (touches : request.Touches dev home) (locked : ∀ name, request ≠ .unlock name)
    (permitted : (bookkeeping regime dev home).permits (ground.books regime process) request)
    (sameHolder : after.holder = ground.holder) (held : after.ours ⊆ after.card)
    (others : regime = .tight → after.foreign ⊆ after.card ∧ Disjoint after.foreign after.ours)
    (becomes : ground.ledger.Becomes regime dev home request reply after.ledger) :
    after.Sound regime ∧
      (bookkeeping regime dev home).answers (ground.books regime process) request reply
        (after.books regime process) ∧
      ∀ other, other ≠ process → after.books regime other = ground.books regime other := by
  cases seen : ground.books regime process with
  | none =>
      rw [seen] at permitted
      exact absurd touches permitted.2
  | some ledger =>
      obtain ⟨rfl, holds⟩ := books_some seen
      refine ⟨⟨fun crowd free => ?_, held, others⟩, ⟨identifies, ?_⟩, ?_⟩
      · rw [sameHolder, holds crowd] at free
        cases free
      · rw [books_of_holder fun crowd => sameHolder.trans (holds crowd)]
        cases request with
        | unlock name => exact absurd rfl (locked name)
        | _ => exact ⟨_, rfl, becomes⟩
      · exact books_others suits (fun crowd => .inr (holds crowd))
          fun crowd => .inr (sameHolder.trans (holds crowd))

omit [DecidableEq Process] in
/-- A request that changes nothing a process sees. -/
theorem becomes_self {books : Books} {request : Call} {reply : Reply request}
    (unlocked : ∀ work, request ≠ .lock dev work) (locked : request ≠ .unlock dev)
    (held : ∀ ledger : Ledger, books = some ledger →
      ledger.Becomes regime dev home request reply ledger) :
    books.Becomes regime dev home request reply books := by
  cases books with
  | none =>
      cases request with
      | lock name work =>
          have apart : name ≠ dev := fun same => unlocked work (same ▸ rfl)
          simp [Books.Becomes, apart]
      | _ => exact rfl
  | some ledger =>
      cases request with
      | unlock name =>
          have apart : name ≠ dev := fun same => locked (same ▸ rfl)
          simp [Books.Becomes, apart]
      | _ => exact ⟨ledger, rfl, held ledger rfl⟩

/-- A request that changes nothing. -/
theorem step_idle {process : Process} {request : Call} {reply : Reply request}
    (sound : ground.Sound regime) (identifies : request.Identifies dev home reply)
    (unlocked : ∀ work, request ≠ .lock dev work) (locked : request ≠ .unlock dev)
    (idle : ground.ledger.Becomes regime dev home request reply ground.ledger) :
    ground.Sound regime ∧
      (bookkeeping regime dev home).answers (ground.books regime process) request reply
        (ground.books regime process) ∧
      ∀ other, other ≠ process → ground.books regime other = ground.books regime other :=
  ⟨sound, ⟨identifies, becomes_self unlocked locked fun _ seen => (books_some seen).1 ▸ idle⟩,
    fun _ _ => rfl⟩

omit [DecidableEq Process] in
theorem filtered_of_writes {mac : Mac} {add : Bool} {reply : Except Errno Unit}
    {after : Ground Process} (suits : terms.Suits regime) (held : ground.ours ⊆ ground.card)
    (writes : ground.Writes terms mac add reply after) :
    regime.Filtered ground.ledger mac add reply after.ledger := by
  cases writes with
  | put absent => rfl
  | present held => rfl
  | taken held => rfl
  | missing absent => exact ⟨rfl, fun ours => absent (held ours)⟩
  | @refused add errno other allowed fits =>
      cases add with
      | true =>
          have loose : regime ≠ .tight := fun tight => (suits.tight tight).2.2.1 false allowed
          cases errno with
          | «exists» => exact absurd rfl other
          | noEntry => exact ⟨loose, .inl rfl⟩
          | other code => exact ⟨loose, .inl rfl⟩
      | false =>
          cases errno with
          | «exists» => exact .inl rfl
          | noEntry => exact absurd rfl other
          | other code => exact .inl rfl
  | @putRefused errno absent other allowed =>
      have loose : regime ≠ .tight := fun tight => (suits.tight tight).2.2.1 true allowed
      cases errno with
      | «exists» => exact absurd rfl other
      | noEntry => exact ⟨loose, .inr rfl⟩
      | other code => exact ⟨loose, .inr rfl⟩
  | @takenRefused errno held other allowed =>
      have loose : regime ≠ .tight := fun tight => (suits.tight tight).2.2.2.1 allowed
      cases errno with
      | «exists» => exact .inr ⟨loose, rfl⟩
      | noEntry => exact absurd rfl other
      | other code => exact .inr ⟨loose, rfl⟩

omit [DecidableEq Process] in
theorem wrote_of_rewrites {intended : Finset Mac} {done : Bool} {after : Ground Process}
    (suits : terms.Suits regime) (rewrites : ground.Rewrites terms intended done after) :
    ∃ note, after = { ground with note } ∧ regime.Wrote ground.note intended note done := by
  rcases rewrites with ⟨rfl, done | fails⟩ | ⟨fails, rfl, rfl⟩
  · exact ⟨intended, rfl, .inl rfl, fun _ => done⟩
  · exact ⟨intended, rfl, .inl rfl, fun tight => absurd fails (suits.tight tight).1⟩
  · exact ⟨after.note, rfl, .inr ⟨fun tight => (suits.tight tight).1 fails, rfl, rfl⟩,
      fun tight => absurd fails (suits.tight tight).1⟩

/-- Whoever takes the lock of the note finds it as the last one left it. -/
theorem step_lock {process : Process} {work : Section} {reply : Unit} (suits : terms.Suits regime)
    (sound : ground.Sound regime) (free : ground.holder = none) (admitted : terms.admits ground work) :
    (ground.hold process).Sound regime ∧
      (bookkeeping regime dev home).answers (ground.books regime process) (.lock dev work) reply
        ((ground.hold process).books regime process) ∧
      ∀ other, other ≠ process →
        (ground.hold process).books regime other = ground.books regime other := by
  have seen : (ground.hold process).books regime process = some ground.ledger :=
    books_of_holder fun _ => rfl
  refine ⟨⟨?_, sound.held, sound.others⟩, ⟨trivial, ?_⟩,
    books_others suits (fun _ => .inl free) fun _ => .inr rfl⟩
  · rintro - ⟨⟩
  rw [seen]
  by_cases crowd : regime = .crowd
  · have hidden : ground.books regime process = none := if_pos ⟨crowd, by simp [free]⟩
    rw [hidden]
    exact (if_pos rfl).mpr ⟨_, rfl, sound.free crowd free, suits.admits admitted⟩
  · rw [books_of_holder fun shared => absurd shared crowd]
    exact ⟨_, rfl, rfl, fun _ => suits.admits admitted⟩

/-- Whoever gives the lock back leaves the books sound. -/
theorem step_unlock {process : Process} {reply : Unit} (suits : terms.Suits regime)
    (sound : ground.Sound regime)
    (permitted : (bookkeeping regime dev home).permits (ground.books regime process) (.unlock dev)) :
    (ground.release process).Sound regime ∧
      (bookkeeping regime dev home).answers (ground.books regime process) (.unlock dev) reply
        ((ground.release process).books regime process) ∧
      ∀ other, other ≠ process →
        (ground.release process).books regime other = ground.books regime other := by
  cases seen : ground.books regime process with
  | none =>
      rw [seen] at permitted
      exact absurd rfl permitted.2
  | some ledger =>
      obtain ⟨rfl, holds⟩ := books_some seen
      rw [seen] at permitted
      have same : (ground.release process).ledger = ground.ledger := by
        unfold release
        split <;> rfl
      have released : regime = .crowd → (ground.release process).holder = none := by
        intro crowd
        unfold release
        rw [if_pos (holds crowd)]
      refine ⟨⟨fun _ _ => ?_, ?_, ?_⟩, ⟨trivial, ?_⟩,
        books_others suits (fun crowd => .inr (holds crowd)) fun crowd => .inl (released crowd)⟩
      · have sound : (ground.release process).ledger.Sound := same ▸ permitted.2.1
        exact sound
      · unfold release
        split
        · exact sound.held
        · exact sound.held
      · unfold release
        split
        · exact sound.others
        · exact sound.others
      · by_cases crowd : regime = .crowd
        · have hidden : (ground.release process).books regime process = none :=
            if_pos ⟨crowd, by simp [released crowd]⟩
          rw [hidden]
          exact (if_pos ⟨crowd, rfl⟩).symm
        · rw [books_of_holder fun shared => absurd shared crowd, same]
          exact (if_neg fun both => crowd both.1).symm

omit [DecidableEq Process] in
theorem Writes.holder {mac : Mac} {add : Bool} {reply : Except Errno Unit}
    {after : Ground Process} (writes : ground.Writes terms mac add reply after) :
    after.holder = ground.holder := by
  cases writes <;> rfl

omit [DecidableEq Process] in
theorem Writes.held {mac : Mac} {add : Bool} {reply : Except Errno Unit}
    {after : Ground Process} (writes : ground.Writes terms mac add reply after)
    (held : ground.ours ⊆ ground.card) : after.ours ⊆ after.card := by
  cases writes with
  | put absent => exact Finset.insert_subset_insert _ held
  | taken held' => exact Finset.sdiff_subset_sdiff held (Finset.Subset.refl _)
  | putRefused absent other allowed => exact Finset.insert_subset_insert _ held
  | takenRefused held' other allowed => exact Finset.sdiff_subset_sdiff held (Finset.Subset.refl _)
  | _ => exact held

omit [DecidableEq Process] in
/-- An exact write that removes only our own leaves the others' entries alone. -/
theorem Writes.others {mac : Mac} {add : Bool} {reply : Except Errno Unit}
    {after : Ground Process} (writes : ground.Writes terms mac add reply after)
    (suits : terms.Suits regime) (tight : regime = .tight)
    (others : ground.foreign ⊆ ground.card ∧ Disjoint ground.foreign ground.ours)
    (own : add = false → mac ∈ ground.ours) :
    after.foreign ⊆ after.card ∧ Disjoint after.foreign after.ours := by
  obtain ⟨held, apart⟩ := others
  cases writes with
  | put absent =>
      exact ⟨held.trans (Finset.subset_insert _ _),
        Finset.disjoint_insert_right.mpr ⟨fun theirs => absent (held theirs), apart⟩⟩
  | taken held' =>
      have ours := own rfl
      exact ⟨Finset.subset_sdiff.mpr ⟨held, Finset.disjoint_singleton_right.mpr
        fun theirs => Finset.disjoint_left.mp apart theirs ours⟩,
        apart.mono_right Finset.sdiff_subset⟩
  | putRefused absent other allowed => exact absurd allowed ((suits.tight tight).2.2.1 true)
  | takenRefused held' other allowed => exact absurd allowed (suits.tight tight).2.2.2.1
  | _ => exact ⟨held, apart⟩

/-- Every answer of the ground is one the process expects. -/
theorem step_sound {process : Process} {request : Call} {reply : Reply request}
    {after : Ground Process} (suits : terms.Suits regime) (sound : ground.Sound regime)
    (permitted : (bookkeeping regime dev home).permits (ground.books regime process) request)
    (identifies : request.Identifies dev home reply)
    (answered : ground.Answers terms dev home process request reply after) :
    after.Sound regime ∧
      (bookkeeping regime dev home).answers (ground.books regime process) request reply
        (after.books regime process) ∧
      ∀ other, other ≠ process → after.books regime other = ground.books regime other := by
  have writes (note : Finset Mac) {after : Ground Process} (becomes : after = { ground with note })
      (touches : request.Touches dev home) (locked : ∀ name, request ≠ .unlock name)
      (expected : ground.ledger.Becomes regime dev home request reply after.ledger) :
      after.Sound regime ∧
        (bookkeeping regime dev home).answers (ground.books regime process) request reply
          (after.books regime process) ∧
        ∀ other, other ≠ process → after.books regime other = ground.books regime other :=
    step_held suits identifies touches locked permitted (by rw [becomes])
      (by rw [becomes]; exact sound.held) (by rw [becomes]; exact sound.others) expected
  cases request with
  | lock name work =>
      by_cases own : name = dev
      · subst own
        obtain ⟨free, admitted, rfl⟩ := (if_pos rfl).mp answered
        exact step_lock suits sound free admitted
      · obtain rfl : after = ground := (if_neg own).mp answered
        exact step_idle sound identifies (by rintro work ⟨⟩; exact own rfl) nofun
          ⟨rfl, fun same => absurd same own⟩
  | unlock name =>
      by_cases own : name = dev
      · subst own
        obtain rfl : after = ground.release process := answered.trans (if_pos rfl)
        exact step_unlock suits sound permitted
      · obtain rfl : after = ground := answered.trans (if_neg own)
        exact step_idle sound identifies nofun (by rintro ⟨⟩; exact own rfl) rfl
  | readNote name =>
      obtain ⟨rfl, shows⟩ := answered
      refine step_idle sound identifies nofun nofun ⟨rfl, fun own => (shows own).imp_right ?_⟩
      rintro ⟨fails, unreadable⟩
      exact ⟨fun tight => (suits.tight tight).2.1 fails, unreadable⟩
  | putNote name macs =>
      by_cases own : name = dev
      · obtain ⟨note, becomes, wrote⟩ := wrote_of_rewrites suits ((if_pos own).mp answered)
        exact writes _ becomes own nofun ((if_pos own).mpr ⟨note, by rw [becomes]; rfl, wrote⟩)
      · obtain rfl : after = ground := (if_neg own).mp answered
        exact step_idle sound identifies nofun nofun ((if_neg own).mpr rfl)
  | appendNote name macs =>
      by_cases own : name = dev
      · obtain ⟨note, becomes, wrote⟩ := wrote_of_rewrites suits ((if_pos own).mp answered)
        exact writes _ becomes own nofun ((if_pos own).mpr ⟨note, by rw [becomes]; rfl, wrote⟩)
      · obtain rfl : after = ground := (if_neg own).mp answered
        exact step_idle sound identifies nofun nofun ((if_neg own).mpr rfl)
  | removeNote name =>
      by_cases own : name = dev
      · rcases (if_pos own).mp answered with becomes | ⟨fails, becomes⟩
        · exact writes _ becomes own nofun ((if_pos own).mpr ⟨∅, by rw [becomes]; rfl, .inl rfl⟩)
        · exact writes ground.note becomes own nofun ((if_pos own).mpr
            ⟨ground.note, by rw [becomes]; rfl,
              .inr ⟨fun tight => (suits.tight tight).1 fails, rfl⟩⟩)
      · obtain rfl : after = ground := (if_neg own).mp answered
        exact step_idle sound identifies nofun nofun ((if_neg own).mpr rfl)
  | setSelfFdb index mac add =>
      by_cases own : index = home
      · have went := (if_pos own).mp answered
        refine step_held suits identifies own nofun permitted went.holder (went.held sound.held)
          (fun tight => went.others suits tight (sound.others tight) ?_)
          ((if_pos own).mpr (filtered_of_writes suits sound.held went))
        rintro rfl
        have seen : ground.books regime process = some ground.ledger :=
          books_of_holder fun crowd => absurd (crowd.symm.trans tight) nofun
        rw [seen] at permitted
        exact (permitted.2.2 own).2 tight
      · obtain rfl : after = ground := (if_neg own).mp answered
        exact step_idle sound identifies nofun nofun ((if_neg own).mpr rfl)
  | dumpFdb => obtain ⟨rfl, -⟩ := answered; exact step_idle sound identifies nofun nofun rfl
  | dumpFdbOf index => obtain ⟨rfl, -⟩ := answered; exact step_idle sound identifies nofun nofun rfl
  | _ =>
      obtain rfl : after = ground := answered
      exact step_idle sound identifies nofun nofun rfl

omit [DecidableEq Process] in
theorem drift_sound {after : Ground Process} (tight : regime = .tight) (sound : ground.Sound regime)
    (shares : ground.Shares after) :
    after.Sound regime ∧ after.ledger = ground.ledger ∧ after.holder = ground.holder := by
  have crowdless : regime ≠ .crowd := fun crowd => absurd (crowd.symm.trans tight) nofun
  obtain ⟨held, apart⟩ := sound.others tight
  cases shares with
  | @put mac absent =>
      refine ⟨⟨fun crowd => absurd crowd crowdless, ?_, fun _ => ⟨?_, ?_⟩⟩, rfl, rfl⟩
      · exact sound.held.trans (Finset.subset_insert _ _)
      · exact Finset.insert_subset_insert _ held
      · exact Finset.disjoint_insert_left.mpr ⟨fun ours => absent (sound.held ours), apart⟩
  | @take mac theirs =>
      refine ⟨⟨fun crowd => absurd crowd crowdless, ?_, fun _ => ⟨?_, ?_⟩⟩, rfl, rfl⟩
      · exact Finset.subset_sdiff.mpr ⟨sound.held, Finset.disjoint_singleton_right.mpr
          fun ours => Finset.disjoint_left.mp apart theirs ours⟩
      · exact Finset.sdiff_subset_sdiff held (Finset.Subset.refl _)
      · exact apart.mono_left Finset.sdiff_subset

/-- Whoever dies holding the lock leaves books that were sound at that moment. -/
theorem release_sound {process : Process} (sound : ground.Sound regime)
    (books : ∀ ledger, ground.books regime process = some ledger → ledger.Sound) :
    (ground.release process).Sound regime := by
  unfold release
  split
  · rename_i holds
    refine ⟨fun crowd _ => ?_, sound.held, sound.others⟩
    exact books ground.ledger (books_of_holder fun _ => holds)
  · exact sound

end Ground

/-- What a process that is between two operations may count on. -/
def Syncer.Rests (regime : Regime) (dev : Name) (home : Index) (syncer : Syncer) (books : Books) :
    Prop :=
  books.Rest regime ∧ syncer.Recalls dev home

theorem uplink_seen (suits : terms.Suits regime) :
    (uplinkSystem terms dev home).Seen (bookkeeping regime dev home) (Ground.books regime)
      (Ground.Sound regime) (Syncer.Rests regime dev home) where
  step sound permitted answered := Ground.step_sound suits sound permitted answered.1 answered.2
  drift := by
    rintro ground after sound ⟨shared, shares⟩
    obtain ⟨sound, same, holder⟩ := Ground.drift_sound (suits.shared shared) sound shares
    refine ⟨sound, fun process => ?_⟩
    rw [Ground.books, Ground.books, same, holder]
  die := by
    rintro process ground after program sound safe ⟨mortal, rfl⟩
    have loose : regime ≠ .tight := fun tight => (suits.tight tight).2.2.2.2 mortal
    have books : ∀ ledger, ground.books regime process = some ledger → ledger.Sound := by
      intro ledger seen
      refine safe.now (fun request permitted => ?_) fun memory rests => ?_
      · rw [seen] at permitted
        exact permitted.2.1
      · rw [seen] at rests
        exact rests.1.2.1
    refine ⟨Ground.release_sound sound books, fun memory recalls => ⟨?_, recalls⟩, ?_⟩
    · cases seen : (ground.release process).books regime process with
      | none =>
          unfold Ground.books at seen
          split at seen
          · exact ‹_ ∧ _›.1
          · cases seen
      | some ledger =>
          obtain ⟨rfl, holds⟩ := Ground.books_some seen
          have crowdless : regime ≠ .crowd := by
            intro crowd
            have held := holds crowd
            unfold Ground.release at held
            split at held
            · cases held
            · contradiction
          have same : (ground.release process).ledger = ground.ledger := by
            unfold Ground.release
            split <;> rfl
          refine ⟨crowdless, ?_, fun tight => absurd tight loose⟩
          rw [same]
          exact books _ (Ground.books_of_holder fun crowd => absurd crowd crowdless)
    · intro other apart
      unfold Ground.release
      split
      · rename_i holds
        exact Ground.books_others suits (fun _ => .inr holds) (fun _ => .inl rfl) other apart
      · rfl
  operation standing operation := operation.safe standing

/-- Whatever the processes do, the ground stays sound and every process keeps what
its judgement promises. -/
theorem uplink_reachable {start : Ground Process → Prop} (suits : terms.Suits regime)
    (begins : ∀ ground, start ground → ground.Begins)
    (settled : regime ≠ .crowd → ∀ ground, start ground → ground.ledger.Settled regime)
    (others : ∀ ground, start ground → regime = .tight →
      ground.foreign ⊆ ground.card ∧ Disjoint ground.foreign ground.ours)
    {programs : Process → Program Call Reply Syncer}
    (reached : (uplinkSystem terms dev home).Reachable start programs ground) :
    ground.Sound regime ∧ ∀ process, (programs process).Safe (bookkeeping regime dev home)
      (Syncer.Rests regime dev home) (ground.books regime process) := by
  refine (uplink_seen suits).reachable (fun ground begun => ?_) reached
  refine ⟨⟨fun _ _ => (begins ground begun).noted, (begins ground begun).held, others ground begun⟩,
    fun process memory recalls => ⟨?_, recalls⟩⟩
  unfold Ground.books
  split
  · exact ‹_ ∧ _›.1
  · rename_i visible
    have crowdless : regime ≠ .crowd := fun crowd =>
      visible ⟨crowd, by simp [(begins ground begun).free]⟩
    exact ⟨crowdless, settled crowdless ground begun⟩

end SriovMacSync
