import SriovMacSync.Absence.Grace
import SriovMacSync.Daemon.Loop

namespace SriovMacSync

open Data Netlink Interaction Interaction.Action

/-! # What a wait without end leaves undone

The loop waits without end once nothing is due.  Only a completed pass clears what is
due, so what such a wait leaves undone is what the last completed pass left. -/

/-- The exchanges of the pass of a turn. -/
def passOf (events : List (Exchange DaemonCall DaemonReply)) : List (Exchange Call Reply) :=
  events.filterMap fun
    | ⟨.sys request, reply⟩ => some ⟨request, reply⟩
    | _ => none

/-- Where the loop stands. -/
inductive Point where
  | top
  | wait

/-- A run of the daemon, with what its last completed pass asked and was answered;
`admits` says which passes complete. -/
inductive Running (opts : Options) (admits : Syncer → List Name → List (Exchange Call Reply) → Prop) :
    Point → Loop → Syncer → List (Exchange Call Reply) → Prop where
  | start {syncer : Syncer} {now : Nat} (authoritative : syncer.authoritative = true)
      (fresh : syncer.absentSince = fun _ => none) : Running opts admits .top (.start now) syncer []
  | again {loop next : Loop} {syncer after : Syncer} {last : List (Exchange Call Reply)}
      {events : List (Exchange DaemonCall DaemonReply)} (run : Running opts admits .top loop syncer last)
      (turn : Traces (beforeWait opts loop) syncer events (.again next) after) :
      Running opts admits .top next after last
  | rests {loop next : Loop} {syncer after : Syncer} {last : List (Exchange Call Reply)}
      {events : List (Exchange DaemonCall DaemonReply)} (run : Running opts admits .top loop syncer last)
      (turn : Traces (beforeWait opts loop) syncer events (.waits next) after)
      (unread : ∀ picture, (⟨.readTopology, picture⟩ : Exchange DaemonCall DaemonReply) ∉ events) :
      Running opts admits .wait next after last
  | passed {loop next : Loop} {syncer after : Syncer} {last : List (Exchange Call Reply)} {topo : Topology}
      {events : List (Exchange DaemonCall DaemonReply)} (run : Running opts admits .top loop syncer last)
      (turn : Traces (beforeWait opts loop) syncer events (.waits next) after)
      (read : (⟨.readTopology, .ok topo⟩ : Exchange DaemonCall DaemonReply) ∈ events)
      (admitted : admits syncer ((opts.watched topo syncer.pairs).map (·.dev)) (passOf events)) :
      Running opts admits .wait next after (passOf events)
  | answered {loop next : Loop} {syncer after : Syncer} {last : List (Exchange Call Reply)}
      {events : List (Exchange DaemonCall DaemonReply)} (run : Running opts admits .wait loop syncer last)
      (turn : Traces (waitAndAnswer loop) syncer events next after) :
      Running opts admits .top next after last

section Promises

/-- An exchange of a pass made in a window of a note's lock, and what came later. -/
def Under (dev : Name) (work : Section) (exchange : Exchange Call Reply)
    (pass later : List (Exchange Call Reply)) : Prop :=
  ∃ earlier window, pass = earlier ++ ⟨.lock dev work, ()⟩ :: window ++ exchange :: later ∧
    ∀ event ∈ window, event.1 ≠ .unlock dev

/-- A write that takes an address off a note. -/
def Strikes (dev : Name) (mac : Mac) (event : Exchange Call Reply) : Prop :=
  (∃ macs, event = ⟨.putNote dev macs, true⟩ ∧ mac ∉ macs) ∨ event = ⟨.removeNote dev, ()⟩

/-- Nothing is left that somebody would have to wake up for: no device was still missing
for less than the grace when the pass looked, no line was kept of a removal the kernel
refused, and no note could not take a registration. -/
structure OwesNothing (pass : List (Exchange Call Reply)) (syncer : Syncer) : Prop where
  waited : ∀ dev since, syncer.absentSince dev = some since →
    ∃ now : Nat, (⟨.now, now⟩ : Exchange Call Reply) ∈ pass ∧ since + syncer.orphanGrace ≤ now
  removed : ∀ dev work index mac errno later,
    Under dev work ⟨.setSelfFdb index mac false, .error errno⟩ pass later → errno ≠ .noEntry →
      ∃ event ∈ later, Strikes dev mac event
  taken : ∀ dev later, ¬ Under dev .register ⟨.readNote dev, .unreadable⟩ pass later ∧
    ∀ macs, ¬ Under dev .register ⟨.appendNote dev macs, false⟩ pass later

/-- A pass to which nothing is refused: whatever is noted and missing has been missing
for the grace, the kernel lets go of all that is on a list, and the notes registered on
can be read and take their lines. -/
structure Unrefused (before : Syncer) (live : List Name) (pass : List (Exchange Call Reply)) : Prop where
  missing : ∀ (noted : List Name) (now : Nat), (⟨.listNotes, .ok noted⟩ : Exchange Call Reply) ∈ pass →
    (⟨.now, now⟩ : Exchange Call Reply) ∈ pass → ∀ dev ∈ noted, dev ∉ live →
      (before.absentSince dev).getD now + before.orphanGrace ≤ now
  removals : ∀ index mac errno,
    (⟨.setSelfFdb index mac false, .error errno⟩ : Exchange Call Reply) ∈ pass → errno = .noEntry
  notes : ∀ dev, (⟨.lock dev .register, ()⟩ : Exchange Call Reply) ∈ pass →
    (⟨.readNote dev, .unreadable⟩ : Exchange Call Reply) ∉ pass ∧
      ∀ macs, (⟨.appendNote dev macs, false⟩ : Exchange Call Reply) ∉ pass

end Promises

section Search

variable {start syncer : Syncer} {past : List (Exchange Call Reply)} {topo : Topology}

/-- Nothing is known of the answers. -/
def overhearing : Environment Call Reply (List (Exchange Call Reply)) :=
  .recording (fun _ => True) fun _ _ => True

theorem Overlooks.overheard {α : Type} {action : Sync α} (overlooks : Overlooks (fun _ => True) action) :
    Safe overhearing action (fun _ after later => after.absences = syncer.absences ∧ past ⊆ later)
      syncer past := by
  apply (overlooks syncer).frame
  · intro later request kept _
    refine ⟨trivial, fun reply after ⟨_, grown⟩ => ?_⟩
    subst grown
    exact List.Subset.trans kept (List.subset_append_left ..)
  · exact List.Subset.refl past

/-- Where a clock of absence stands after a search, and what the search was told. -/
def Found (start after : Syncer) (past : List (Exchange Call Reply)) : Prop :=
  ∀ dev since, after.absentSince dev = some since →
    ∃ (now : Nat) (noted : List Name), (⟨.now, now⟩ : Exchange Call Reply) ∈ past ∧
      (⟨.listNotes, .ok noted⟩ : Exchange Call Reply) ∈ past ∧ dev ∈ noted ∧
      dev ∉ start.pairs.map (·.dev) ∧ since = (start.absentSince dev).getD now

/-- What is done later in a pass leaves what a search found. -/
theorem Found.later {middle after : Syncer} {later : List (Exchange Call Reply)}
    (found : Found start middle past) (same : after.absences = middle.absences) (grown : past ⊆ later) :
    Found start after later := by
  intro dev since counted
  rw [(Prod.mk.inj same).2] at counted
  obtain ⟨now, noted, clock, listed, rest⟩ := found dev since counted
  exact ⟨now, noted, grown clock, grown listed, rest⟩

theorem notedDevicesOrNone_told :
    Safe overhearing notedDevicesOrNone (fun noted after later => after = syncer ∧ past ⊆ later ∧
      ∀ dev ∈ noted, ∃ listing : List Name,
        (⟨.listNotes, .ok listing⟩ : Exchange Call Reply) ∈ later ∧ dev ∈ listing) syncer past := by
  apply safe_bind.mpr (safe_bind.mpr (safe_ask.mpr ⟨trivial, ?_⟩))
  intro listing later ⟨_, asked⟩
  subst asked
  have grown : past ⊆ past ++ [⟨.listNotes, listing⟩] := List.subset_append_left ..
  cases listing with
  | error errno => exact ⟨rfl, grown, by simp⟩
  | ok listing => exact ⟨rfl, grown, fun dev noted => ⟨listing, by simp, by simpa using noted⟩⟩

/-- The search goes on counting what is still missing and starts with what is newly so. -/
theorem orphaned_found (same : syncer.absences = start.absences) :
    Safe overhearing orphaned (fun _ after later => after.toSettings = start.toSettings ∧
      Found start after later) syncer past := by
  obtain ⟨settings, clock⟩ := Prod.mk.inj same
  apply safe_bind.mpr (safe_get.mpr ?_)
  split
  · exact safe_bind.mpr (safe_modify.mpr ⟨settings, nofun⟩)
  · apply safe_bind.mpr (safe_ask.mpr ⟨trivial, ?_⟩)
    intro now past₁ ⟨_, asked⟩
    subst asked
    apply safe_bind.mpr
    apply notedDevicesOrNone_told.mono
    intro noted after later ⟨kept, grown, told⟩
    subst kept
    refine safe_bind.mpr (safe_get.mpr (safe_bind.mpr (safe_modify.mpr ?_)))
    refine ⟨settings, fun dev since counted => ?_⟩
    dsimp only at counted
    split at counted
    · rename_i missing
      rw [List.mem_filter, decide_eq_true_eq, congrArg Settings.pairs settings] at missing
      obtain ⟨listing, listed, named⟩ := told dev missing.1
      refine ⟨now, listing, grown (by simp), listed, named, missing.2, ?_⟩
      rw [← congrFun clock dev]
      exact (Option.some.inj counted).symm
    · cases counted

theorem dropOrphans_found (same : syncer.absences = start.absences) {apply : Bool} :
    Safe overhearing (dropOrphans topo apply) (fun _ after later => after.toSettings = start.toSettings ∧
      Found start after later) syncer past := by
  apply safe_bind.mpr
  apply (orphaned_found same).mono
  intro orphans middle between ⟨settings, found⟩
  have swept : Safe overhearing (orphans.forM (dropOrphan topo apply))
      (fun _ after later => after.absences = middle.absences ∧ between ⊆ later) middle between := by
    apply safe_forM ⟨rfl, List.Subset.refl between⟩
    intro dev _ memory later ⟨kept, grown⟩
    have overlooks : Overlooks (fun _ => True) (dropOrphan topo apply dev) := dropOrphan_overlooks trivial
    apply overlooks.overheard.mono
    intro _ after last ⟨kept', grown'⟩
    exact ⟨kept'.trans kept, List.Subset.trans grown grown'⟩
  apply swept.mono
  intro _ after later ⟨kept, grown⟩
  exact ⟨(Prod.mk.inj kept).1.trans settings, found.later kept grown⟩

/-- A completed pass has searched. -/
theorem reconcile_found : Safe overhearing (reconcile true topo) (fun result after later =>
    ∀ reports, result = .ok reports → after.toSettings = start.toSettings ∧ Found start after later)
    start past := by
  apply safe_bind.mpr (safe_get.mpr ?_)
  dsimp only
  split
  · apply safe_bind.mpr
    apply (dropOrphans_found rfl).mono
    exact fun _ _ _ found _ _ => found
  · apply safe_bind.mpr (safe_ask.mpr ⟨trivial, ?_⟩)
    intro dump past₁ _
    cases dump with
    | error errno => exact nofun
    | ok fdb =>
        apply safe_bind.mpr
        apply askDriver_overlooks.overheard.mono
        intro answer asked past₂ ⟨same, _⟩
        cases answer with
        | error errno => exact nofun
        | ok answer =>
            apply safe_bind.mpr
            apply stampPass_overlooks.overheard.mono
            intro passAt stamped past₃ ⟨same', _⟩
            apply safe_bind.mpr
            apply (dropOrphans_found (same'.trans same)).mono
            intro _ swept past₄ ⟨settings, found⟩
            apply passPairs_overlooks.overheard.mono
            intro _ after later ⟨kept, grown⟩ _ _
            exact ⟨(Prod.mk.inj kept).1.trans settings, found.later kept grown⟩

end Search

section Steady

variable {α β : Type}

/-- Whatever is answered, the settings and the clock of absences stay. -/
def Steady (action : Daemonic α) : Prop := ∀ syncer,
  Within (fun _ => True) action (fun _ after => after.absences = syncer.absences) syncer

namespace Steady

theorem pure {value : α} : Steady (pure value : Daemonic α) := fun _ => rfl

theorem get : Steady (get : Daemonic Syncer) := fun _ => rfl

theorem ask {request : DaemonCall} : Steady (askWorld request) :=
  fun _ => within_ask.mpr ⟨trivial, fun _ => rfl⟩

theorem bind {action : Daemonic α} {rest : α → Daemonic β} (first : Steady action)
    (second : ∀ value, Steady (rest value)) : Steady (action >>= rest) := fun syncer =>
  (first syncer).bind fun value middle same =>
    (second value middle).imp fun _ _ same' => same'.trans same

theorem onWorld {action : Sync α} (overlooks : Overlooks (fun _ => True) action) :
    Steady (onWorld action) := fun syncer => (overlooks syncer).through

theorem believeNothing : Steady believeNothing := fun _ => rfl

end Steady

theorem hearOperator_steady {schedule : Schedule} : Steady (hearOperator schedule) := by
  apply Steady.bind .ask
  intro wanted
  split
  · exact .bind .believeNothing fun _ => .bind .ask fun _ => .pure
  · exact .pure

theorem readPicture_steady {needed : Bool} : Steady (readPicture needed) := by
  unfold readPicture
  split
  · apply Steady.bind .ask
    intro picture
    cases picture with
    | error errno => exact .pure
    | ok topo => exact .pure
  · exact .pure

theorem judgeLinks_steady {last fresh : Option Topology} {changed : List Index} :
    Steady (judgeLinks last fresh changed) := by
  unfold judgeLinks
  split
  · cases fresh with
    | none => exact .believeNothing
    | some topo =>
        apply Steady.bind .ask
        intro touched
        split
        · exact .believeNothing
        · exact .pure
  · exact .pure

theorem answerBatch_steady {topo : Option Topology} {events : Events} : Steady (answerBatch topo events) := by
  cases topo with
  | none => exact .pure
  | some topo =>
      apply Steady.bind (.onWorld fastApply_overlooks)
      intro result
      cases result with
      | error errno => exact .pure
      | ok urgency => exact .pure

theorem passAfter_steady {urgency : Urgency} {lastPass : Nat} : Steady (passAfter urgency lastPass) :=
  .bind .get fun _ => .bind .ask fun _ => .bind .ask fun _ => .pure

theorem handleBatch_steady {last : Option Topology} {events : Events} {lastPass : Nat} :
    Steady (handleBatch last events lastPass) := by
  unfold handleBatch
  split
  · exact .pure
  · apply Steady.bind readPicture_steady
    intro fresh
    apply Steady.bind judgeLinks_steady
    intro _
    apply Steady.bind answerBatch_steady
    intro urgency
    dsimp only
    split
    · exact .pure
    · exact .bind passAfter_steady fun _ => .pure

theorem brake_steady {waitFailures : Nat} : Steady (brake waitFailures) := by
  unfold brake
  split
  · exact .bind .ask fun _ => .pure
  · exact .pure

end Steady

section Turns

variable {loop next : Loop} {syncer after : Syncer} {opts : Options}
  {events : List (Exchange DaemonCall DaemonReply)}

/-- Nothing that arrives, and no wait that fails, takes what is due off the schedule. -/
theorem waitAndAnswer_keeps :
    Within (fun _ => True) (waitAndAnswer loop) (fun next after =>
      (next.schedule.due = none → loop.schedule.due = none) ∧ after.absences = syncer.absences) syncer := by
  apply within_ask_bind trivial
  intro now
  apply within_ask_bind trivial
  intro woken
  cases woken with
  | error errno =>
      apply (brake_steady syncer).bind
      intro _ middle same
      apply within_ask_bind trivial
      intro later
      exact ⟨nofun, same⟩
  | ok woken =>
      cases woken with
      | false => exact ⟨id, rfl⟩
      | true =>
          apply within_ask_bind trivial
          intro received
          cases received with
          | error errno =>
              apply within_ask_bind trivial
              intro later
              exact ⟨nofun, rfl⟩
          | ok events =>
              apply (handleBatch_steady syncer).bind
              intro ⟨wanted, last⟩ middle same
              cases wanted with
              | none => exact ⟨id, same⟩
              | some wanted => exact ⟨fun none => absurd none (Schedule.due_bringForward _ _ _), same⟩

theorem passOf_append {first second : List (Exchange DaemonCall DaemonReply)} :
    passOf (first ++ second) = passOf first ++ passOf second := List.filterMap_append

theorem passOf_map {inner : List (Exchange Call Reply)} : passOf (inner.map worldly.event) = inner := by
  induction inner with
  | nil => rfl
  | cons exchange rest ih => rw [List.map_cons, passOf, List.filterMap_cons]; exact congrArg _ ih

theorem not_read_of_inner {inner : List (Exchange Call Reply)} {picture : Except Errno Topology} :
    (⟨.readTopology, picture⟩ : Exchange DaemonCall DaemonReply) ∉ inner.map worldly.event := by
  simp [Wiring.event, worldly]

/-- The limits change nothing that a search looks at. -/
theorem applyCardLimits_traces {topo : Topology} {value : PUnit}
    (ran : Traces (applyCardLimits topo) syncer events value after) :
    (∃ devs limits, events = [⟨.cardLimits devs topo, limits⟩]) ∧ after.absentSince = syncer.absentSince ∧
      after.orphanGrace = syncer.orphanGrace ∧ after.pairs = syncer.pairs := by
  obtain ⟨_, _, _, _, got, rest, joined⟩ := traces_bind.mp ran
  obtain ⟨silent, same, kept⟩ := traces_get.mp got
  subst silent same kept
  obtain ⟨limits, _, _, _, asked, rest, joined'⟩ := traces_bind.mp rest
  obtain ⟨asked, kept⟩ := traces_ask.mp asked
  subst asked kept
  cases limits with
  | none =>
      obtain ⟨silent, _, kept⟩ := traces_pure.mp rest
      subst silent kept
      exact ⟨⟨_, _, joined.trans joined'⟩, rfl, rfl, rfl⟩
  | some limits =>
      obtain ⟨silent, kept⟩ := traces_modify.mp rest
      subst silent kept
      exact ⟨⟨_, _, joined.trans joined'⟩, rfl, rfl, rfl⟩

/-- What a search that follows finds the memory of its process to be. -/
structure Begins (opts : Options) (topo : Topology) (before start : Syncer) : Prop where
  clock : start.absentSince = before.absentSince
  grace : start.orphanGrace = before.orphanGrace
  pairs : start.pairs = opts.watched topo before.pairs

/-- A pass reads the interfaces once; a completed one went on to reconcile. -/
theorem runPass_traces {last kept : Option Topology} {pass : Pass}
    (ran : Traces (runPass opts last) syncer events (pass, kept) after) :
    ∃ picture, ⟨.readTopology, picture⟩ ∈ events ∧
      (∀ other, (⟨.readTopology, other⟩ : Exchange DaemonCall DaemonReply) ∈ events → other = picture) ∧
      (pass = .done → ∃ topo start reports, picture = .ok topo ∧ Begins opts topo syncer start ∧
        Traces (reconcile true topo) start (passOf events) (.ok reports) after) := by
  obtain ⟨picture, _, _, _, read, rest, joined⟩ := traces_bind.mp ran
  obtain ⟨asked, same⟩ := traces_ask.mp read
  subst asked same
  cases picture with
  | error errno =>
      obtain ⟨silent, ended, _⟩ := traces_pure.mp rest
      subst silent joined
      refine ⟨.error errno, by simp, by simp, fun done => ?_⟩
      rw [(Prod.mk.inj ended).1] at done
      cases done
  | ok topo =>
      obtain ⟨_, _, _, _, watched, rest, joined₁⟩ := traces_bind.mp rest
      obtain ⟨silent, same⟩ := traces_modify.mp watched
      subst silent same
      obtain ⟨_, start, _, _, limited, rest, joined₂⟩ := traces_bind.mp rest
      obtain ⟨⟨devs, limits, asked⟩, clock, grace, pairs⟩ := applyCardLimits_traces limited
      subst asked
      obtain ⟨result, _, _, _, reconciled, rest, joined₃⟩ := traces_bind.mp rest
      obtain ⟨inner, traced, embedded⟩ := traces_through.mp reconciled
      subst embedded joined₃ joined₂ joined₁ joined
      cases result with
      | error errno =>
          obtain ⟨silent, ended, _⟩ := traces_pure.mp rest
          subst silent
          refine ⟨.ok topo, by simp, by simp [not_read_of_inner], fun done => ?_⟩
          rw [(Prod.mk.inj ended).1] at done
          cases done
      | ok reports =>
          obtain ⟨silent, ended, same⟩ := traces_pure.mp rest
          subst silent same
          refine ⟨.ok topo, by simp, by simp [not_read_of_inner], fun _ => ?_⟩
          refine ⟨topo, start, reports, rfl, ⟨clock, grace, pairs⟩, ?_⟩
          rw [passOf_append, passOf_append, passOf_append, passOf_append, passOf_map]
          simpa [passOf] using traced

theorem hearOperator_traces {schedule heard : Schedule} (ran : Traces (hearOperator schedule) syncer events heard after) :
    (∀ picture, (⟨.readTopology, picture⟩ : Exchange DaemonCall DaemonReply) ∉ events) ∧ passOf events = [] ∧
      (heard.due = none → schedule.due = none) := by
  obtain ⟨wanted, _, _, _, asked, rest, joined⟩ := traces_bind.mp ran
  obtain ⟨asked, same⟩ := traces_ask.mp asked
  subst asked same
  cases wanted with
  | false =>
      obtain ⟨silent, same, _⟩ := traces_pure.mp rest
      subst silent same joined
      exact ⟨by simp, rfl, id⟩
  | true =>
      obtain ⟨_, _, _, _, stale, rest, joined₁⟩ := traces_bind.mp rest
      obtain ⟨silent, same⟩ := traces_modify.mp stale
      subst silent same
      obtain ⟨now, _, _, _, looked, rest, joined₂⟩ := traces_bind.mp rest
      obtain ⟨looked, same⟩ := traces_ask.mp looked
      obtain ⟨silent, ended, _⟩ := traces_pure.mp rest
      subst looked same silent ended joined₂ joined₁ joined
      exact ⟨by simp, rfl, nofun⟩

/-- What the first half of a turn was, by where it went on. -/
def Turned (opts : Options) (loop : Loop) (syncer : Syncer) (events : List (Exchange DaemonCall DaemonReply))
    (after : Syncer) : Onward → Prop
  | .stops => True
  | .again next => next.schedule.due ≠ none
  | .waits next =>
      (∀ picture, (⟨.readTopology, picture⟩ : Exchange DaemonCall DaemonReply) ∉ events) ∧
          after.absences = syncer.absences ∧ (next.schedule.due = none → loop.schedule.due = none) ∨
        ∃ topo start reports,
          (∀ picture, (⟨.readTopology, picture⟩ : Exchange DaemonCall DaemonReply) ∈ events ↔
            picture = .ok topo) ∧ Begins opts topo syncer start ∧
          Traces (reconcile true topo) start (passOf events) (.ok reports) after

theorem beforeWait_traces {onward : Onward} (ran : Traces (beforeWait opts loop) syncer events onward after) :
    Turned opts loop syncer events after onward := by
  obtain ⟨stopping, _, _, _, asked, rest, joined⟩ := traces_bind.mp ran
  obtain ⟨asked, same⟩ := traces_ask.mp asked
  subst asked same
  cases stopping with
  | true =>
      obtain ⟨_, ended, _⟩ := traces_pure.mp rest
      subst ended
      trivial
  | false =>
      obtain ⟨schedule, middle, heardEvents, _, heard, rest₁, joined₁⟩ := traces_bind.mp rest
      have kept := (hearOperator_steady _).traced heard
      obtain ⟨unread, silent, due⟩ := hearOperator_traces heard
      obtain ⟨now, _, _, _, looked, rest₂, joined₂⟩ := traces_bind.mp rest₁
      obtain ⟨looked, same⟩ := traces_ask.mp looked
      subst looked same joined₂ joined₁ joined
      split at rest₂
      · obtain ⟨⟨pass, last⟩, _, passEvents, _, passed, rest₃, joined⟩ := traces_bind.mp rest₂
        obtain ⟨picture, read, only, done⟩ := runPass_traces passed
        cases pass with
        | refused =>
            obtain ⟨later, _, _, _, looked, rest₄, _⟩ := traces_bind.mp rest₃
            obtain ⟨_, ended, _⟩ := traces_pure.mp rest₄
            subst ended
            exact nofun
        | done =>
            obtain ⟨later, _, _, _, looked, rest₄, joined'⟩ := traces_bind.mp rest₃
            obtain ⟨looked, same⟩ := traces_ask.mp looked
            obtain ⟨silent', ended, same'⟩ := traces_pure.mp rest₄
            subst looked same silent' ended same' joined' joined
            obtain ⟨topo, start, reports, pictured, begins, traced⟩ := done rfl
            refine .inr ⟨topo, start, reports, fun other => ⟨fun listed => ?_, fun same => ?_⟩, ?_, ?_⟩
            · have inside : (⟨.readTopology, other⟩ : Exchange DaemonCall DaemonReply) ∈ passEvents := by
                simpa [unread other] using listed
              rw [only other inside, pictured]
            · rw [same, ← pictured]
              simp [read]
            · obtain ⟨settings, clock⟩ := Prod.mk.inj kept
              refine ⟨begins.clock.trans clock, ?_, ?_⟩
              · rw [begins.grace, congrArg Settings.orphanGrace settings]
              · rw [begins.pairs, congrArg Settings.pairs settings]
            · simp only [passOf_append, silent, List.nil_append]
              simpa [passOf] using traced
      · obtain ⟨silent', ended, same⟩ := traces_pure.mp rest₂
        subst silent' ended same
        refine .inl ⟨fun picture => ?_, kept, due⟩
        simpa using unread picture

end Turns

section Runs

variable {opts : Options} {point : Point} {loop : Loop} {syncer after : Syncer}
  {last : List (Exchange Call Reply)}

/-- A completed pass to which nothing was refused leaves nothing to come back for. -/
theorem OwesNothing.of_pass {topo : Topology} {start : Syncer} {reports : List Report}
    {pass : List (Exchange Call Reply)} (begins : Begins opts topo syncer start)
    (traced : Traces (reconcile true topo) start pass (.ok reports) after)
    (unrefused : Unrefused syncer ((opts.watched topo syncer.pairs).map (·.dev)) pass) :
    OwesNothing pass after := by
  have reached : Runs overhearing (reconcile true topo) start [] (.ok reports) after pass :=
    Program.Follows.reaches traced (fun _ _ => trivial) []
  obtain ⟨settings, found⟩ := reconcile_found.runs reached reports rfl
  refine ⟨fun dev since counted => ?_, ?_, fun dev later => ⟨?_, fun macs => ?_⟩⟩
  · obtain ⟨now, noted, clock, listed, named, gone, counts⟩ := found dev since counted
    rw [begins.pairs] at gone
    have long := unrefused.missing noted now listed clock dev named gone
    rw [begins.clock] at counts
    refine ⟨now, clock, ?_⟩
    rw [counts, congrArg Settings.orphanGrace settings, begins.grace]
    exact long
  · intro dev work index mac errno later ⟨earlier, window, whole, _⟩ refused
    exact absurd (unrefused.removals index mac errno (by simp [whole])) refused
  · intro ⟨earlier, window, whole, _⟩
    exact (unrefused.notes dev (by simp [whole])).1 (by simp [whole])
  · intro ⟨earlier, window, whole, _⟩
    exact (unrefused.notes dev (by simp [whole])).2 macs (by simp [whole])

theorem OwesNothing.steady {pass : List (Exchange Call Reply)} (owes : OwesNothing pass syncer)
    (same : after.absences = syncer.absences) : OwesNothing pass after := by
  obtain ⟨settings, clock⟩ := Prod.mk.inj same
  refine ⟨fun dev since counted => ?_, owes.removed, owes.taken⟩
  rw [clock] at counted
  rw [congrArg Settings.orphanGrace settings]
  exact owes.waited dev since counted

/-- Where nothing is due, nothing is owed: only a completed pass takes off the schedule
what is due. -/
theorem Running.owes (run : Running opts Unrefused point loop syncer last) (due : loop.schedule.due = none) :
    OwesNothing last syncer := by
  induction run with
  | start authoritative fresh => cases due
  | again run turn ih => exact absurd due (beforeWait_traces turn)
  | rests run turn unread ih =>
      rcases beforeWait_traces turn with ⟨_, same, still⟩ | ⟨topo, start, reports, pictured, begins, traced⟩
      · exact (ih (still due)).steady same
      · exact absurd ((pictured _).mpr rfl) (unread _)
  | passed run turn read admitted ih =>
      rcases beforeWait_traces turn with ⟨unread, _⟩ | ⟨topo, start, reports, pictured, begins, traced⟩
      · exact absurd read (unread _)
      · obtain rfl := Except.ok.inj ((pictured _).mp read)
        exact .of_pass begins traced admitted
  | answered run turn ih =>
      obtain ⟨still, same⟩ := waitAndAnswer_keeps.traced turn
      exact (ih (still due)).steady same

end Runs

/-- A card whose bridge was taken apart. -/
def looseTopology : Topology where
  links := [{ name := "nic1", index := 2, mac := some ⟨2, 0, 0, 0, 0, 0x10⟩, numvfs := 1 }]
  distinct := (unbridged 0).topo.distinct

/-- A daemon that finds its pairs itself. -/
def detectingSyncer : Syncer where
  pairs := []
  authoritative := true
  orphanGrace := 60 * second

/-- Its first turn there. -/
def firstTurn (noted : List Name) : List (Exchange DaemonCall DaemonReply) :=
  [⟨.stopping, false⟩, ⟨.resyncWanted, false⟩, ⟨.now, 5⟩, ⟨.readTopology, .ok looseTopology⟩,
    ⟨.cardLimits [] looseTopology, none⟩, ⟨.sys .now, 5⟩, ⟨.sys .listNotes, .ok noted⟩, ⟨.now, 6⟩]

theorem firstTurn_reads {noted : List Name} :
    (⟨.readTopology, .ok looseTopology⟩ : Exchange DaemonCall DaemonReply) ∈ firstTurn noted := by
  simp [firstTurn]

def restingLoop : Loop where
  schedule := ⟨none, 6, .start⟩
  last := some looseTopology
  waitFailures := 0

end SriovMacSync
