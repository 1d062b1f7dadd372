import SriovMacSync.Absence.Overlooks
import SriovMacSync.World.Host

namespace SriovMacSync

open Data Netlink Interaction Interaction.Action

/-! # The grace of a device that is missing

A daemon attempts passes one after another, each over the pairs its own reading shows.
A device that is noted and missing is swept once it has been missing for the grace
period, by the clock the searches for orphans keep. -/

/-- One attempt at a pass: when, over which pairs and topology, and what was asked and
answered. -/
structure Attempt where
  time : Nat
  pairs : List Pair
  topo : Topology
  events : List (Exchange Call Reply)

namespace Attempt

def devs (attempt : Attempt) : List Name := attempt.pairs.map (·.dev)

/-- Autodetection is redone before every pass. -/
def begins (attempt : Attempt) (syncer : Syncer) : Syncer := { syncer with pairs := attempt.pairs }

/-- The clock, where the attempt looks at it, shows the attempt's time. -/
def Timed (attempt : Attempt) : Prop :=
  ∀ now : Nat, (⟨.now, now⟩ : Exchange Call Reply) ∈ attempt.events → now = attempt.time

/-- The attempt came to an end, as a pass or refused. -/
def Ends (attempt : Attempt) (syncer after : Syncer) : Prop :=
  ∃ outcome, (reconcile true attempt.topo (attempt.begins syncer)).Follows attempt.events
    (.done (outcome, after))

/-- The attempt got as far as searching for orphans. -/
def Searches (attempt : Attempt) : Prop :=
  ∃ now : Nat, (⟨.now, now⟩ : Exchange Call Reply) ∈ attempt.events

/-- An attempt refused before the search shows no device whose absence is being
counted. -/
def CountsOn (syncer : Syncer) (attempt : Attempt) : Prop :=
  attempt.Searches ∨ ∀ dev ∈ attempt.devs, syncer.absentSince dev = none

end Attempt

/-- A daemon after these attempts, the latest first, with batches and changes of limits
in between. -/
inductive Daemon (grace : Nat) (admits : Syncer → Attempt → Prop) :
    List Attempt → Syncer → Prop where
  | start {syncer : Syncer} (authoritative : syncer.authoritative = true)
      (waits : syncer.orphanGrace = grace) (fresh : syncer.absentSince = fun _ => none) :
      Daemon grace admits [] syncer
  | attempt {attempt : Attempt} {attempts : List Attempt} {syncer after : Syncer}
      (run : Daemon grace admits attempts syncer)
      (later : ∀ last ∈ attempts.head?, last.time ≤ attempt.time) (timed : attempt.Timed)
      (admitted : admits syncer attempt) (ends : attempt.Ends syncer after) :
      Daemon grace admits (attempt :: attempts) after
  | batch {attempts : List Attempt} {syncer after : Syncer} {topo : Topology} {batch : List Event}
      {events : List (Exchange Call Reply)} {outcome : Except Errno Urgency}
      (run : Daemon grace admits attempts syncer)
      (ends : (fastApply topo batch syncer).Follows events (.done (outcome, after))) :
      Daemon grace admits attempts after
  | limits {attempts : List Attempt} {syncer : Syncer} {maxMacs : Nat}
      {maxMacsPerCard : Name → Option Nat} {vfStale : Bool}
      (run : Daemon grace admits attempts syncer) :
      Daemon grace admits attempts { syncer with maxMacs, maxMacsPerCard, vfStale }

/-- The attempts of some period that ends with the first of the list and is at least as
long as the grace, in every one of which the device was missing. -/
def LongAbsent (grace : Nat) (dev : Name) (time : Nat) (attempts : List Attempt) : Prop :=
  ∃ period, period <+: attempts ∧ (∀ attempt ∈ period, dev ∉ attempt.devs) ∧
    ∃ first ∈ period, first.time + grace ≤ time

section Search

variable {start syncer : Syncer} {live : List Name} {time : Nat} {past : List (Exchange Call Reply)}

/-- A device whose absence has lasted, by the clock a search found. -/
def Due (start : Syncer) (live : List Name) (time : Nat) (dev : Name) : Prop :=
  dev ∉ live ∧ ∃ since, (start.absentSince dev = some since ∨ since = time) ∧
    start.orphanGrace ≤ time - since

/-- What a search may have made of the clock. -/
def Searched (start : Syncer) (live : List Name) (time : Nat) (after : Syncer) : Prop :=
  ∀ dev since, after.absentSince dev = some since →
    dev ∉ live ∧ (start.absentSince dev = some since ∨ since = time)

/-- An attempt whose clock shows `time`, in which only what is due is swept. -/
def attempting (start : Syncer) (live : List Name) (time : Nat) :
    Environment Call Reply (List (Exchange Call Reply)) :=
  .recording (fun event => ∀ now : Nat, event = ⟨.now, now⟩ → now = time)
    fun _ request => ∀ dev, request = .lock dev .sweep → Due start live time dev

theorem Overlooks.safe {α : Type} {action : Sync α} (overlooks : Overlooks (Due start live time) action) :
    Safe (attempting start live time) action
      (fun _ after _ => after.absences = syncer.absences) syncer past := by
  have framed : Safe (attempting start live time) action
      (fun _ after _ => after.absences = syncer.absences ∧ True) syncer past :=
    (overlooks syncer).frame (fun _ _ _ spared => ⟨spared, fun _ _ _ => trivial⟩) trivial
  exact framed.mono fun _ _ _ kept => kept.1

theorem sweepNote_overlooks {swept : Name → Prop} {dev : Name} {topo : Topology}
    (due : swept dev) : Overlooks swept (sweepNote dev topo) := by
  refine .locked (fun _ => due) (.bind loadOwned_overlooks fun owned => .ite
    (.bind noteIsReadable_overlooks fun _ => .ite
      (.bind removeNote_overlooks fun _ => .pure) .pure)
    (.bind (.bind notedLink_overlooks fun link => ?_) fun kept =>
      .bind noteIsReadable_overlooks fun _ => .ite
        (.bind removeNote_overlooks fun _ => .pure)
        (.bind writeOwned_overlooks fun _ => .pure)))
  split
  · exact .bind (.bind (.ask nofun) fun _ => .bind setEach_overlooks fun _ => .pure) fun _ => .pure
  · exact .pure

theorem dropOrphan_overlooks {swept : Name → Prop} {dev : Name} {topo : Topology} {apply : Bool}
    (due : swept dev) : Overlooks swept (dropOrphan topo apply dev) := by
  have sweeps {act : Bool} : Overlooks swept (sweepOrphan dev topo act) := by
    refine .ite (.bind (sweepNote_overlooks due) fun gone => .modify fun syncer => ?_)
      (.bind loadOwned_overlooks fun _ => .pure)
    split <;> rfl
  refine .bind .get fun syncer => .bind notedLink_overlooks fun link => ?_
  split
  · exact sweeps
  · refine .bind isUnidentified_overlooks fun _ => .ite .pure
      (.bind renamedTarget_overlooks fun target => ?_)
    split
    · exact .ite (.bind followRename_overlooks fun _ => .pure) .pure
    · exact sweeps

theorem notedDevicesOrNone_overlooks {swept : Name → Prop} : Overlooks swept notedDevicesOrNone := by
  refine .bind (.bind (.ask nofun) fun _ => .pure) fun listing => ?_
  split <;> exact .pure

/-- The search: the clock goes on for what is still missing and starts for what is
newly missing. -/
theorem orphaned_safe (same : syncer.absences = start.absences)
    (authoritative : start.authoritative = true) (listed : syncer.pairs.map (·.dev) = live) :
    Safe (attempting start live time) orphaned (fun orphans after _ =>
      after.toSettings = start.toSettings ∧ Searched start live time after ∧
        ∀ dev ∈ orphans, Due start live time dev) syncer past := by
  obtain ⟨settings, clock⟩ := Prod.mk.inj same
  have authoritative : syncer.authoritative = true := by
    rw [← authoritative, ← congrArg Settings.authoritative settings]
  refine safe_bind.mpr (safe_get.mpr ?_)
  simp only [authoritative, Bool.not_true, Bool.false_eq_true, if_false]
  refine safe_bind.mpr (safe_ask.mpr ⟨nofun, ?_⟩)
  rintro now later ⟨timed, rfl⟩
  obtain rfl := timed now rfl
  refine safe_bind.mpr ((Overlooks.safe notedDevicesOrNone_overlooks).mono ?_)
  intro noted after _ kept
  obtain ⟨settings', clock'⟩ := Prod.mk.inj kept
  have pairs : after.pairs.map (·.dev) = live := by
    rw [congrArg Settings.pairs settings', listed]
  have since (dev : Name) : after.absentSince dev = start.absentSince dev :=
    congrFun (clock'.trans clock) dev
  refine safe_bind.mpr (safe_get.mpr (safe_bind.mpr (safe_modify.mpr ?_)))
  refine ⟨settings'.trans settings, ?_, ?_⟩
  · intro dev moment counted
    dsimp only at counted
    split at counted
    · rename_i missing
      rw [List.mem_filter, pairs, decide_eq_true_eq] at missing
      refine ⟨missing.2, ?_⟩
      rw [since] at counted
      cases known : start.absentSince dev with
      | none =>
          rw [known] at counted
          exact .inr (Option.some.inj counted).symm
      | some first =>
          rw [known] at counted
          exact .inl counted
    · cases counted
  · intro dev member
    rw [List.mem_filter, List.mem_filter, pairs, decide_eq_true_eq, decide_eq_true_eq] at member
    obtain ⟨⟨-, missing⟩, long⟩ := member
    rw [since, congrArg Settings.orphanGrace (settings'.trans settings)] at long
    refine ⟨missing, _, ?_, long⟩
    cases known : start.absentSince dev with
    | none => exact .inr rfl
    | some first => exact .inl rfl

/-- The sweep over what a search found. -/
theorem dropOrphans_safe {topo : Topology} {apply : Bool} (same : syncer.absences = start.absences)
    (authoritative : start.authoritative = true) (listed : syncer.pairs.map (·.dev) = live) :
    Safe (attempting start live time) (dropOrphans topo apply) (fun _ after _ =>
      after.toSettings = start.toSettings ∧ Searched start live time after) syncer past := by
  refine safe_bind.mpr ((orphaned_safe same authoritative listed).mono ?_)
  rintro orphans middle between ⟨settings, searched, due⟩
  have swept : Safe (attempting start live time) (orphans.forM (dropOrphan topo apply))
      (fun _ after _ => after.absences = middle.absences) middle between := by
    refine safe_forM rfl fun dev member syncer past same => ?_
    exact (dropOrphan_overlooks (due dev member)).safe.mono fun _ _ _ kept => kept.trans same
  refine swept.mono ?_
  intro _ after _ kept
  obtain ⟨settings', clock⟩ := Prod.mk.inj kept
  refine ⟨settings'.trans settings, fun dev since counted => ?_⟩
  rw [clock] at counted
  exact searched dev since counted

/-- An attempt either leaves the clock as it found it, without a search, or as a search
made it. -/
theorem reconcile_attempts {topo : Topology} (authoritative : start.authoritative = true)
    (listed : start.pairs.map (·.dev) = live) :
    Safe (attempting start live time) (reconcile true topo) (fun _ after past =>
      after.toSettings = start.toSettings ∧
        (Searched start live time after ∨
          after.absentSince = start.absentSince ∧
            ∀ now : Nat, (⟨.now, now⟩ : Exchange Call Reply) ∉ past)) start [] := by
  refine safe_bind.mpr (safe_get.mpr ?_)
  dsimp only
  split
  · refine safe_bind.mpr ((dropOrphans_safe rfl authoritative listed).mono ?_)
    exact fun _ _ _ swept => ⟨swept.1, .inl swept.2⟩
  · refine safe_bind.mpr (safe_ask.mpr ⟨nofun, ?_⟩)
    rintro dump past ⟨-, rfl⟩
    cases dump with
    | error errno => exact ⟨rfl, .inr ⟨rfl, by simp⟩⟩
    | ok fdb =>
        have asked : Safe (attempting start live time) 
            (askDriver (topo.livePfs (start.pairs.map (·.dev)))) (fun result after past =>
            after.absences = start.absences ∧ ∀ errno, result = .error errno →
              ∀ now : Nat, (⟨.now, now⟩ : Exchange Call Reply) ∉ past) start
            ([] ++ [⟨.dumpFdb, .ok fdb⟩]) := by
          refine safe_bind.mpr (safe_get.mpr ?_)
          split
          · exact ⟨rfl, nofun⟩
          · refine safe_bind.mpr (safe_ask.mpr ⟨nofun, ?_⟩)
            rintro reply past ⟨-, rfl⟩
            cases reply with
            | error errno => exact ⟨rfl, fun _ _ now => by simp⟩
            | ok fresh => exact ⟨rfl, nofun⟩
        refine safe_bind.mpr (asked.mono ?_)
        rintro result after past ⟨same, refused⟩
        cases result with
        | error errno =>
            obtain ⟨settings, clock⟩ := Prod.mk.inj same
            exact ⟨settings, .inr ⟨clock, refused errno rfl⟩⟩
        | ok answer =>
            refine safe_bind.mpr ((stampPass_overlooks.safe).mono ?_)
            intro passAt stamped past same'
            have pairs : stamped.pairs.map (·.dev) = live := by
              rw [← listed, congrArg Settings.pairs (Prod.mk.inj (same'.trans same)).1]
            refine safe_bind.mpr ((dropOrphans_safe (same'.trans same) authoritative pairs).mono ?_)
            rintro _ swept past ⟨settings, searched⟩
            refine passPairs_overlooks.safe.mono ?_
            intro _ after _ kept
            obtain ⟨settings', clock⟩ := Prod.mk.inj kept
            refine ⟨settings'.trans settings, .inl fun dev since counted => ?_⟩
            rw [clock] at counted
            exact searched dev since counted

end Search

section Runs

variable {grace : Nat} {syncer : Syncer} {attempts : List Attempt} {attempt : Attempt}

/-- Where the clock of a device stands, the device has been missing since. -/
structure Counts (grace : Nat) (attempts : List Attempt) (syncer : Syncer) : Prop where
  authoritative : syncer.authoritative = true
  waits : syncer.orphanGrace = grace
  since {dev : Name} {moment : Nat} : syncer.absentSince dev = some moment →
    ∃ period, period <+: attempts ∧ (∀ each ∈ period, dev ∉ each.devs) ∧
      ∃ first ∈ period, first.time = moment

theorem Attempt.Timed.admitted (timed : attempt.Timed) : ∀ event ∈ attempt.events,
    ∀ now : Nat, event = (⟨.now, now⟩ : Exchange Call Reply) → now = attempt.time := by
  rintro event member now rfl
  exact timed now member

/-- One more attempt. -/
theorem Counts.attempted {after : Syncer} (counts : Counts grace attempts syncer)
    (timed : attempt.Timed) (counted : attempt.CountsOn syncer) (ends : attempt.Ends syncer after) :
    Counts grace (attempt :: attempts) after := by
  obtain ⟨outcome, path⟩ := ends
  have attempted : Safe (attempting (attempt.begins syncer) attempt.devs attempt.time)
      (reconcile true attempt.topo) _ (attempt.begins syncer) [] :=
    reconcile_attempts counts.authoritative rfl
  obtain ⟨settings, clock⟩ :=
    Program.Safe.result attempted (path.reaches timed.admitted [])
  have onward {dev : Name} {moment : Nat} (missing : dev ∉ attempt.devs)
      (before : syncer.absentSince dev = some moment) :
      ∃ period, period <+: attempt :: attempts ∧ (∀ each ∈ period, dev ∉ each.devs) ∧
        ∃ first ∈ period, first.time = moment := by
    obtain ⟨period, recent, absent, first, member, since⟩ := counts.since before
    refine ⟨attempt :: period, (List.prefix_cons_inj attempt).mpr recent, ?_, first,
      List.mem_cons_of_mem _ member, since⟩
    intro each inPeriod
    rcases List.mem_cons.mp inPeriod with rfl | inPeriod
    · exact missing
    · exact absent each inPeriod
  refine ⟨(congrArg Settings.authoritative settings).trans counts.authoritative,
    (congrArg Settings.orphanGrace settings).trans counts.waits, ?_⟩
  intro dev moment known
  rcases clock with searched | ⟨still, unsearched⟩
  · obtain ⟨missing, before | now⟩ := searched dev moment known
    · exact onward missing before
    · refine ⟨[attempt], (List.prefix_cons_inj attempt).mpr (List.nil_prefix ..), ?_, attempt,
        List.mem_singleton_self _, now.symm⟩
      intro each alone
      rw [List.mem_singleton.mp alone]
      exact missing
  · rw [still] at known
    refine onward (fun member => ?_) known
    rcases counted with ⟨now, searched⟩ | uncounted
    · exact unsearched now (by simpa using searched)
    · rw [show (attempt.begins syncer).absentSince dev = none from uncounted dev member] at known
      cases known

/-- Neither does a batch. -/
theorem fastApply_keeps {topo : Topology} {batch : List Event}
    {events : List (Exchange Call Reply)} {outcome : Except Errno Urgency} {after : Syncer}
    (ends : (fastApply topo batch syncer).Follows events (.done (outcome, after))) :
    after.absences = syncer.absences := by
  have overlooks : Overlooks (fun _ => True) (fastApply topo batch) := fastApply_overlooks
  have framed : Safe (.recording (fun _ => True) fun _ _ => True) (fastApply topo batch)
      (fun _ after _ => after.absences = syncer.absences ∧ True) syncer [] :=
    (overlooks syncer).frame (fun _ _ _ _ => ⟨trivial, fun _ _ _ => trivial⟩) trivial
  have safe := framed.mono fun _ _ _ kept => kept.1
  have ended : Program.Safe _ (fastApply topo batch syncer)
      (fun result _ => result.2.absences = syncer.absences) [] := safe
  exact ended.result (ends.reaches (fun _ _ => trivial) [])

theorem Daemon.counts (run : Daemon grace (fun syncer attempt => attempt.CountsOn syncer) attempts syncer) :
    Counts grace attempts syncer := by
  induction run with
  | start authoritative waits fresh =>
      refine ⟨authoritative, waits, fun known => ?_⟩
      rw [fresh] at known
      cases known
  | attempt run later timed admitted ends ih => exact ih.attempted timed admitted ends
  | batch run ends ih =>
      obtain ⟨settings, clock⟩ := Prod.mk.inj (fastApply_keeps ends)
      refine ⟨(congrArg Settings.authoritative settings).trans ih.authoritative,
        (congrArg Settings.orphanGrace settings).trans ih.waits, fun known => ?_⟩
      rw [clock] at known
      exact ih.since known
  | limits run ih => exact ⟨ih.authoritative, ih.waits, ih.since⟩

/-- A device is swept only after an absence of the whole grace. -/
theorem orphans_are_long_absent {dev : Name}
    (run : Daemon grace (fun syncer attempt => attempt.CountsOn syncer) attempts syncer)
    (timed : attempt.Timed)
    (sweeps : (reconcile true attempt.topo (attempt.begins syncer)).Issues attempt.events
      (.lock dev .sweep)) :
    LongAbsent grace dev attempt.time (attempt :: attempts) := by
  have counts := run.counts
  obtain ⟨next, path⟩ := sweeps
  have safe : Safe (attempting (attempt.begins syncer) attempt.devs attempt.time)
      (reconcile true attempt.topo) _ (attempt.begins syncer) [] :=
    reconcile_attempts counts.authoritative rfl
  obtain ⟨missing, since, known, long⟩ :=
    Program.Safe.request safe (path.reaches timed.admitted []) dev rfl
  change syncer.orphanGrace ≤ attempt.time - since at long
  rw [counts.waits] at long
  have alone : grace = 0 → LongAbsent grace dev attempt.time (attempt :: attempts) := by
    intro none
    refine ⟨[attempt], (List.prefix_cons_inj attempt).mpr (List.nil_prefix ..), ?_, attempt,
      List.mem_singleton_self _, by omega⟩
    intro each alone
    rw [List.mem_singleton.mp alone]
    exact missing
  rcases known with before | now
  · by_cases earlier : since ≤ attempt.time
    · obtain ⟨period, recent, absent, first, member, same⟩ := counts.since before
      refine ⟨attempt :: period, (List.prefix_cons_inj attempt).mpr recent, ?_, first,
        List.mem_cons_of_mem _ member, by omega⟩
      intro each inPeriod
      rcases List.mem_cons.mp inPeriod with rfl | inPeriod
      · exact missing
      · exact absent each inPeriod
    · exact alone (by omega)
  · exact alone (by omega)

end Runs

section Examples

/-- What the clock showed in the course of an attempt. -/
def readings (events : List (Exchange Call Reply)) : List Nat :=
  events.filterMap fun event =>
    match event with
    | ⟨.now, now⟩ => some now
    | _ => none

theorem mem_readings {events : List (Exchange Call Reply)} {now : Nat} :
    (⟨.now, now⟩ : Exchange Call Reply) ∈ events ↔ now ∈ readings events := by
  refine ⟨fun member => List.mem_filterMap.mpr ⟨_, member, rfl⟩, fun member => ?_⟩
  obtain ⟨⟨request, reply⟩, member, shown⟩ := List.mem_filterMap.mp member
  cases request with
  | now =>
      cases shown
      exact member
  | _ => cases shown

/-- A host on which `nic1` is noted and its bridge gone, at a time. -/
def unbridged (time : Nat) : Host where
  topo := {
    links := [{ name := "nic1", index := 2, mac := some ⟨2, 0, 0, 0, 0, 0x10⟩, numvfs := 1 }]
    distinct := by decide }
  card index := if index = 2 then {guest} else ∅
  clock := time
  notes := AList.insert "nic1" [guest] ∅
  records dev := if dev = "nic1" then some 2 else none

/-- The kernel gives no forwarding dump. -/
def dumpless : Handler Call Reply Host
  | host, .dumpFdb => (.error (.other 12), host)
  | host, request => host.answer request

/-- An attempt as it goes on a host. -/
def attemptOn (handler : Handler Call Reply Host) (host : Host) (pairs : List Pair)
    (syncer : Syncer) : Attempt where
  time := host.clock
  pairs
  topo := host.topo
  events := ((reconcile true host.topo { syncer with pairs }).replayUntil handler (fun _ => false)
    host).1

def leftBy (handler : Handler Call Reply Host) (host : Host) (pairs : List Pair) (syncer : Syncer) :
    Syncer :=
  ((reconcile true host.topo { syncer with pairs }).replay handler host).1.2

theorem attemptOn_ends (handler : Handler Call Reply Host) (host : Host) (pairs : List Pair)
    (syncer : Syncer) :
    (attemptOn handler host pairs syncer).Ends syncer (leftBy handler host pairs syncer) :=
  ⟨_, Program.replay_follows handler _ host⟩

def watchful : Syncer := { pairs := [], authoritative := true, orphanGrace := 10 }

def missingAtZero : Attempt := attemptOn Host.answer (unbridged 0) [] watchful

def afterMissing : Syncer := leftBy Host.answer (unbridged 0) [] watchful

/-- The bridge is back, but the dump fails. -/
def backAtFive : Attempt :=
  attemptOn dumpless { quietHost with clock := 5 } [⟨"nic1", "br0"⟩] afterMissing

def afterBack : Syncer :=
  leftBy dumpless { quietHost with clock := 5 } [⟨"nic1", "br0"⟩] afterMissing

/-- The next attempt, up to the sweep it comes to. -/
def missingAtTen (syncer : Syncer) : Attempt where
  time := 10
  pairs := []
  topo := (unbridged 10).topo
  events := ((reconcile true (unbridged 10).topo { syncer with pairs := [] }).replayUntil Host.answer
    (fun request => request = .lock "nic1" .sweep) (unbridged 10)).1

theorem daemon_missing {admits : Syncer → Attempt → Prop} (admitted : admits watchful missingAtZero) :
    Daemon 10 admits [missingAtZero] afterMissing := by
  refine .attempt (.start rfl rfl rfl) nofun ?_ admitted (attemptOn_ends _ _ _ _)
  intro now shown
  have all : ∀ now ∈ readings missingAtZero.events, now = missingAtZero.time := by decide +kernel
  exact all now (mem_readings.mp shown)

theorem refused_attempt_counts_as_absence :
    ¬ ∀ (grace : Nat) (attempts : List Attempt) (syncer : Syncer) (attempt : Attempt) (dev : Name),
      Daemon grace (fun _ _ => True) attempts syncer →
      (∀ last ∈ attempts.head?, last.time ≤ attempt.time) → attempt.Timed →
      (reconcile true attempt.topo (attempt.begins syncer)).Issues attempt.events
        (.lock dev .sweep) →
      LongAbsent grace dev attempt.time (attempt :: attempts) := by
  intro claimed
  have back : Daemon 10 (fun _ _ => True) [backAtFive, missingAtZero] afterBack := by
    refine .attempt (daemon_missing trivial) ?_ ?_ trivial (attemptOn_ends _ _ _ _)
    · simp [missingAtZero, backAtFive, attemptOn, unbridged]
    · intro now shown
      have none : readings backAtFive.events = [] := by decide +kernel
      rw [mem_readings, none] at shown
      cases shown
  have timed : (missingAtTen afterBack).Timed := by
    intro now shown
    have all : ∀ now ∈ readings (missingAtTen afterBack).events, now = 10 := by decide +kernel
    exact all now (mem_readings.mp shown)
  have swept : (reconcile true (missingAtTen afterBack).topo
      ((missingAtTen afterBack).begins afterBack)).Issues (missingAtTen afterBack).events
      (.lock "nic1" .sweep) :=
    Program.replayUntil_issues _ _ _ _ (by decide +kernel)
  obtain ⟨period, front, absent, first, member, long⟩ :=
    claimed 10 _ afterBack (missingAtTen afterBack) "nic1" back
      (by simp [backAtFive, attemptOn, missingAtTen]) timed swept
  have apart : backAtFive ∉ period := fun member => absent _ member (by decide)
  match period, front, member with
  | [only], front, member =>
      obtain rfl := (List.cons_prefix_cons.mp front).1
      rw [List.mem_singleton.mp member] at long
      exact absurd long (by decide)
  | _ :: second :: _, front, _ =>
      have same := (List.cons_prefix_cons.mp (List.cons_prefix_cons.mp front).2).1
      exact apart (same ▸ by simp)

theorem orphans_are_long_absent_swept :
    missingAtZero.CountsOn watchful ∧ LongAbsent 10 "nic1" 10 [missingAtTen afterMissing, missingAtZero] := by
  have counted : missingAtZero.CountsOn watchful := by
    refine .inl ⟨0, mem_readings.mpr ?_⟩
    decide +kernel
  have timed : (missingAtTen afterMissing).Timed := by
    intro now shown
    have all : ∀ now ∈ readings (missingAtTen afterMissing).events, now = 10 := by decide +kernel
    exact all now (mem_readings.mp shown)
  have swept : (reconcile true (missingAtTen afterMissing).topo
      ((missingAtTen afterMissing).begins afterMissing)).Issues (missingAtTen afterMissing).events
      (.lock "nic1" .sweep) :=
    Program.replayUntil_issues _ _ _ _ (by decide +kernel)
  exact ⟨counted, orphans_are_long_absent (daemon_missing counted) timed swept⟩

end Examples

end SriovMacSync
