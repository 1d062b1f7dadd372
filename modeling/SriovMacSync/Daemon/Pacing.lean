import SriovMacSync.Daemon.Waiting

namespace SriovMacSync

open Data Netlink Interaction Interaction.Action

/-! # The pace of the passes

The halves of a turn again, with a note of what they did to the schedule: what was
attempted, what wanted a pass at once, and what each batch returned. -/

/-- What wants a pass at once, whatever the pace. -/
inductive Urge where
  | operator
  | failedWait
  | lostEvents
deriving DecidableEq, Repr

inductive Happening where
  /-- a pass, from the look at the clock that found it due to the one behind it -/
  | attempt (began ended : Nat) (pass : Pass)
  | urged (urge : Urge) (now : Nat)
  /-- a batch, and the pass it claimed -/
  | batch (claim : Option (Nat × Trigger))

def hearOperatorNoted (schedule : Schedule) : Daemonic (Schedule × List Happening) := do
  let wanted : Bool ← askWorld .resyncWanted
  if wanted then
    believeNothing
    let now : Nat ← askWorld .now
    return (schedule.atOnce now .operator, [.urged .operator now])
  else
    return (schedule, [])

def beforeWaitNoted (opts : Options) (loop : Loop) : Daemonic (Onward × List Happening) := do
  let stopping : Bool ← askWorld .stopping
  if stopping then
    return (.stops, [])
  else
    let (schedule, heard) ← hearOperatorNoted loop.schedule
    let began : Nat ← askWorld .now
    if schedule.passDue began then
      match ← runPass opts loop.last with
      | (.done, last) =>
          let ended : Nat ← askWorld .now
          return (.waits { loop with schedule := schedule.completed ended, last },
            heard ++ [.attempt began ended .done])
      | (.refused, last) =>
          let ended : Nat ← askWorld .now
          return (.again { loop with schedule := schedule.retrySoon ended, last },
            heard ++ [.attempt began ended .refused])
    else
      return (.waits { loop with schedule }, heard)

def failedWaitNoted (loop : Loop) : Daemonic (Loop × List Happening) := do
  brake loop.waitFailures
  let now : Nat ← askWorld .now
  believeNothing
  return ({ loop with
    waitFailures := loop.waitFailures + 1
    schedule := loop.schedule.atOnce now .recovery }, [.urged .failedWait now])

def takeEventsNoted (loop : Loop) : Daemonic (Loop × List Happening) := do
  let received : Except Errno Events ← askWorld .recvEvents
  match received with
  | .error _ =>
      let now : Nat ← askWorld .now
      believeNothing
      return ({ loop with schedule := loop.schedule.atOnce now .lostEvents },
        [.urged .lostEvents now])
  | .ok events =>
      match ← handleBatch loop.last events loop.schedule.lastPass with
      | (some (due, trigger), last) =>
          return ({ loop with schedule := loop.schedule.bringForward due trigger, last },
            [.batch (some (due, trigger))])
      | (none, last) => return ({ loop with last }, [.batch none])

def waitAndAnswerNoted (loop : Loop) : Daemonic (Loop × List Happening) := do
  let now : Nat ← askWorld .now
  let woken : Except Errno Bool ← askWorld (.wait (waitMillis (loop.schedule.waitFor now)))
  match woken with
  | .error _ => failedWaitNoted loop
  | .ok false => return ({ loop with waitFailures := 0 }, [])
  | .ok true => takeEventsNoted { loop with waitFailures := 0 }

section Notes

/-- The notes change nothing. -/
theorem hearOperatorNoted_fst (schedule : Schedule) :
    Prod.fst <$> hearOperatorNoted schedule = hearOperator schedule := by
  simp only [hearOperatorNoted, hearOperator, map_bind]
  congr 1
  funext wanted
  split <;> simp

theorem beforeWaitNoted_fst (opts : Options) (loop : Loop) :
    Prod.fst <$> beforeWaitNoted opts loop = beforeWait opts loop := by
  simp only [beforeWaitNoted, beforeWait, map_bind, ← hearOperatorNoted_fst, bind_map_left]
  congr 1
  funext stopping
  split
  · simp
  · simp only [map_bind]
    congr 1
    funext heard
    congr 1
    funext began
    split
    · simp only [map_bind]
      congr 1
      funext passed
      obtain ⟨pass, last⟩ := passed
      cases pass <;> simp
    · simp

theorem takeEventsNoted_fst (loop : Loop) : Prod.fst <$> takeEventsNoted loop = takeEvents loop := by
  simp only [takeEventsNoted, takeEvents, map_bind]
  congr 1
  funext received
  cases received with
  | error errno => simp
  | ok events =>
      simp only [map_bind]
      congr 1
      funext answered
      obtain ⟨claim, last⟩ := answered
      cases claim <;> simp

theorem waitAndAnswerNoted_fst (loop : Loop) :
    Prod.fst <$> waitAndAnswerNoted loop = waitAndAnswer loop := by
  simp only [waitAndAnswerNoted, waitAndAnswer, map_bind]
  congr 1
  funext now
  congr 1
  funext woken
  cases woken with
  | error errno => simp [failedWaitNoted, failedWait]
  | ok woken =>
      cases woken with
      | false => simp
      | true => exact takeEventsNoted_fst _

end Notes

section Traced

variable {Memory : Type} {Call : Type} {Reply : Call → Type} {α β : Type}

theorem traces_map {action : Action Memory Call Reply α} {change : α → β} {memory left : Memory}
    {events : List (Exchange Call Reply)} {result : β} :
    Traces (change <$> action) memory events result left ↔
      ∃ value, Traces action memory events value left ∧ result = change value := by
  rw [map_eq_pure_bind, traces_bind]
  constructor
  · intro ⟨value, middle, first, second, ran, ended, joined⟩
    obtain ⟨silent, same, kept⟩ := traces_pure.mp ended
    subst silent kept
    rw [joined, List.append_nil]
    exact ⟨value, ran, same⟩
  · intro ⟨value, ran, same⟩
    exact ⟨value, left, events, [], ran, traces_pure.mpr ⟨rfl, same, rfl⟩, by simp⟩

theorem asks_anything {action : Action Memory Call Reply α} : Asks (fun _ => True) action := by
  intro memory
  unfold Within Safe
  induction action memory with
  | done value => trivial
  | call request next ih => exact ⟨trivial, fun reply _ _ => ih reply⟩

end Traced

/-- A run of the daemon, and everything noted on the way. -/
inductive Noted (opts : Options) : Point → Loop → Syncer → List Happening → Prop where
  | start (syncer : Syncer) (now : Nat) : Noted opts .top (.start now) syncer []
  | again {loop next : Loop} {syncer after : Syncer} {log notes : List Happening}
      {events : List (Exchange DaemonCall DaemonReply)} (run : Noted opts .top loop syncer log)
      (turn : Traces (beforeWaitNoted opts loop) syncer events (.again next, notes) after) :
      Noted opts .top next after (log ++ notes)
  | waits {loop next : Loop} {syncer after : Syncer} {log notes : List Happening}
      {events : List (Exchange DaemonCall DaemonReply)} (run : Noted opts .top loop syncer log)
      (turn : Traces (beforeWaitNoted opts loop) syncer events (.waits next, notes) after) :
      Noted opts .wait next after (log ++ notes)
  | answered {loop next : Loop} {syncer after : Syncer} {log notes : List Happening}
      {events : List (Exchange DaemonCall DaemonReply)} (run : Noted opts .wait loop syncer log)
      (turn : Traces (waitAndAnswerNoted loop) syncer events (next, notes) after) :
      Noted opts .top next after (log ++ notes)

/-- Every run leaves notes. -/
theorem Running.noted {opts : Options} {admits : Syncer → List Name → List (Exchange Call Reply) → Prop}
    {point : Point} {loop : Loop} {syncer : Syncer} {last : List (Exchange Call Reply)}
    (run : Running opts admits point loop syncer last) : ∃ log, Noted opts point loop syncer log := by
  have first {loop : Loop} {syncer after : Syncer} {onward : Onward}
      {events : List (Exchange DaemonCall DaemonReply)}
      (turn : Traces (beforeWait opts loop) syncer events onward after) :
      ∃ notes, Traces (beforeWaitNoted opts loop) syncer events (onward, notes) after := by
    rw [← beforeWaitNoted_fst, traces_map] at turn
    obtain ⟨⟨_, notes⟩, ran, same⟩ := turn
    exact ⟨notes, same ▸ ran⟩
  induction run with
  | start authoritative fresh => exact ⟨[], .start ..⟩
  | again run turn ih =>
      obtain ⟨log, before⟩ := ih
      obtain ⟨notes, ran⟩ := first turn
      exact ⟨_, before.again ran⟩
  | rests run turn unread ih =>
      obtain ⟨log, before⟩ := ih
      obtain ⟨notes, ran⟩ := first turn
      exact ⟨_, before.waits ran⟩
  | passed run turn read admitted ih =>
      obtain ⟨log, before⟩ := ih
      obtain ⟨notes, ran⟩ := first turn
      exact ⟨_, before.waits ran⟩
  | answered run turn ih =>
      obtain ⟨log, before⟩ := ih
      rw [← waitAndAnswerNoted_fst, traces_map] at turn
      obtain ⟨⟨_, notes⟩, ran, same⟩ := turn
      subst same
      exact ⟨_, before.answered ran⟩

section Pace

/-- Something that is no pass. -/
def Happening.Between : Happening → Prop
  | .attempt .. => False
  | _ => True

/-- What wanted a pass at once among these, by this moment. -/
def UrgedBy (between : List Happening) (moment : Nat) : Prop :=
  ∃ urge now, .urged urge now ∈ between ∧ now ≤ moment

/-- Of two passes in a row, the second begins the pace's time after the first ended, unless
something in between wanted it at once. -/
def Paced (log : List Happening) : Prop :=
  ∀ earlier began ended pass between began' ended' pass' later,
    log = earlier ++ .attempt began ended pass :: (between ++ .attempt began' ended' pass' :: later) →
    (∀ happening ∈ between, happening.Between) →
    ended + passPace ≤ began' ∨ UrgedBy between began'

/-- What the schedule keeps of the last pass of a log and of what came after it. -/
structure Keeps (schedule : Schedule) (log : List Happening) : Prop where
  paced : Paced log
  first : (∀ happening ∈ log, happening.Between) → schedule.due ≠ none
  last : ∀ earlier began ended pass behind, log = earlier ++ .attempt began ended pass :: behind →
    (∀ happening ∈ behind, happening.Between) → schedule.lastPass = ended ∧
      (∀ due, schedule.due = some due → ended + passPace ≤ due ∨ UrgedBy behind due) ∧
      (schedule.due = none → pass = .done ∧ ∀ happening ∈ behind, happening = .batch none)

/-- What follows an entry of a log that is one longer. -/
theorem split_concat {α : Type} {log front behind : List α} {entry last : α}
    (split : log ++ [last] = front ++ entry :: behind) :
    behind = [] ∧ last = entry ∧ log = front ∨
      ∃ behind', behind = behind' ++ [last] ∧ log = front ++ entry :: behind' := by
  rcases List.eq_nil_or_concat behind with none | ⟨behind', final, same⟩
  · subst none
    obtain ⟨here, there⟩ := List.append_inj' split rfl
    exact .inl ⟨rfl, List.singleton_inj.mp there, here⟩
  · subst same
    have longer : log ++ [last] = (front ++ entry :: behind') ++ [final] := by simpa using split
    obtain ⟨here, there⟩ := List.append_inj' longer rfl
    obtain rfl := List.singleton_inj.mp there
    exact .inr ⟨behind', by simp, here⟩

theorem UrgedBy.later {between more : List Happening} {moment later : Nat}
    (urged : UrgedBy between moment) (grown : between ⊆ more) (after : moment ≤ later) :
    UrgedBy more later := by
  obtain ⟨urge, now, member, early⟩ := urged
  exact ⟨urge, now, grown member, le_trans early after⟩

theorem Paced.quiet {log : List Happening} {happening : Happening} (paced : Paced log)
    (between : happening.Between) : Paced (log ++ [happening]) := by
  intro earlier began ended pass middle began' ended' pass' later split quiet
  rw [← List.cons_append, ← List.append_assoc] at split
  rcases split_concat split with ⟨-, same, -⟩ | ⟨later', -, shorter⟩
  · subst same
    exact between.elim
  · exact paced earlier began ended pass middle began' ended' pass' later' (by simpa using shorter)
      quiet

namespace Keeps

variable {schedule : Schedule} {log : List Happening}

theorem new (now : Nat) : Keeps (.new now) [] where
  paced earlier began ended pass between began' ended' pass' later split := by simp at split
  first _ := nofun
  last earlier began ended pass behind split := by simp at split

/-- Something happened that is no pass, and the schedule is due by it or as it was. -/
theorem quiet {after : Schedule} {happening : Happening} (keeps : Keeps schedule log)
    (between : happening.Between) (lastPass : after.lastPass = schedule.lastPass)
    (dueBy : ∀ due, after.due = some due → schedule.due = some due ∨
      schedule.lastPass + passPace ≤ due ∨ UrgedBy [happening] due)
    (none : after.due = none → schedule.due = none ∧ happening = .batch none) :
    Keeps after (log ++ [happening]) where
  paced := keeps.paced.quiet between
  first quiet nothing := keeps.first (fun other member => quiet other (by simp [member]))
    (none nothing).1
  last earlier began ended pass behind split quiet := by
    rcases split_concat split with ⟨-, same, -⟩ | ⟨behind', same, shorter⟩
    · subst same
      exact between.elim
    · subst same
      obtain ⟨atEnd, dues, nothing⟩ := keeps.last earlier began ended pass behind' shorter
        fun other member => quiet other (by simp [member])
      refine ⟨lastPass.trans atEnd, ?_, ?_⟩
      · intro due isDue
        rcases dueBy due isDue with before | paced | urged
        · exact (dues due before).imp_right fun urged => urged.later (by simp) le_rfl
        · exact .inl (atEnd ▸ paced)
        · exact .inr (urged.later (by simp) le_rfl)
      · intro isNone
        obtain ⟨before, noClaim⟩ := none isNone
        obtain ⟨done, rest⟩ := nothing before
        refine ⟨done, ?_⟩
        intro other member
        rcases List.mem_append.mp member with early | last
        · exact rest other early
        · rw [List.mem_singleton.mp last, noClaim]

theorem atOnce (keeps : Keeps schedule log) (urge : Urge) (now : Nat) (trigger : Trigger) :
    Keeps (schedule.atOnce now trigger) (log ++ [.urged urge now]) := by
  apply @quiet _ _ (schedule.atOnce now trigger) (.urged urge now) keeps trivial rfl ?_ nofun
  intro due isDue
  obtain rfl := Option.some.inj isDue
  exact .inr (.inr ⟨urge, now, by simp, le_rfl⟩)

theorem unclaimed (keeps : Keeps schedule log) : Keeps schedule (log ++ [.batch none]) :=
  keeps.quiet trivial rfl (fun _ isDue => .inl isDue) fun isNone => ⟨isNone, rfl⟩

theorem bringForward (keeps : Keeps schedule log) {due : Nat} {trigger : Trigger}
    (paced : schedule.lastPass + passPace ≤ due) :
    Keeps (schedule.bringForward due trigger) (log ++ [.batch (some (due, trigger))]) := by
  apply @quiet _ _ (schedule.bringForward due trigger) (.batch (some (due, trigger))) keeps trivial
    rfl ?_ nofun
  intro other isDue
  cases known : schedule.due with
  | none =>
      simp only [Schedule.bringForward, known, Option.map_none, Option.getD_none,
        Option.some.injEq] at isDue
      exact .inr (.inl (isDue ▸ paced))
  | some before =>
      simp only [Schedule.bringForward, known, Option.map_some, Option.getD_some,
        Option.some.injEq] at isDue
      rcases min_choice due before with claimed | stands
      · exact .inr (.inl (by omega))
      · exact .inl (congrArg some (by omega))

/-- A pass that was due begins in pace. -/
theorem attempt {after : Schedule} (keeps : Keeps schedule log) {began ended : Nat} {pass : Pass}
    (isDue : schedule.passDue began = true) (lastPass : after.lastPass = ended)
    (dueBy : ∀ due, after.due = some due → ended + passPace ≤ due)
    (done : after.due = none → pass = .done) :
    Keeps after (log ++ [.attempt began ended pass]) where
  paced := by
    intro earlier began₀ ended₀ pass₀ between began' ended' pass' later split quiet
    rw [← List.cons_append, ← List.append_assoc] at split
    rcases split_concat split with ⟨-, same, shorter⟩ | ⟨later', -, shorter⟩
    · cases same
      obtain ⟨atEnd, dues, -⟩ := keeps.last earlier began₀ ended₀ pass₀ between shorter quiet
      rw [Schedule.passDue, Option.any_eq_true] at isDue
      obtain ⟨due, known, passed⟩ := isDue
      have passed : due ≤ began := of_decide_eq_true passed
      exact (dues due known).imp (fun paced => le_trans paced passed) fun urged =>
        urged.later (List.Subset.refl _) passed
    · exact keeps.paced earlier began₀ ended₀ pass₀ between began' ended' pass' later'
        (by simpa using shorter) quiet
  first quiet := (quiet (.attempt began ended pass) (by simp)).elim
  last earlier began₀ ended₀ pass₀ behind split quiet := by
    rcases split_concat split with ⟨none, same, -⟩ | ⟨behind', same, -⟩
    · cases same
      subst none
      exact ⟨lastPass, fun due known => .inl (dueBy due known), fun isNone => ⟨done isNone, by simp⟩⟩
    · exact (quiet (.attempt began ended pass) (by simp [same])).elim

end Keeps

end Pace

section Turns

variable {loop : Loop} {syncer : Syncer} {log : List Happening} {opts : Options}

theorem passAfter_paced {urgency : Urgency} {lastPass : Nat} (syncer : Syncer) :
    Within (fun _ => True) (passAfter urgency lastPass) (fun due _ => lastPass + passPace ≤ due) syncer := by
  apply within_get
  apply within_ask_bind trivial
  intro carriers
  apply within_ask_bind trivial
  intro now
  apply within_pure.mpr
  have slower : passPace ≤ ageingSettle := by decide
  split <;> omega

/-- A batch claims no pass that would be out of pace. -/
theorem handleBatch_claim {last : Option Topology} {events : Events} {lastPass : Nat} :
    Within (fun _ => True) (handleBatch last events lastPass) (fun result _ =>
      ∀ due trigger, result.1 = some (due, trigger) → lastPass + passPace ≤ due) syncer := by
  unfold handleBatch
  split
  · exact nofun
  · apply (readPicture_steady syncer).bind
    intro fresh middle _
    apply (judgeLinks_steady middle).bind
    intro _ middle _
    apply (answerBatch_steady middle).bind
    intro urgency middle _
    dsimp only
    split
    · exact nofun
    · apply Within.bind (passAfter_paced middle)
      intro due middle paced other trigger claimed
      obtain ⟨same, -⟩ := Prod.mk.inj (Option.some.inj claimed)
      exact same ▸ paced

theorem hearOperatorNoted_keeps {schedule : Schedule} (keeps : Keeps schedule log) :
    Within (fun _ => True) (hearOperatorNoted schedule) (fun result _ =>
      Keeps result.1 (log ++ result.2)) syncer := by
  apply within_ask_bind trivial
  intro wanted
  cases wanted with
  | false => exact within_pure.mpr (by simpa using keeps)
  | true =>
      apply (Steady.believeNothing syncer).bind
      intro _ middle _
      apply within_ask_bind trivial
      intro now
      exact keeps.atOnce .operator now .operator

/-- What a first half of a turn keeps, by where it goes on. -/
def Onward.Keeps (log : List Happening) : Onward → Prop
  | .stops => True
  | .again next => SriovMacSync.Keeps next.schedule log
  | .waits next => SriovMacSync.Keeps next.schedule log

theorem beforeWaitNoted_keeps (keeps : Keeps loop.schedule log) :
    Within (fun _ => True) (beforeWaitNoted opts loop) (fun result _ =>
      result.1.Keeps (log ++ result.2)) syncer := by
  apply within_ask_bind trivial
  intro stopping
  cases stopping with
  | true => exact within_pure.mpr trivial
  | false =>
      apply (hearOperatorNoted_keeps keeps).bind
      intro (schedule, heard) middle keeps
      apply within_ask_bind trivial
      intro began
      split
      · rename_i isDue
        apply (asks_anything middle).bind
        intro (pass, last) middle _
        cases pass with
        | done =>
            apply within_ask_bind trivial
            intro ended
            have kept : Keeps (schedule.completed ended) (log ++ heard ++ [.attempt began ended .done]) :=
              keeps.attempt isDue rfl nofun fun _ => rfl
            exact within_pure.mpr (by simpa [Onward.Keeps] using kept)
        | refused =>
            apply within_ask_bind trivial
            intro ended
            have slower : ended + passPace ≤ ended + retryAfter := Nat.add_le_add_left (by decide) ended
            have kept : Keeps (schedule.retrySoon ended) (log ++ heard ++ [.attempt began ended .refused]) :=
              keeps.attempt isDue rfl (fun due known => Option.some.inj known ▸ slower) (by simp)
            exact within_pure.mpr (by simpa [Onward.Keeps] using kept)
      · exact within_pure.mpr keeps

theorem takeEventsNoted_keeps (keeps : Keeps loop.schedule log) :
    Within (fun _ => True) (takeEventsNoted loop) (fun result _ =>
      Keeps result.1.schedule (log ++ result.2)) syncer := by
  apply within_ask_bind trivial
  intro received
  cases received with
  | error errno =>
      apply within_ask_bind trivial
      intro now
      apply (Steady.believeNothing syncer).bind
      intro _ middle _
      exact keeps.atOnce .lostEvents now .lostEvents
  | ok events =>
      apply Within.bind handleBatch_claim
      intro (claim, last) middle paced
      cases claim with
      | none => exact within_pure.mpr keeps.unclaimed
      | some claim =>
          obtain ⟨due, trigger⟩ := claim
          exact within_pure.mpr (keeps.bringForward (paced due trigger rfl))

theorem waitAndAnswerNoted_keeps (keeps : Keeps loop.schedule log) :
    Within (fun _ => True) (waitAndAnswerNoted loop) (fun result _ =>
      Keeps result.1.schedule (log ++ result.2)) syncer := by
  apply within_ask_bind trivial
  intro now
  apply within_ask_bind trivial
  intro woken
  cases woken with
  | error errno =>
      apply (brake_steady syncer).bind
      intro _ middle _
      apply within_ask_bind trivial
      intro later
      apply (Steady.believeNothing middle).bind
      intro _ middle _
      exact keeps.atOnce .failedWait later .recovery
  | ok woken =>
      cases woken with
      | false => exact within_pure.mpr (by simpa using keeps)
      | true => exact takeEventsNoted_keeps keeps

end Turns

/-- Whatever happens, the schedule keeps what the notes say. -/
theorem Noted.keeps {opts : Options} {point : Point} {loop : Loop} {syncer : Syncer}
    {log : List Happening} (run : Noted opts point loop syncer log) : Keeps loop.schedule log := by
  induction run with
  | start syncer now => exact .new now
  | again run turn ih => exact (beforeWaitNoted_keeps ih).traced turn
  | waits run turn ih => exact (beforeWaitNoted_keeps ih).traced turn
  | answered run turn ih => exact (waitAndAnswerNoted_keeps ih).traced turn

/-- The last pass of a log that has one. -/
theorem last_attempt {log : List Happening} (passed : ∃ happening ∈ log, ¬ happening.Between) :
    ∃ earlier began ended pass behind, log = earlier ++ .attempt began ended pass :: behind ∧
      ∀ happening ∈ behind, happening.Between := by
  induction log with
  | nil =>
      obtain ⟨_, member, _⟩ := passed
      cases member
  | cons happening rest ih =>
      by_cases later : ∃ other ∈ rest, ¬ other.Between
      · obtain ⟨earlier, began, ended, pass, behind, split, quiet⟩ := ih later
        exact ⟨happening :: earlier, began, ended, pass, behind, by simp [split], quiet⟩
      · push Not at later
        obtain ⟨other, member, isPass⟩ := passed
        rcases List.mem_cons.mp member with here | there
        · subst here
          cases other with
          | attempt began ended pass => exact ⟨[], began, ended, pass, rest, rfl, later⟩
          | urged urge now => exact absurd trivial isPass
          | batch claim => exact absurd trivial isPass
        · exact absurd (later other there) isPass

/-- The passes of a run are the pace apart unless something wanted one at once, and when
the loop waits without end, the last attempt was no refused one and no batch since has
claimed a pass. -/
theorem passes_paced {opts : Options} {point : Point} {loop : Loop} {syncer : Syncer}
    {log : List Happening} (run : Noted opts point loop syncer log) :
    Paced log ∧ (point = .wait →
      ∀ now : Nat, (waitAndAnswer loop syncer).Issues [⟨.now, now⟩] (.wait (-1)) →
        ∃ earlier began ended behind, log = earlier ++ .attempt began ended .done :: behind ∧
          ∀ happening ∈ behind, happening = .batch none) := by
  have keeps := run.keeps
  refine ⟨keeps.paced, ?_⟩
  intro _ now endless
  have asked : DaemonCall.wait (waitMillis (loop.schedule.waitFor now)) = .wait (-1) :=
    Program.issues_second endless
  have nothing : loop.schedule.due = none := waitMillis_eq_neg_one.mp (DaemonCall.wait.inj asked)
  have passed : ∃ happening ∈ log, ¬ happening.Between := by
    by_contra never
    push Not at never
    exact keeps.first never nothing
  obtain ⟨earlier, began, ended, pass, behind, split, quiet⟩ := last_attempt passed
  obtain ⟨done, unclaimed⟩ := (keeps.last earlier began ended pass behind split quiet).2.2 nothing
  subst done
  exact ⟨earlier, began, ended, behind, split, unclaimed⟩

/-- A first pass, and the wait without end behind it. -/
theorem passes_paced_bare : ∃ syncer : Syncer,
    (waitAndAnswer restingLoop syncer).Issues [⟨.now, 7⟩] (.wait (-1)) ∧
      Paced [.attempt 5 6 .done] ∧ ∃ earlier began ended behind,
        [Happening.attempt 5 6 .done] = earlier ++ .attempt began ended .done :: behind ∧
          ∀ happening ∈ behind, happening = .batch none := by
  have turn : Traces (beforeWaitNoted ⟨[]⟩ (.start 5)) detectingSyncer (firstTurn [])
      (.waits restingLoop, [.attempt 5 6 .done])
      { detectingSyncer with absentSince := fun dev => if dev ∈ ([] : List Name) then some 5 else none } :=
    .step (.step (.step (.step (.step (.step (.step (.step .here)))))))
  have run : Noted ⟨[]⟩ .wait restingLoop _ [.attempt 5 6 .done] := .waits (.start _ _) turn
  have endless (syncer : Syncer) : (waitAndAnswer restingLoop syncer).Issues [⟨.now, 7⟩] (.wait (-1)) :=
    ⟨_, .step .here⟩
  have paced := passes_paced run
  exact ⟨detectingSyncer, endless _, paced.1, paced.2 rfl 7 (endless _)⟩

end SriovMacSync
