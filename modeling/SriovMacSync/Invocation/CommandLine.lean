import SriovMacSync.Invocation.Options

namespace SriovMacSync.Invocation

open Data Cache

/-! # What a command line says

A command line is accepted just when it is options one behind another, each with its value
and a mode among them at most once.  What they come to does not depend on where in the line
they stand, but that the last number counts and lists keep their order. -/

/-- An option as it is given, with a value that is good for it. -/
inductive Given where
  | mode (mode : Mode) (chosen : mode ≠ .daemon)
  | dryRun
  | timings
  | pair (spec : String)
  | interval (seconds : String)
  | max (value : String) (count : Nat) (read : parseUsize value.toList = some count)
      (usable : 0 < count ∧ count ≤ maxOfMacs)
  | extra (value : String)
  | exclude (value : String)

def Mode.flag : Mode → String
  | .daemon => ""
  | .once => "--once"
  | .status => "--status"
  | .check => "--check"
  | .flush => "--flush"
  | .resync => "--resync"

namespace Given

def words : Given → List String
  | mode chosen _ => [chosen.flag]
  | dryRun => ["--dry-run"]
  | timings => ["--timings"]
  | pair spec => ["--pair", spec]
  | interval seconds => ["--interval", seconds]
  | max value _ _ _ => ["--max", value]
  | extra value => ["--extra", value]
  | exclude value => ["--exclude", value]

def mode? : Given → Option Mode
  | mode chosen _ => some chosen
  | _ => none

def pair? : Given → Option Text
  | pair spec => some spec.toList
  | _ => none

def count? : Given → Option Nat
  | max _ count _ _ => some count
  | _ => none

def extras : Given → List Text
  | extra value => addresses value.toList
  | _ => []

def excludes : Given → List Text
  | exclude value => addresses value.toList
  | _ => []

def isDryRun : Given → Bool
  | dryRun => true
  | _ => false

def isTimings : Given → Bool
  | timings => true
  | _ => false

def said : Given → List Warning
  | interval _ => [.intervalRetired]
  | _ => []

end Given

/-- A command line names the whole list of pairs or none of it. -/
def pairsOf (pairsFromCli : Bool) (before given : List Text) : List Text :=
  if given = [] then before else (if pairsFromCli then before else []) ++ given

/-- What options come to over what the file said. -/
def Options.with (opts : Options) (given : List Given) : Options where
  mode := (given.filterMap Given.mode?).getLast?.getD opts.mode
  pairs := pairsOf false opts.pairs (given.filterMap Given.pair?)
  maxMacs := (given.filterMap Given.count?).getLast?.getD opts.maxMacs
  maxMacsSet := opts.maxMacsSet || given.any (·.count?.isSome)
  exclude := opts.exclude ++ given.flatMap Given.excludes
  extra := opts.extra ++ given.flatMap Given.extras
  dryRun := opts.dryRun || given.any Given.isDryRun
  timings := opts.timings || given.any Given.isTimings

section Steps

/-- What one option does to what came before it. -/
def Given.put (pairsFromCli : Bool) (opts : Options) : Given → Options
  | .mode chosen _ => { opts with mode := chosen }
  | .dryRun => { opts with dryRun := true }
  | .timings => { opts with timings := true }
  | .pair spec => { opts with pairs := (if pairsFromCli then opts.pairs else []) ++ [spec.toList] }
  | .interval _ => opts
  | .max _ count _ _ => { opts with maxMacs := count, maxMacsSet := true }
  | .extra value => { opts with extra := opts.extra ++ addresses value.toList }
  | .exclude value => { opts with exclude := opts.exclude ++ addresses value.toList }

/-- A mode is given once. -/
def Given.Fits (opts : Options) (given : Given) : Prop := given.mode?.isSome → opts.mode = .daemon

theorem modeOf_flag {mode : Mode} (chosen : mode ≠ .daemon) : modeOf mode.flag = some mode := by
  cases mode with
  | daemon => exact absurd rfl chosen
  | once => rfl
  | status => rfl
  | check => rfl
  | flush => rfl
  | resync => rfl

theorem flag_of_modeOf {arg : String} {mode : Mode} (found : modeOf arg = some mode) :
    arg = mode.flag ∧ mode ≠ .daemon := by
  obtain ⟨before, behind, table, _⟩ := List.lookup_eq_some_iff.mp found
  have listed : (arg, mode) ∈ before ++ (arg, mode) :: behind := by simp
  rw [← table] at listed
  simp only [List.mem_cons, Prod.mk.injEq, List.not_mem_nil, or_false] at listed
  rcases listed with ⟨rfl, rfl⟩ | ⟨rfl, rfl⟩ | ⟨rfl, rfl⟩ | ⟨rfl, rfl⟩ | ⟨rfl, rfl⟩ <;> simp [Mode.flag]

theorem map_same (ended : Except Stop (Options × List Warning)) : ended.map (fun ended => ended) = ended := by
  cases ended <;> rfl

theorem clampMaxMacs_eq_ok {count kept : Nat} :
    clampMaxMacs count = .ok kept ↔ kept = count ∧ 0 < count ∧ count ≤ maxOfMacs := by
  rw [clampMaxMacs]
  split
  · rename_i bad
    constructor
    · intro fine
      cases fine
    · intro usable
      omega
  · rename_i good
    rw [Except.ok.injEq]
    omega

/-- An option at the front of a command line. -/
theorem parseArgsFrom_words {given : Given} {opts : Options} (fits : given.Fits opts) (pairsFromCli : Bool)
    (rest : List String) :
    parseArgsFrom pairsFromCli opts (given.words ++ rest) =
      (parseArgsFrom (pairsFromCli || given.pair?.isSome) (given.put pairsFromCli opts) rest).map
        fun ended => (ended.1, given.said ++ ended.2) := by
  have plain (arg : String) (unlisted : modeOf arg = none := by rfl) : modeOf arg = none := unlisted
  cases given with
  | mode mode chosen =>
      have waiting : opts.mode = .daemon := fits rfl
      rw [Given.words, List.singleton_append, parseArgsFrom.eq_def]
      dsimp only
      rw [modeOf_flag chosen]
      simp only [setMode, waiting, ne_eq, not_true_eq_false, if_false, Given.put, Given.said, Given.pair?,
        Option.isSome_none, Bool.or_false, List.nil_append, map_same]
      rfl
  | dryRun =>
      rw [Given.words, List.singleton_append, parseArgsFrom.eq_def]
      simp [plain "--dry-run", Given.put, Given.said, Given.pair?, map_same]
  | timings =>
      rw [Given.words, List.singleton_append, parseArgsFrom.eq_def]
      simp [plain "--timings", Given.put, Given.said, Given.pair?, map_same]
  | pair spec =>
      rw [Given.words, List.cons_append, parseArgsFrom.eq_def]
      simp [plain "--pair", Given.put, Given.said, Given.pair?, map_same]
  | interval seconds =>
      rw [Given.words, List.cons_append, parseArgsFrom.eq_def]
      simp only [plain "--interval"]
      simp [Given.put, Given.said, Given.pair?]
      rfl
  | max value count read usable =>
      rw [Given.words, List.cons_append, parseArgsFrom.eq_def]
      have clamped := clampMaxMacs_eq_ok.mpr ⟨rfl, usable⟩
      simp [plain "--max", read, clamped, Given.put, Given.said, Given.pair?, map_same]
  | extra value =>
      rw [Given.words, List.cons_append, parseArgsFrom.eq_def]
      simp [plain "--extra", Given.put, Given.said, Given.pair?, map_same]
  | exclude value =>
      rw [Given.words, List.cons_append, parseArgsFrom.eq_def]
      simp [plain "--exclude", Given.put, Given.said, Given.pair?, map_same]

/-- What is accepted starts with an option. -/
theorem words_of_parseArgsFrom {pairsFromCli : Bool} {opts : Options} {args : List String}
    {ended : Options × List Warning} (accepted : parseArgsFrom pairsFromCli opts args = .ok ended) :
    args = [] ∨ ∃ given : Given, ∃ rest, args = given.words ++ rest ∧ given.Fits opts := by
  cases args with
  | nil => exact .inl rfl
  | cons arg args =>
      right
      rw [parseArgsFrom.eq_def] at accepted
      dsimp only at accepted
      split at accepted
      · rename_i mode found
        obtain ⟨rfl, chosen⟩ := flag_of_modeOf found
        refine ⟨.mode mode chosen, args, rfl, fun _ => ?_⟩
        by_contra taken
        rw [setMode, if_pos taken] at accepted
        cases accepted
      · by_cases dry : arg = "--dry-run"
        · exact ⟨.dryRun, args, by rw [dry]; rfl, fun mode => (by cases mode)⟩
        rw [if_neg dry] at accepted
        by_cases timed : arg = "--timings"
        · exact ⟨.timings, args, by rw [timed]; rfl, fun mode => (by cases mode)⟩
        rw [if_neg timed] at accepted
        by_cases pair : arg = "--pair"
        · rw [if_pos pair] at accepted
          cases args with
          | nil => cases accepted
          | cons spec rest => exact ⟨.pair spec, rest, by rw [pair]; rfl, fun mode => (by cases mode)⟩
        rw [if_neg pair] at accepted
        by_cases interval : arg = "--interval"
        · rw [if_pos interval] at accepted
          cases args with
          | nil => cases accepted
          | cons seconds rest => exact ⟨.interval seconds, rest, by rw [interval]; rfl, fun mode => (by cases mode)⟩
        rw [if_neg interval] at accepted
        by_cases max : arg = "--max"
        · rw [if_pos max] at accepted
          cases args with
          | nil => cases accepted
          | cons value rest =>
              dsimp only at accepted
              cases read : parseUsize value.toList with
              | none =>
                  rw [read] at accepted
                  cases accepted
              | some count =>
                  rw [read] at accepted
                  dsimp only at accepted
                  cases clamped : clampMaxMacs count with
                  | error message =>
                      rw [clamped] at accepted
                      cases accepted
                  | ok kept =>
                      have usable := (clampMaxMacs_eq_ok.mp clamped).2
                      exact ⟨.max value count read usable, rest, by rw [max]; rfl, fun mode => (by cases mode)⟩
        rw [if_neg max] at accepted
        by_cases extra : arg = "--extra"
        · rw [if_pos extra] at accepted
          cases args with
          | nil => cases accepted
          | cons value rest => exact ⟨.extra value, rest, by rw [extra]; rfl, fun mode => (by cases mode)⟩
        rw [if_neg extra] at accepted
        by_cases exclude : arg = "--exclude"
        · rw [if_pos exclude] at accepted
          cases args with
          | nil => cases accepted
          | cons value rest => exact ⟨.exclude value, rest, by rw [exclude]; rfl, fun mode => (by cases mode)⟩
        rw [if_neg exclude] at accepted
        split at accepted
        · cases accepted
        · split at accepted <;> cases accepted

/-- What options come to once pairs may have been given already. -/
def Options.along (pairsFromCli : Bool) (opts : Options) (given : List Given) : Options :=
  { opts.with given with pairs := pairsOf pairsFromCli opts.pairs (given.filterMap Given.pair?) }

theorem pairsOf_cons (pairsFromCli : Bool) (before : List Text) (spec : Text) (rest : List Text) :
    pairsOf pairsFromCli before (spec :: rest) =
      pairsOf true ((if pairsFromCli then before else []) ++ [spec]) rest := by
  cases rest <;> simp [pairsOf]

theorem along_cons (pairsFromCli : Bool) (opts : Options) (first : Given) (rest : List Given) :
    opts.along pairsFromCli (first :: rest) =
      (first.put pairsFromCli opts).along (pairsFromCli || first.pair?.isSome) rest := by
  cases first <;>
    simp [Options.along, Options.with, List.filterMap_cons, Given.put, Given.mode?, Given.pair?, Given.count?,
      Given.extras, Given.excludes, Given.isDryRun, Given.isTimings, List.getLast?_cons, pairsOf_cons]

/-- A mode is given at most once, and not at all where one was set. -/
def OneMode (opts : Options) (given : List Given) : Prop :=
  (given.filterMap Given.mode?).length ≤ if opts.mode = .daemon then 1 else 0

theorem oneMode_cons (pairsFromCli : Bool) {opts : Options} {first : Given} {rest : List Given} :
    OneMode opts (first :: rest) ↔ first.Fits opts ∧ OneMode (first.put pairsFromCli opts) rest := by
  cases first with
  | mode mode chosen =>
      by_cases waiting : opts.mode = .daemon <;>
        simp [OneMode, Given.mode?, Given.Fits, Given.put, waiting, chosen]
  | _ => exact ⟨fun once => ⟨fun mode => (by cases mode), once⟩, fun both => both.2⟩

theorem parseArgsFrom_ok_iff {pairsFromCli : Bool} {opts after : Options} {args : List String}
    {said : List Warning} : parseArgsFrom pairsFromCli opts args = .ok (after, said) ↔
      ∃ given : List Given, args = given.flatMap Given.words ∧ OneMode opts given ∧
        after = opts.along pairsFromCli given ∧ said = given.flatMap Given.said := by
  constructor
  · intro accepted
    -- each option takes at least one argument off the line
    induction length : args.length using Nat.strong_induction_on generalizing args opts pairsFromCli said with
    | _ count ih =>
        rcases words_of_parseArgsFrom accepted with rfl | ⟨first, rest, rfl, fits⟩
        · cases accepted
          exact ⟨[], rfl, by simp [OneMode], by simp [Options.along, Options.with, pairsOf], rfl⟩
        · rw [parseArgsFrom_words fits] at accepted
          cases later : parseArgsFrom (pairsFromCli || first.pair?.isSome) (first.put pairsFromCli opts) rest with
          | error stop =>
              rw [later] at accepted
              cases accepted
          | ok ended =>
              rw [later] at accepted
              cases accepted
              have shorter : rest.length < count := by
                rw [← length, List.length_append]
                cases first <;> simp [Given.words]
              obtain ⟨given, rfl, once, ended, said⟩ := ih _ shorter later rfl
              exact ⟨first :: given, by simp, (oneMode_cons pairsFromCli).mpr ⟨fits, once⟩,
                by rw [along_cons, ← ended], by rw [List.flatMap_cons, ← said]⟩
  · rintro ⟨given, rfl, once, rfl, rfl⟩
    induction given generalizing opts pairsFromCli with
    | nil => simp [parseArgsFrom.eq_def, Options.along, Options.with, pairsOf]
    | cons first rest ih =>
        obtain ⟨fits, later⟩ := (oneMode_cons pairsFromCli).mp once
        rw [List.flatMap_cons, parseArgsFrom_words fits, ih later, along_cons]
        rfl

end Steps

/-- A command line is taken just when it is options one behind another with one mode at
most, and what comes of it is what each setting was given as. -/
theorem command_line_taken_exactly {opts after : Options} {args : List String} {said : List Warning} :
    parseArgs opts args = .ok (after, said) ↔
      ∃ given : List Given, args = given.flatMap Given.words ∧ OneMode opts given ∧ after = opts.with given ∧
        said = given.flatMap Given.said :=
  parseArgsFrom_ok_iff

end SriovMacSync.Invocation
