import SriovMacSync.Cache.NoteText

namespace SriovMacSync.Invocation

open Data Cache

/-! # What a process is told to do

A configuration file that is never refused, and behind it a command line that is.  Every
option of the command line has its say over the file's, lists apart, which grow. -/

inductive Mode where
  | daemon
  | once
  | status
  | check
  | flush
  | resync
deriving DecidableEq, Repr

structure Options where
  mode : Mode := .daemon
  pairs : List Text := []
  maxMacs : Nat := 128
  /-- whether the number above came from the operator -/
  maxMacsSet : Bool := false
  exclude : List Text := []
  extra : List Text := []
  dryRun : Bool := false
  timings : Bool := false
deriving DecidableEq, Repr

/-- What is said about a setting that is not taken. -/
inductive Warning where
  | unreadable (error : String)
  | notSetting (line : Text)
  | resyncRetired
  | maxUnusable (value : Text)
  | unknownSetting (key : Text)
  | intervalRetired
  | notAddress (what : String) (given : Text)
deriving DecidableEq, Repr

def conf : String := "/etc/sriov-mac-sync.conf"

def Warning.text : Warning → String
  | .unreadable error => s!"warning: cannot read {conf}: {error} - continuing without it"
  | .notSetting line => s!"warning: {conf}: not a setting, ignored: {String.ofList line}"
  | .resyncRetired =>
      s!"warning: {conf}: RESYNC is retired, ignored - there is no timed pass; --resync asks the daemon for one"
  | .maxUnusable value => s!"warning: {conf}: MAX_MACS is not a usable count, ignored: {String.ofList value}"
  | .unknownSetting key => s!"warning: {conf}: unknown setting, ignored: {String.ofList key}"
  | .intervalRetired =>
      "warning: --interval is retired, ignored - there is no timed pass; --resync asks the daemon for one"
  | .notAddress what given => s!"warning: {what}: not an address, ignored: {String.ofList given}"

/-- The addresses in one value: commas or whitespace in any mixture. -/
def addresses (value : Text) : List Text :=
  (value.splitOnP fun char => char = ',' || isWhitespace char).filter (· ≠ [])

/-- A typo does not vanish without a word. -/
def macs (what : String) : List Text → Finset Mac × List Warning
  | [] => (∅, [])
  | given :: rest =>
      let (found, said) := macs what rest
      match parseMac given with
      | some mac => (insert mac found, said)
      | none => (found, .notAddress what given :: said)

/-- A `usize`, as `str::parse` reads it. -/
def parseUsize (text : Text) : Option Nat := (parseDecimal text).filter (· < 2 ^ 64)

def maxOfMacs : Nat := 1 <<< 20

/-- A capacity of zero says the filter is always full, and one near the end of the numbers
overflows. -/
def clampMaxMacs (count : Nat) : Except String Nat :=
  if count = 0 ∨ maxOfMacs < count then .error s!"--max has to be between 1 and {maxOfMacs}" else .ok count

section CommandLine

/-- Why a process goes no further than its command line. -/
inductive Stop where
  | failed (message : String)
  | help
  | version
deriving DecidableEq, Repr

def setMode (opts : Options) (mode : Mode) (arg : String) : Except Stop Options :=
  if opts.mode ≠ .daemon then .error (.failed s!"{arg}: another mode is already given (pick one)")
  else .ok { opts with mode }

/-- The options that take no value and set the mode. -/
def modeOf (arg : String) : Option Mode :=
  [("--once", Mode.once), ("--status", .status), ("--check", .check), ("--flush", .flush),
    ("--resync", .resync)].lookup arg

/-- The arguments one by one.  The first pair replaces what the file put there. -/
def parseArgsFrom (pairsFromCli : Bool) (opts : Options) : List String → Except Stop (Options × List Warning)
  | [] => .ok (opts, [])
  | arg :: args =>
      match modeOf arg with
      | some mode => do
          let opts ← setMode opts mode arg
          parseArgsFrom pairsFromCli opts args
      | none =>
          if arg = "--dry-run" then parseArgsFrom pairsFromCli { opts with dryRun := true } args
          else if arg = "--timings" then parseArgsFrom pairsFromCli { opts with timings := true } args
          else if arg = "--pair" then
            match args with
            | [] => .error (.failed "--pair needs DEV:BRIDGE")
            | value :: args =>
                let pairs := if pairsFromCli then opts.pairs else []
                parseArgsFrom true { opts with pairs := pairs ++ [value.toList] } args
          else if arg = "--interval" then
            match args with
            | [] => .error (.failed "--interval needs seconds")
            | _ :: args => do
                let (opts, said) ← parseArgsFrom pairsFromCli opts args
                return (opts, .intervalRetired :: said)
          else if arg = "--max" then
            match args with
            | [] => .error (.failed "--max needs a number")
            | value :: args =>
                match parseUsize value.toList with
                | none => .error (.failed "--max needs a number")
                | some count =>
                    match clampMaxMacs count with
                    | .error message => .error (.failed message)
                    | .ok count =>
                        parseArgsFrom pairsFromCli { opts with maxMacs := count, maxMacsSet := true } args
          else if arg = "--extra" then
            match args with
            | [] => .error (.failed "--extra needs addresses")
            | value :: args =>
                parseArgsFrom pairsFromCli { opts with extra := opts.extra ++ addresses value.toList } args
          else if arg = "--exclude" then
            match args with
            | [] => .error (.failed "--exclude needs addresses")
            | value :: args =>
                parseArgsFrom pairsFromCli { opts with exclude := opts.exclude ++ addresses value.toList } args
          else if arg = "-h" ∨ arg = "--help" then .error .help
          else if arg = "--version" then .error .version
          else .error (.failed s!"unknown option: {arg} (try --help)")

def parseArgs (opts : Options) (args : List String) : Except Stop (Options × List Warning) :=
  parseArgsFrom false opts args

end CommandLine

section Configuration

def doubleQuote : Char := Char.ofNat 34
def singleQuote : Char := Char.ofNat 39

/-- Everything up to a hash that is not inside quotes. -/
def stripComment : Option Char → Text → Text
  | _, [] => []
  | none, char :: rest =>
      if char = doubleQuote ∨ char = singleQuote then char :: stripComment (some char) rest
      else if char = '#' then []
      else char :: stripComment none rest
  | some quote, char :: rest =>
      char :: stripComment (if char = quote then none else some quote) rest

/-- A text without these characters around it, as `str::trim_matches` leaves it. -/
def trimMatches (char : Char) (text : Text) : Text := (text.dropWhile (· = char)).rdropWhile (· = char)

/-- What stands before the first such character and what stands behind it. -/
def splitOnce (char : Char) (text : Text) : Option (Text × Text) :=
  if char ∈ text then some (text.takeWhile (· ≠ char), (text.dropWhile (· ≠ char)).tail) else none

/-- One line of the file. -/
def readLine (opts : Options) (line : Text) : Options × List Warning :=
  let line := trim line
  if line = [] ∨ line.head? = some '#' then (opts, [])
  else
    match splitOnce '=' line with
    | none => (opts, [.notSetting line])
    | some (key, value) =>
        let value := trimMatches singleQuote (trimMatches doubleQuote (trim (stripComment none value)))
        let key := trim key
        if key = "PAIRS".toList then ({ opts with pairs := opts.pairs ++ splitWhitespace value }, [])
        else if key = "RESYNC".toList then (opts, [.resyncRetired])
        else if key = "MAX_MACS".toList then
          match (parseUsize value).map clampMaxMacs with
          | some (.ok count) => ({ opts with maxMacs := count, maxMacsSet := true }, [])
          | _ => (opts, [.maxUnusable value])
        else if key = "EXTRA".toList then ({ opts with extra := opts.extra ++ addresses value }, [])
        else if key = "EXCLUDE".toList then ({ opts with exclude := opts.exclude ++ addresses value }, [])
        else (opts, [.unknownSetting key])

def readLines (opts : Options) : List Text → Options × List Warning
  | [] => (opts, [])
  | line :: rest =>
      let (opts, said) := readLine opts line
      let (opts, more) := readLines opts rest
      (opts, said ++ more)

/-- The file's contents.  A malformed line ends in a warning and the next line. -/
def readConf (opts : Options) (text : Text) : Options × List Warning := readLines opts (lines text)

/-- What reading the file gives. -/
inductive ConfFile where
  | absent
  | unreadable (error : String)
  | contents (text : Text)
deriving DecidableEq, Repr

/-- A file that cannot be read is not the same as no file. -/
def loadConf (opts : Options) : ConfFile → Options × List Warning
  | .absent => (opts, [])
  | .unreadable error => (opts, [.unreadable error])
  | .contents text => readConf opts text

end Configuration

end SriovMacSync.Invocation
