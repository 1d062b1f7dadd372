import SriovMacSync.Data.Fields
import SriovMacSync.Invocation.Options

namespace SriovMacSync.Invocation

open Data Cache

/-! # What a configuration file says

A setting may be written with blanks around its parts, in quotes or without, with a comment
behind it, among lines of any other kind.  What is read of a file is what its settings mean,
one after the other. -/

/-- A setting the file can make. -/
inductive Setting where
  | pairs (specs : List Text)
  | maxMacs (count : Nat)
  | extra (addresses : List Text)
  | exclude (addresses : List Text)
deriving DecidableEq, Repr

namespace Setting

def pairs? : Setting → List Text
  | pairs specs => specs
  | _ => []

def count? : Setting → Option Nat
  | maxMacs count => some count
  | _ => none

def extras : Setting → List Text
  | extra addresses => addresses
  | _ => []

def excludes : Setting → List Text
  | exclude addresses => addresses
  | _ => []

end Setting

/-- What settings come to.  Lists grow, and the last number counts. -/
def Options.set (opts : Options) (settings : List Setting) : Options :=
  { opts with
    pairs := opts.pairs ++ settings.flatMap Setting.pairs?
    maxMacs := (settings.filterMap Setting.count?).getLast?.getD opts.maxMacs
    maxMacsSet := opts.maxMacsSet || settings.any (·.count?.isSome)
    exclude := opts.exclude ++ settings.flatMap Setting.excludes
    extra := opts.extra ++ settings.flatMap Setting.extras }

def isSeparator (char : Char) : Bool := char = ',' || isWhitespace char

/-- What a value means under a key. -/
inductive Means : Text → Text → List Setting → Prop where
  | pairs {value : Text} {specs : List Text} (spaced : Spaced isWhitespace specs value) :
      Means "PAIRS".toList value [.pairs specs]
  | maxMacs {value : Text} {count : Nat} (number : parseUsize value = some count)
      (usable : 0 < count ∧ count ≤ maxOfMacs) : Means "MAX_MACS".toList value [.maxMacs count]
  | unusable {value : Text}
      (useless : ∀ count, parseUsize value = some count → count = 0 ∨ maxOfMacs < count) :
      Means "MAX_MACS".toList value []
  | extra {value : Text} {addresses : List Text} (spaced : Spaced isSeparator addresses value) :
      Means "EXTRA".toList value [.extra addresses]
  | exclude {value : Text} {addresses : List Text} (spaced : Spaced isSeparator addresses value) :
      Means "EXCLUDE".toList value [.exclude addresses]
  /-- retired, or never known -/
  | nothing {key value : Text} (unknown : key ∉ ["PAIRS", "MAX_MACS", "EXTRA", "EXCLUDE"].map String.toList) :
      Means key value []

/-- The quotes a value may stand in. -/
inductive Quoting where
  | bare
  | single
  | double
deriving DecidableEq, Repr

def Quoting.mark : Quoting → Text
  | bare => []
  | single => [singleQuote]
  | double => [doubleQuote]

def Blank (text : Text) : Prop := ∀ char ∈ text, isWhitespace char = true

/-- A value that can stand in these quotes. -/
structure Quotable (quoting : Quoting) (value : Text) : Prop where
  unquoted : doubleQuote ∉ value ∧ singleQuote ∉ value
  bare : quoting = .bare → '#' ∉ value ∧ trim value = value

/-- A line of the file, with what it sets. -/
inductive LineOf : Text → List Setting → Prop where
  | blank {line : Text} (empty : Blank line) : LineOf line []
  | comment {indent rest : Text} (empty : Blank indent) : LineOf (indent ++ '#' :: rest) []
  | garbage {line : Text} (noSetting : '=' ∉ line) : LineOf line []
  | setting {indent key gap before value behind rest : Text} {quoting : Quoting} {settings : List Setting}
      (means : Means key value settings)
      (name : trim key = key ∧ key.head? ≠ some '#' ∧ '=' ∉ key)
      (quotable : Quotable quoting value)
      (empty : Blank indent ∧ Blank gap ∧ Blank before ∧ Blank behind)
      (comment : rest = [] ∨ rest.head? = some '#') :
      LineOf (indent ++ key ++ gap ++ '=' :: (before ++ quoting.mark ++ value ++ quoting.mark ++ behind ++ rest))
        settings

section Ends

variable {text front rest : Text}

theorem trim_append_cons (front rest : Text) {char : Char} (solid : isWhitespace char = false) :
    trim (front ++ char :: rest) =
      front.dropWhile isWhitespace ++ char :: rest.rdropWhile isWhitespace := by
  rw [trim, dropWhile_append_cons _ _ solid, rdropWhile_append_cons _ _ solid]

theorem trim_blank (empty : Blank text) : trim text = [] := by
  rw [trim, List.dropWhile_eq_nil_iff.mpr empty, List.rdropWhile_nil]

/-- Blanks around a text go, whatever is left of it. -/
theorem trim_between {before behind : Text} (empty : Blank before ∧ Blank behind) (text : Text) :
    trim (before ++ text ++ behind) = trim text := by
  rw [trim, List.append_assoc, List.dropWhile_append_of_pos empty.1, List.dropWhile_append]
  split
  · rename_i all
    rw [List.dropWhile_eq_nil_iff.mpr empty.2, trim, List.isEmpty_iff.mp all]
  · rw [rdropWhile_gap empty.2, trim]

theorem trim_left {before : Text} (empty : Blank before) (text : Text) : trim (before ++ text) = trim text := by
  simpa using trim_between ⟨empty, fun _ member => absurd member List.not_mem_nil⟩ text

theorem trim_right {behind : Text} (empty : Blank behind) (text : Text) : trim (text ++ behind) = trim text :=
  trim_between ⟨fun _ member => absurd member List.not_mem_nil, empty⟩ text

theorem trim_dropWhile (text : Text) : trim (text.dropWhile isWhitespace) = trim text := by
  rw [trim, List.dropWhile_idempotent, trim]

theorem mem_trim {char : Char} (member : char ∈ trim text) : char ∈ text :=
  (List.dropWhile_sublist _).subset ((List.rdropWhile_prefix _ _).subset member)

/-- What is left of a text starts where its blanks end. -/
theorem head_trim {char : Char} (starts : (text.dropWhile isWhitespace).head? = some char) :
    (trim text).head? = some char := by
  have solid : isWhitespace char = false := by
    have := List.head?_dropWhile_not isWhitespace text
    rw [starts] at this
    simpa using this
  cases kept : text.dropWhile isWhitespace with
  | nil =>
      rw [kept] at starts
      cases starts
  | cons first rest =>
      rw [kept] at starts
      cases starts
      have cut := rdropWhile_append_cons [] rest solid
      rw [List.nil_append, List.nil_append] at cut
      rw [trim, kept, cut]
      rfl

theorem quotes_apart : isWhitespace doubleQuote = false ∧ isWhitespace singleQuote = false ∧
    doubleQuote ≠ singleQuote ∧ doubleQuote ≠ '#' ∧ singleQuote ≠ '#' := by decide

theorem trimMatches_plain {char : Char} (plain : char ∉ text) : trimMatches char text = text := by
  have front : text.dropWhile (· = char) = text := by
    cases text with
    | nil => rfl
    | cons first rest =>
        rw [List.dropWhile_cons_of_neg]
        simpa using fun same : first = char => plain (same ▸ List.mem_cons_self)
  rw [trimMatches, front, List.rdropWhile_eq_self_iff]
  intro nonempty last
  exact plain ((of_decide_eq_true last) ▸ List.getLast_mem nonempty)

theorem trimMatches_quoted {char : Char} (plain : char ∉ text) :
    trimMatches char (char :: text ++ [char]) = text := by
  have kept := trimMatches_plain plain
  rw [trimMatches] at kept
  rw [trimMatches, List.cons_append, List.dropWhile_cons_of_pos (by simp), List.dropWhile_append]
  split
  · rename_i all
    have empty : text = [] := by
      cases text with
      | nil => rfl
      | cons first rest =>
          have first := List.dropWhile_eq_nil_iff.mp (List.isEmpty_iff.mp all) first List.mem_cons_self
          exact absurd ((of_decide_eq_true first) ▸ List.mem_cons_self) plain
    simp [empty, List.rdropWhile]
  · rw [List.rdropWhile_concat_pos _ _ _ (by simp), kept]

end Ends

section Comments

/-- What is not in quotes and no hash stands. -/
theorem stripComment_plain {text : Text} (plain : doubleQuote ∉ text ∧ singleQuote ∉ text ∧ '#' ∉ text)
    (rest : Text) : stripComment none (text ++ rest) = text ++ stripComment none rest := by
  induction text with
  | nil => rfl
  | cons char text ih =>
      simp only [List.mem_cons, not_or] at plain
      obtain ⟨⟨double, doubles⟩, ⟨single, singles⟩, hash, hashes⟩ := plain
      rw [List.cons_append, stripComment, if_neg (by rintro (rfl | rfl) <;> contradiction), if_neg (Ne.symm hash),
        ih ⟨doubles, singles, hashes⟩]
      rfl

theorem stripComment_inside {quote : Char} {text : Text} (inside : quote ∉ text) (rest : Text) :
    stripComment (some quote) (text ++ quote :: rest) = text ++ quote :: stripComment none rest := by
  induction text with
  | nil => simp [stripComment]
  | cons char text ih =>
      simp only [List.mem_cons, not_or] at inside
      rw [List.cons_append, stripComment, if_neg (Ne.symm inside.1), ih inside.2]
      rfl

theorem stripComment_blank {gap : Text} (empty : Blank gap) (quote : Option Char) : stripComment quote gap = gap := by
  induction gap generalizing quote with
  | nil => cases quote <;> rfl
  | cons char gap ih =>
      have later : Blank gap := fun other member => empty other (List.mem_cons_of_mem _ member)
      have white := empty char List.mem_cons_self
      cases quote with
      | some quote => rw [stripComment, ih later]
      | none =>
          have marks : ¬ (char = doubleQuote ∨ char = singleQuote) := by
            rintro (rfl | rfl)
            · rw [quotes_apart.1] at white
              cases white
            · rw [quotes_apart.2.1] at white
              cases white
          have hash : char ≠ '#' := by
            rintro rfl
            exact absurd white (by decide)
          rw [stripComment, if_neg marks, if_neg hash, ih later]

theorem stripComment_append_blank {gap : Text} (empty : Blank gap) (quote : Option Char) (text : Text) :
    ∃ behind, Blank behind ∧ stripComment quote (text ++ gap) = stripComment quote text ++ behind := by
  induction text generalizing quote with
  | nil =>
      refine ⟨gap, empty, ?_⟩
      rw [List.nil_append, stripComment_blank empty]
      cases quote <;> rfl
  | cons char text ih =>
      cases quote with
      | some quote =>
          obtain ⟨behind, white, same⟩ := ih (if char = quote then none else some quote)
          exact ⟨behind, white, by rw [List.cons_append, stripComment, stripComment, same]; rfl⟩
      | none =>
          rw [List.cons_append, stripComment, stripComment]
          split
          · obtain ⟨behind, white, same⟩ := ih (some char)
            exact ⟨behind, white, by rw [same]; rfl⟩
          · split
            · exact ⟨[], fun _ member => absurd member List.not_mem_nil, rfl⟩
            · obtain ⟨behind, white, same⟩ := ih none
              exact ⟨behind, white, by rw [same]; rfl⟩

/-- It is all the same whether a line's last blanks go before the comment or behind it. -/
theorem trim_stripComment_rdropWhile (text : Text) :
    trim (stripComment none (text.rdropWhile isWhitespace)) = trim (stripComment none text) := by
  have white : Blank (text.rtakeWhile isWhitespace) := fun char member => List.mem_rtakeWhile_imp member
  obtain ⟨behind, white, same⟩ := stripComment_append_blank white none (text.rdropWhile isWhitespace)
  rw [List.rdropWhile_append_rtakeWhile] at same
  rw [same, trim_right white]

/-- A quoted value is the middle of what is left of the line. -/
theorem trim_quoted {quote : Char} (solid : isWhitespace quote = false) {before behind : Text}
    (empty : Blank before ∧ Blank behind) (value : Text) :
    trim (before ++ (quote :: value ++ [quote]) ++ behind) = quote :: value ++ [quote] := by
  rw [trim_between empty, trim_append_cons _ _ solid, List.rdropWhile_nil,
    List.dropWhile_cons_of_neg (by simp [solid])]

theorem stripComment_quoted {quote : Char} (mark : quote = doubleQuote ∨ quote = singleQuote) {value : Text}
    (inside : quote ∉ value) (rest : Text) :
    stripComment none ((quote :: value ++ [quote]) ++ rest) = (quote :: value ++ [quote]) ++ stripComment none rest := by
  rw [List.cons_append, List.cons_append, List.append_assoc, stripComment, if_pos mark, List.singleton_append,
    stripComment_inside inside]
  simp

theorem plain_of_blank {gap : Text} (white : Blank gap) : doubleQuote ∉ gap ∧ singleQuote ∉ gap ∧ '#' ∉ gap := by
  refine ⟨fun member => ?_, fun member => ?_, fun member => ?_⟩
  · exact absurd (white _ member) (by rw [quotes_apart.1]; simp)
  · exact absurd (white _ member) (by rw [quotes_apart.2.1]; simp)
  · exact absurd (white _ member) (by decide)

/-- A value comes out of its blanks, its quotes and its comment. -/
theorem value_read {before value behind rest : Text} {quoting : Quoting} (quotable : Quotable quoting value)
    (empty : Blank before ∧ Blank behind) (comment : rest = [] ∨ rest.head? = some '#') :
    trimMatches singleQuote (trimMatches doubleQuote (trim (stripComment none
      (before ++ quoting.mark ++ value ++ quoting.mark ++ behind ++ rest)))) = value := by
  have noComment : stripComment none rest = [] := by
    rcases comment with rfl | hash
    · rfl
    · cases rest with
      | nil => rfl
      | cons char rest =>
          cases hash
          rw [stripComment, if_neg (by decide), if_pos rfl]
  have tail : stripComment none (behind ++ rest) = behind := by
    rw [stripComment_plain (plain_of_blank empty.2), noComment, List.append_nil]
  obtain ⟨⟨double, single⟩, bare⟩ := quotable
  cases quoting with
  | bare =>
      obtain ⟨hash, trimmed⟩ := bare rfl
      simp only [Quoting.mark, List.append_nil, List.append_assoc]
      rw [stripComment_plain (plain_of_blank empty.1), stripComment_plain ⟨double, single, hash⟩, tail,
        ← List.append_assoc, trim_between empty, trimmed, trimMatches_plain double, trimMatches_plain single]
  | single =>
      have line : before ++ [singleQuote] ++ value ++ [singleQuote] ++ behind ++ rest =
          before ++ ((singleQuote :: value ++ [singleQuote]) ++ (behind ++ rest)) := by simp
      have outside : doubleQuote ∉ singleQuote :: value ++ [singleQuote] := by
        simp [double, quotes_apart.2.2.1]
      rw [Quoting.mark, line, stripComment_plain (plain_of_blank empty.1), stripComment_quoted (.inr rfl) single,
        tail, ← List.append_assoc, trim_quoted quotes_apart.2.1 empty, trimMatches_plain outside,
        trimMatches_quoted single]
  | double =>
      have line : before ++ [doubleQuote] ++ value ++ [doubleQuote] ++ behind ++ rest =
          before ++ ((doubleQuote :: value ++ [doubleQuote]) ++ (behind ++ rest)) := by simp
      rw [Quoting.mark, line, stripComment_plain (plain_of_blank empty.1), stripComment_quoted (.inl rfl) double,
        tail, ← List.append_assoc, trim_quoted quotes_apart.1 empty, trimMatches_quoted double,
        trimMatches_plain single]

end Comments

section Lines

variable {opts : Options}

theorem splitOnce_append {char : Char} {front : Text} (absent : char ∉ front) (rest : Text) :
    splitOnce char (front ++ char :: rest) = some (front, rest) := by
  have apart : ∀ other ∈ front, decide (other ≠ char) = true := by
    intro other member
    simpa using fun same : other = char => absent (same ▸ member)
  rw [splitOnce, if_pos (by simp), List.takeWhile_append_of_pos apart, List.dropWhile_append_of_pos apart]
  simp

theorem set_nil (opts : Options) : opts.set [] = opts := by simp [Options.set]

theorem set_append (opts : Options) (first second : List Setting) :
    opts.set (first ++ second) = (opts.set first).set second := by
  simp [Options.set, List.getLast?_append, Bool.or_assoc]

/-- A key with its value does what they mean. -/
theorem readSetting {key value : Text} {settings : List Setting} (means : Means key value settings) :
    (if key = "PAIRS".toList then ({ opts with pairs := opts.pairs ++ splitWhitespace value }, [])
      else if key = "RESYNC".toList then (opts, [Warning.resyncRetired])
      else if key = "MAX_MACS".toList then
        match (parseUsize value).map clampMaxMacs with
        | some (.ok count) => ({ opts with maxMacs := count, maxMacsSet := true }, [])
        | _ => (opts, [.maxUnusable value])
      else if key = "EXTRA".toList then ({ opts with extra := opts.extra ++ addresses value }, [])
      else if key = "EXCLUDE".toList then ({ opts with exclude := opts.exclude ++ addresses value }, [])
      else (opts, [.unknownSetting key])).1 = opts.set settings := by
  cases means with
  | @pairs _ specs spaced =>
      have read : splitWhitespace value = specs := fieldsBy_spaced spaced
      rw [if_pos rfl, read]
      simp [Options.set, Setting.pairs?, Setting.count?, Setting.extras, Setting.excludes]
  | @maxMacs _ count number usable =>
      have clamped : clampMaxMacs count = .ok count := by
        rw [clampMaxMacs, if_neg (by omega)]
      rw [if_neg (by decide), if_neg (by decide), if_pos rfl, number, Option.map_some, clamped]
      simp [Options.set, Setting.pairs?, Setting.count?, Setting.extras, Setting.excludes]
  | unusable useless =>
      rw [if_neg (by decide), if_neg (by decide), if_pos rfl, set_nil]
      cases number : parseUsize value with
      | none => rfl
      | some count => rw [Option.map_some, clampMaxMacs, if_pos (useless count number)]
  | @extra _ given spaced =>
      have read : addresses value = given := fieldsBy_spaced spaced
      rw [if_neg (by decide), if_neg (by decide), if_neg (by decide), if_pos rfl, read]
      simp [Options.set, Setting.pairs?, Setting.count?, Setting.extras, Setting.excludes]
  | @exclude _ given spaced =>
      have read : addresses value = given := fieldsBy_spaced spaced
      rw [if_neg (by decide), if_neg (by decide), if_neg (by decide), if_neg (by decide), if_pos rfl, read]
      simp [Options.set, Setting.pairs?, Setting.count?, Setting.extras, Setting.excludes]
  | nothing unknown =>
      simp only [List.map_cons, List.map_nil, List.mem_cons, List.not_mem_nil, or_false, not_or] at unknown
      obtain ⟨pairs, maxMacs, extra, exclude⟩ := unknown
      rw [if_neg pairs, if_neg maxMacs, if_neg extra, if_neg exclude, set_nil]
      split <;> rfl

theorem not_mem_blank {gap : Text} (white : Blank gap) {char : Char} (solid : isWhitespace char = false) :
    char ∉ gap := by
  intro member
  rw [white char member] at solid
  cases solid

/-- A line does what its setting means. -/
theorem readLine_lineOf {line : Text} {settings : List Setting} (written : LineOf line settings) :
    (readLine opts line).1 = opts.set settings := by
  cases written with
  | blank empty =>
      rw [readLine, trim_blank empty, set_nil]
      rfl
  | comment empty =>
      rw [readLine, trim_append_cons _ _ (by decide), List.dropWhile_eq_nil_iff.mpr empty, set_nil]
      rfl
  | garbage noSetting =>
      have none : splitOnce '=' (trim line) = none := if_neg fun member => noSetting (mem_trim member)
      rw [readLine, set_nil]
      dsimp only
      rw [none]
      split <;> rfl
  | @setting indent key gap before value behind rest quoting _ means name quotable empty comment =>
      obtain ⟨trimmed, noHash, noEquals⟩ := name
      obtain ⟨indented, gapped, ahead, after⟩ := empty
      have front : trim ((indent ++ key ++ gap).dropWhile isWhitespace) = key := by
        rw [trim_dropWhile, trim_between ⟨indented, gapped⟩, trimmed]
      have absent : '=' ∉ (indent ++ key ++ gap).dropWhile isWhitespace := by
        intro member
        have listed := (List.dropWhile_sublist _).subset member
        simp only [List.mem_append] at listed
        rcases listed with (member | member) | member
        · exact not_mem_blank indented (by decide) member
        · exact noEquals member
        · exact not_mem_blank gapped (by decide) member
      have read : ∀ rest, ¬ ((indent ++ key ++ gap).dropWhile isWhitespace ++ '=' :: rest = [] ∨
          ((indent ++ key ++ gap).dropWhile isWhitespace ++ '=' :: rest).head? = some '#') := by
        intro rest bad
        rcases bad with empty | hash
        · simp at empty
        · rw [List.head?_append] at hash
          cases starts : ((indent ++ key ++ gap).dropWhile isWhitespace).head? with
          | none =>
              rw [starts] at hash
              cases hash
          | some char =>
              rw [starts] at hash
              cases hash
              exact noHash (by rw [← front]; exact head_trim (by rw [List.dropWhile_idempotent]; exact starts))
      rw [readLine, trim_append_cons _ _ (by decide)]
      dsimp only
      rw [if_neg (read _), splitOnce_append absent]
      dsimp only
      rw [front, trim_stripComment_rdropWhile, value_read quotable ⟨ahead, after⟩ comment]
      exact readSetting means

theorem readLines_lineOf {written : List Text} {settings : List (List Setting)}
    (lines : List.Forall₂ LineOf written settings) :
    (readLines opts written).1 = opts.set settings.flatten := by
  induction lines generalizing opts with
  | nil => exact (set_nil opts).symm
  | cons line rest ih =>
      rw [List.flatten_cons, set_append, ← readLine_lineOf line, ← ih]
      rfl

end Lines

section Sample

/-! Two pairs in quotes, a number with a comment, a stale line. -/

def samplePairs : Text := [] ++ "nic0:vmbr0".toList ++ ' ' :: ([] ++ "nic1:vmbr1".toList)

def sampleLines : List Text :=
  ["# uplinks".toList,
    [] ++ "PAIRS".toList ++ [' '] ++
      '=' :: ([' '] ++ Quoting.double.mark ++ samplePairs ++ Quoting.double.mark ++ [' '] ++ "# two".toList),
    [' '] ++ "MAX_MACS".toList ++ [] ++
      '=' :: ([] ++ Quoting.bare.mark ++ "30".toList ++ Quoting.bare.mark ++ [' ', ' '] ++ "# slots".toList),
    [] ++ "RESYNC".toList ++ [] ++ '=' :: ([] ++ Quoting.bare.mark ++ "60".toList ++ Quoting.bare.mark ++ [] ++ [])]

theorem blank_nil : Blank [] := fun _ member => absurd member List.not_mem_nil

theorem blank_cons {char : Char} {text : Text} (white : isWhitespace char = true) (blank : Blank text) :
    Blank (char :: text) := by
  intro other member
  rcases List.mem_cons.mp member with rfl | later
  · exact white
  · exact blank other later

theorem solid_of_all {text : Text} (solid : text.all (!isWhitespace ·) = true) :
    ∀ char ∈ text, isWhitespace char = false := by
  intro char member
  simpa using List.all_eq_true.mp solid char member

theorem sample_written : List.Forall₂ LineOf sampleLines
    [[], [.pairs ["nic0:vmbr0".toList, "nic1:vmbr1".toList]], [.maxMacs 30], []] := by
  have space : Blank [' '] := blank_cons (by decide) blank_nil
  have spaces : Blank [' ', ' '] := blank_cons (by decide) space
  refine .cons ?_ (.cons ?_ (.cons ?_ (.cons ?_ .nil)))
  · exact @LineOf.comment [] " uplinks".toList blank_nil
  · refine .setting (.pairs ?_) (by decide) ⟨by decide, fun bare => (by cases bare)⟩
      ⟨blank_nil, space, space, space⟩ (.inr rfl)
    exact .more blank_nil (by decide) (solid_of_all (by decide)) (by decide)
      (.last blank_nil (by decide) (solid_of_all (by decide)))
  · exact .setting (.maxMacs (by decide) (by decide)) (by decide) ⟨by decide, fun _ => by decide⟩
      ⟨space, blank_nil, blank_nil, spaces⟩ (.inr rfl)
  · exact .setting (.nothing (by decide)) (by decide) ⟨by decide, fun _ => by decide⟩
      ⟨blank_nil, blank_nil, blank_nil, blank_nil⟩ (.inl rfl)

end Sample

end SriovMacSync.Invocation
