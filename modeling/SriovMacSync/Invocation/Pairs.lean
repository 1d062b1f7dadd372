import SriovMacSync.Daemon.Loop
import SriovMacSync.Invocation.Configuration
import SriovMacSync.Topology.Resolutions

namespace SriovMacSync.Invocation

open Data Cache Relation Loop Chain

/-! # The pairs a process is told to keep

A pair names an uplink and its bridge.  Where a person is watching, it is kept only if the
uplink sits under that bridge.  Elsewhere it is kept in case it appears. -/

/-- Whether there need not be a pair. -/
def Mode.allowsNone (mode : Mode) : Bool := mode = .daemon || mode = .flush || mode = .status

/-- Whether a person is there to fix a slip. -/
def Mode.strict (mode : Mode) : Bool := mode = .once || mode = .check

/-- What the reading has against a pair. -/
def topologySays (topo : Topology) (spec : Text) (pair : Pair) : Except String Unit :=
  match topo.indexOf pair.dev with
  | none => .error s!"no such interface: {pair.dev}"
  | some dev =>
      match topo.indexOf pair.bridge with
      | none => .error s!"no such interface: {pair.bridge}"
      | some bridge =>
          if topo.isBridge bridge = false then .error s!"not a bridge: {pair.bridge}"
          else if (topo.bridgeAbove dev).map (·.1) ≠ some bridge then
            .error s!"{String.ofList spec}: {pair.dev} is not enslaved to {pair.bridge}, directly or through a bond"
          else .ok ()

/-- It is refused where a person is watching, and said elsewhere. -/
def objection (topo : Topology) (strict : Bool) (spec : Text) (pair : Pair) : Except String (List String) :=
  match topologySays topo spec pair with
  | .ok () => .ok []
  | .error msg => if strict then .error msg else .ok [s!"warning: {msg} - kept, in case it appears"]

/-- The pairs named, one by one, behind those taken already. -/
def resolveSpecs (topo : Topology) (strict : Bool) : List Text → List Pair → Except String (List Pair × List String)
  | [], pairs => .ok (pairs, [])
  | spec :: rest, pairs =>
      match splitOnce ':' spec with
      | none => .error s!"malformed pair: {String.ofList spec} (expected DEV:BRIDGE)"
      | some (dev, bridge) =>
          let pair : Pair := ⟨String.ofList dev, String.ofList bridge⟩
          if pair.dev = pair.bridge then
            .error s!"{String.ofList spec}: a bridge cannot be its own uplink"
          else
            match objection topo strict spec pair with
            | .error msg => .error msg
            | .ok said =>
                -- two pairs on one device would undo each other's work
                if pairs.any (·.dev = pair.dev) then
                  .error s!"{String.ofList spec}: {pair.dev} is already named by another pair"
                else
                  (resolveSpecs topo strict rest (pairs ++ [pair])).map fun ended => (ended.1, said ++ ended.2)

/-- The pairs to keep, and what is said on the way. -/
def resolvePairs (topo : Topology) (opts : Options) : Except String (List Pair × List String) :=
  if opts.pairs = [] then
    let detected := topo.autodetect (topo.links.insertionSort fun first second => first.name ≤ second.name)
    if detected.pairs = [] ∧ opts.mode.allowsNone = false then
      .error "no SR-IOV interface found that ends up in a bridge (use --pair; the lines above say what was skipped)"
    else .ok (topo.detectedPairs, detected.skipped)
  else resolveSpecs topo opts.mode.strict opts.pairs []

section Resolving

variable {topo : Topology}

/-- A pair as it is named. -/
def Names (spec : Text) (pair : Pair) : Prop :=
  spec = pair.dev.toList ++ ':' :: pair.bridge.toList ∧ ':' ∉ pair.dev.toList

/-- An uplink that is enslaved to its bridge, directly or through others. -/
def Sits (topo : Topology) (pair : Pair) : Prop :=
  ∃ dev bridge port, topo.indexOf pair.dev = some dev ∧ topo.indexOf pair.bridge = some bridge ∧
    ReflTransGen (Below topo.masterOf topo.isBridge) dev port ∧ topo.masterOf port = some bridge ∧
      topo.isBridge bridge = true

/-- A pair that is kept behind others. -/
structure Stands (topo : Topology) (strict : Bool) (pairs : List Pair) (pair : Pair) : Prop where
  apart : pair.dev ≠ pair.bridge
  alone : ∀ other ∈ pairs, other.dev ≠ pair.dev
  sits : strict = true → Sits topo pair

theorem topologySays_eq_ok {spec : Text} {pair : Pair} : topologySays topo spec pair = .ok () ↔ Sits topo pair := by
  rw [topologySays]
  constructor
  · intro fine
    cases dev : topo.indexOf pair.dev with
    | none =>
        rw [dev] at fine
        cases fine
    | some dev' =>
        cases bridge : topo.indexOf pair.bridge with
        | none =>
            rw [dev, bridge] at fine
            cases fine
        | some bridge' =>
            rw [dev, bridge] at fine
            dsimp only at fine
            split at fine
            · cases fine
            · rename_i isBridge
              split at fine
              · cases fine
              · rename_i under
                rw [not_not, Option.map_eq_some_iff] at under
                obtain ⟨found, above, rfl⟩ := under
                obtain ⟨path, enslaved, _⟩ := ((topo.bridgeAbove_exact dev').2 found.1 found.2).mp above
                exact ⟨dev', found.1, found.2, dev, bridge, path, enslaved, by simpa using isBridge⟩
  · rintro ⟨dev, bridge, port, named, named', path, enslaved, isBridge⟩
    have above := ((topo.bridgeAbove_exact dev).2 bridge port).mpr ⟨path, enslaved, isBridge⟩
    simp [named, named', isBridge, above]

theorem splitOnce_eq_some {spec dev bridge : Text} :
    splitOnce ':' spec = some (dev, bridge) ↔ spec = dev ++ ':' :: bridge ∧ ':' ∉ dev := by
  constructor
  · intro split
    have colon : ':' ∈ spec := by
      by_contra absent
      rw [splitOnce, if_neg absent] at split
      cases split
    obtain ⟨front, rest, rfl, absent⟩ := List.eq_append_cons_of_mem colon
    rw [splitOnce_append absent] at split
    cases split
    exact ⟨rfl, absent⟩
  · rintro ⟨rfl, absent⟩
    exact splitOnce_append absent bridge

theorem objection_ok_iff {strict : Bool} {spec : Text} {pair : Pair} :
    (∃ said, objection topo strict spec pair = .ok said) ↔ (strict = true → Sits topo pair) := by
  rw [objection]
  cases said : topologySays topo spec pair with
  | ok => simpa using fun _ => topologySays_eq_ok.mp said
  | error msg =>
      have unseated : ¬ Sits topo pair := by
        intro sits
        rw [topologySays_eq_ok.mpr sits] at said
        cases said
      cases strict <;> simp [unseated]

theorem map_eq_ok {α β : Type} {ended : Except String α} {change : α → β} {result : β} :
    ended.map change = .ok result ↔ ∃ value, ended = .ok value ∧ change value = result := by
  cases ended with
  | error msg =>
      constructor
      · intro mapped
        cases mapped
      · rintro ⟨_, fine, _⟩
        cases fine
  | ok value => simp [Except.map]

/-- The pair at the front of those named. -/
theorem resolveSpecs_cons {strict : Bool} {spec : Text} {rest : List Text} {before pairs : List Pair} :
    (∃ said, resolveSpecs topo strict (spec :: rest) before = .ok (pairs, said)) ↔
      ∃ pair, Names spec pair ∧ Stands topo strict before pair ∧
        ∃ said, resolveSpecs topo strict rest (before ++ [pair]) = .ok (pairs, said) := by
  rw [resolveSpecs]
  constructor
  · rintro ⟨said, resolved⟩
    cases parts : splitOnce ':' spec with
    | none =>
        rw [parts] at resolved
        cases resolved
    | some parts' =>
        rw [parts] at resolved
        dsimp only at resolved
        split at resolved
        · cases resolved
        · rename_i apart
          cases objects : objection topo strict spec ⟨String.ofList parts'.1, String.ofList parts'.2⟩ with
          | error msg =>
              rw [objects] at resolved
              cases resolved
          | ok warned =>
              rw [objects] at resolved
              dsimp only at resolved
              split at resolved
              · cases resolved
              · rename_i alone
                obtain ⟨ended, later, same⟩ := map_eq_ok.mp resolved
                obtain ⟨spelt, absent⟩ := splitOnce_eq_some.mp parts
                refine ⟨_, ⟨by simpa using spelt, by simpa using absent⟩, ⟨apart, ?_, objection_ok_iff.mp ⟨warned, objects⟩⟩,
                  ended.2, ?_⟩
                · simpa using alone
                · rw [later]
                  cases same
                  rfl
  · rintro ⟨pair, ⟨spelt, absent⟩, stands, said, later⟩
    have parts := splitOnce_eq_some.mpr ⟨spelt, absent⟩
    obtain ⟨warned, objects⟩ := (@objection_ok_iff topo strict spec pair).mpr stands.sits
    have alone : ¬ before.any (·.dev = pair.dev) = true := by simpa using stands.alone
    rw [parts]
    simp only [String.ofList_toList, if_neg stands.apart, objects, if_neg alone, later]
    exact ⟨_, rfl⟩

/-- The pairs named are kept in their order, or none is. -/
theorem resolveSpecs_ok_iff {strict : Bool} {specs : List Text} {before pairs : List Pair} :
    (∃ said, resolveSpecs topo strict specs before = .ok (pairs, said)) ↔
      ∃ named, pairs = before ++ named ∧ List.Forall₂ Names specs named ∧ (∀ pair ∈ named, pair.dev ≠ pair.bridge) ∧
        (named.map (·.dev)).Nodup ∧ (∀ pair ∈ named, ∀ other ∈ before, other.dev ≠ pair.dev) ∧
          (strict = true → ∀ pair ∈ named, Sits topo pair) := by
  induction specs generalizing before with
  | nil =>
      constructor
      · rintro ⟨said, resolved⟩
        cases resolved
        exact ⟨[], by simp⟩
      · rintro ⟨named, rfl, names, _⟩
        cases names
        exact ⟨[], by rw [resolveSpecs, List.append_nil]⟩
  | cons spec rest ih =>
      rw [resolveSpecs_cons]
      constructor
      · rintro ⟨pair, spelt, stands, later⟩
        obtain ⟨named, rfl, names, apart, distinct, alone, sits⟩ := ih.mp later
        refine ⟨pair :: named, by simp, .cons spelt names, ?_, ?_, ?_, ?_⟩
        · simpa using ⟨stands.apart, apart⟩
        · rw [List.map_cons, List.nodup_cons]
          refine ⟨fun member => ?_, distinct⟩
          obtain ⟨other, listed, same⟩ := List.mem_map.mp member
          exact alone other listed pair (by simp) same.symm
        · intro kept member other earlier
          rcases List.mem_cons.mp member with rfl | later
          · exact stands.alone other earlier
          · exact alone kept later other (List.mem_append_left _ earlier)
        · intro watched
          simpa using ⟨stands.sits watched, sits watched⟩
      · rintro ⟨named, rfl, names, apart, distinct, alone, sits⟩
        cases names with
        | @cons _ pair _ named spelt names =>
            rw [List.map_cons, List.nodup_cons] at distinct
            refine ⟨pair, spelt, ⟨apart pair List.mem_cons_self, ?_, fun watched => sits watched pair List.mem_cons_self⟩,
              ih.mpr ⟨named, by simp, names, fun other member => apart other (List.mem_cons_of_mem _ member),
                distinct.2, ?_, fun watched other member => sits watched other (List.mem_cons_of_mem _ member)⟩⟩
            · exact alone pair List.mem_cons_self
            · intro other member earlier listed same
              rcases List.mem_append.mp listed with before | first
              · exact alone other (List.mem_cons_of_mem _ member) earlier before same
              · rw [List.mem_singleton.mp first] at same
                exact distinct.1 (List.mem_map.mpr ⟨other, member, same.symm⟩)

end Resolving

/-- Which pairs a process keeps. -/
theorem pairs_resolved_exactly {topo : Topology} {opts : Options} {pairs : List Pair} :
    (∃ said, resolvePairs topo opts = .ok (pairs, said)) ↔
      (opts.pairs = [] ∧ pairs = topo.detectedPairs ∧ (pairs ≠ [] ∨ opts.mode.allowsNone = true)) ∨
      (opts.pairs ≠ [] ∧ List.Forall₂ Names opts.pairs pairs ∧ (∀ pair ∈ pairs, pair.dev ≠ pair.bridge) ∧
        (pairs.map (·.dev)).Nodup ∧ (opts.mode.strict = true → ∀ pair ∈ pairs, Sits topo pair)) := by
  rw [resolvePairs]
  by_cases none : opts.pairs = []
  · have empty : topo.detectedPairs = [] ↔
        (topo.autodetect (topo.links.insertionSort fun first second => first.name ≤ second.name)).pairs = [] := by
      rw [Topology.detectedPairs, List.map_eq_nil_iff]
    rw [if_pos none]
    constructor
    · rintro ⟨said, resolved⟩
      dsimp only at resolved
      split at resolved
      · cases resolved
      · rename_i fine
        cases resolved
        refine .inl ⟨none, rfl, ?_⟩
        by_contra bare
        rw [not_or, not_not, Bool.not_eq_true] at bare
        exact fine ⟨empty.mp bare.1, bare.2⟩
    · rintro (⟨_, rfl, found⟩ | ⟨named, _⟩)
      · refine ⟨_, if_neg ?_⟩
        rintro ⟨bare, refused⟩
        rcases found with found | allowed
        · exact found (empty.mpr bare)
        · rw [refused] at allowed
          cases allowed
      · exact absurd none named
  · rw [if_neg none, resolveSpecs_ok_iff]
    constructor
    · rintro ⟨named, rfl, names, apart, distinct, _, sits⟩
      exact .inr ⟨none, names, apart, distinct, sits⟩
    · rintro (⟨bare, _⟩ | ⟨_, names, apart, distinct, sits⟩)
      · exact absurd bare none
      · exact ⟨pairs, rfl, names, apart, distinct, fun _ _ _ earlier => absurd earlier List.not_mem_nil, sits⟩

end SriovMacSync.Invocation
