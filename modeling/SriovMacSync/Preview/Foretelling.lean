import SriovMacSync.Preview.Foreseeing
import SriovMacSync.Sync.Reports

namespace SriovMacSync

open Data Netlink Interaction Interaction.Action

/-! # A pass told beforehand

What a pass reports of an uplink follows from the moment it starts in, whether it applies
anything or not: what comes before the uplink's turn leaves what the turn rests on. -/

variable {moment : Moment} {shelf shelf' base : Shelf} {syncer after start : Syncer} {dev : Name} {topo : Topology}
  {reading other : Reading} {pair : Pair} {link : Link} {anat : Anatomy} {answer : Answer} {owned : Finset Mac}
  {apply : Bool}

section Congruence

theorem brings_congr (left : Untouched topo dev syncer shelf after shelf') (clock : shelf'.clock = shelf.clock) :
    after.brings topo shelf' dev = syncer.brings topo shelf dev := by
  simp only [Syncer.brings, left.memory.carriedPorts, left.memory.loaded, left.drawer, clock]

/-- What does not concern an uplink does not change what its turn comes to. -/
theorem foreseePair_congr (left : Untouched reading.topo pair.dev syncer shelf after shelf')
    (clock : shelf'.clock = shelf.clock) :
    moment.foreseePair reading shelf' after pair answer = moment.foreseePair reading shelf syncer pair answer := by
  rw [Moment.foreseePair, Moment.foreseePair]
  cases found : reading.topo.get pair.dev with
  | none => rfl
  | some link =>
      cases reading.topo.indexOf pair.bridge with
      | none => rfl
      | some bridge =>
          dsimp only
          cases located : reading.topo.anatomy link.index bridge with
          | none => rfl
          | some anat =>
              have bears : reading.topo.nameOf anat.dev = some pair.dev :=
                Topology.anatomy_dev located ▸ Topology.nameOf_of_indexOf (Topology.get_spec found).1
              have settings : (Moment.recalling reading shelf' after pair.dev).toSettings =
                  (Moment.recalling reading shelf syncer pair.dev).toSettings := left.memory.settings
              have stock : (Moment.recalling reading shelf' after pair.dev).stock pair.dev =
                  (Moment.recalling reading shelf syncer pair.dev).stock pair.dev := by
                have brings := brings_congr left clock
                have carried := left.memory.carried
                simp only [Syncer.stock, Moment.recalling, Syncer.setPorts, Function.update_self, brings, carried]
              have owned : moment.owned shelf' pair.dev = moment.owned shelf pair.dev := by
                rw [Moment.owned, Moment.owned, left.drawer]
              have judged := @judge_congr moment _ _ _ reading anat answer (moment.owned shelf pair.dev) bears settings stock
              have relieved := @relieve_congr _ _ _ reading anat (moment.owned shelf pair.dev) settings stock
              simp only [Moment.foresee, Moment.count, owned, judged, relieved]

theorem answerAfter_congr {pairs : List Pair} (same : ∀ (pair : Pair) (answer : Answer),
    moment.foreseePair other shelf' after pair answer = moment.foreseePair reading shelf syncer pair answer) :
    moment.answerAfter other shelf' after pairs answer = moment.answerAfter reading shelf syncer pairs answer := by
  induction pairs generalizing answer with
  | nil => rfl
  | cons pair rest ih =>
      simp only [Moment.answerAfter, same, ih]

end Congruence

section Answers

/-- An answer is carried on only where a carried one came. -/
theorem carried_of_foreseen {answer' : Answer}
    (foreseen : (moment.foreseePair reading shelf syncer pair answer).map (·.2) = .ok answer')
    (carried : answer'.carried = true) : answer.carried = true := by
  have judged {syncer : Syncer} {anat : Anatomy} {owned : Finset Mac} {wanted : Wanted}
      (same : moment.judge reading syncer pair.dev anat answer owned = .ok (wanted, answer')) :
      answer.carried = true := by
    rw [Moment.judge] at same
    split at same
    · rename_i stale
      exact stale.1
    · obtain ⟨_, rfl⟩ := Prod.mk.inj (Except.ok.inj same)
      exact carried
  rw [Moment.foreseePair] at foreseen
  split at foreseen
  · split at foreseen
    · rw [Moment.foresee] at foreseen
      cases found : moment.judge reading (Moment.recalling reading shelf syncer pair.dev) pair.dev _ answer
          (moment.owned shelf pair.dev) with
      | error errno =>
          rw [found] at foreseen
          cases foreseen
      | ok decision =>
          obtain ⟨wanted, last⟩ := decision
          rw [found] at foreseen
          obtain rfl : last = answer' := Except.ok.inj foreseen
          exact judged found
    · obtain rfl : answer = answer' := Except.ok.inj foreseen
      exact carried
  · obtain rfl : answer = answer' := Except.ok.inj foreseen
    exact carried

/-- A fresh answer stays as it is. -/
theorem foreseePair_fresh (fresh : answer.carried = false) :
    (moment.foreseePair reading shelf syncer pair answer).map (·.2) = .ok answer := by
  rw [Moment.foreseePair]
  split
  · split
    · simp only [Moment.foresee, Moment.judge, fresh, Bool.false_eq_true, false_and, if_false]
      rfl
    · rfl
  · rfl

theorem passPair_fresh (fresh : answer.carried = false) :
    Safe moment.still (passPair reading pair answer) (fun result _ _ => result.map (·.2) = .ok answer) syncer shelf := by
  have decides {before : Syncer} {between : Shelf} {owned : Finset Mac} {anat : Anatomy} :
      Safe moment.still (decideWanted reading pair.dev anat answer owned) (fun decision _ _ =>
        ∃ wanted, decision = .ok (wanted, answer)) before between := by
    apply decideWanted_still.mono
    intro decision _ _ facts
    obtain ⟨judged, _⟩ := facts
    simp only [Moment.judge, fresh, Bool.false_eq_true, false_and, if_false] at judged
    exact ⟨_, judged⟩
  rw [passPair]
  split
  · split
    · apply safe_bind.mpr
      apply always_still.mono
      intro goes _ _ _
      split
      · apply safe_bind.mpr
        apply always_still.mono
        intro _ _ _ _
        apply safe_bind.mpr
        apply always_still.mono
        intro owned _ _ _
        apply safe_bind.mpr
        apply always_still.mono
        intro readable _ _ _
        apply safe_bind.mpr
        apply decides.mono
        intro decision _ _ facts
        obtain ⟨wanted, same⟩ := facts
        subst same
        apply safe_bind.mpr (safe_get.mpr ?_)
        apply safe_bind.mpr
        apply always_still.mono
        intro _ _ _ _
        apply safe_bind.mpr
        apply always_still.mono
        intro settled _ _ _
        apply safe_bind.mpr
        apply always_still.mono
        intro _ _ _ _
        exact safe_bind.mpr (safe_modify.mpr rfl)
      · exact rfl
    · exact rfl
  · exact rfl

end Answers

section Names

theorem passPair_names : Safe moment.still (passPair reading pair answer) (fun result _ _ =>
    ∀ report answer', result = .ok (some report, answer') → report.dev = pair.dev) syncer shelf :=
  (passPair_reports.frame (fun _ _ _ _ => ⟨trivial, fun _ _ _ => trivial⟩) trivial).mono fun _ _ _ known => known.1.2

theorem passPairs_names {pairs : List Pair} : Safe moment.still (passPairs reading pairs answer) (fun result _ _ =>
    ∀ reports, result = .ok reports → ∀ report ∈ reports, report.dev ∈ pairs.map (·.dev)) syncer shelf :=
  (passPairs_reports.frame (fun _ _ _ _ => ⟨trivial, fun _ _ _ => trivial⟩) trivial).mono fun _ _ _ known => known.1.2

/-- What reports say about one uplink. -/
def numbersOf (dev : Name) (reports : List Report) : List Numbers :=
  (reports.filter (·.dev = dev)).map Report.numbers

theorem numbersOf_append {first second : List Report} :
    numbersOf dev (first ++ second) = numbersOf dev first ++ numbersOf dev second := by
  simp [numbersOf]

theorem numbersOf_elsewhere {reports : List Report} {devs : List Name}
    (named : ∀ report ∈ reports, report.dev ∈ devs) (absent : dev ∉ devs) : numbersOf dev reports = [] := by
  rw [numbersOf, List.map_eq_nil_iff, List.filter_eq_nil_iff]
  intro report member same
  exact absent (of_decide_eq_true same ▸ named report member)

theorem numbersOf_own {report : Option Report} (named : ∀ made, report = some made → made.dev = dev) :
    numbersOf dev report.toList = (report.map Report.numbers).toList := by
  cases report with
  | none => rfl
  | some made => simp [numbersOf, named made rfl]

end Names

section Pairs

/-- The turn of an uplink whose note is its own concerns no other. -/
theorem passPair_own_untouched (own : OwnNote reading.topo syncer shelf pair) (apart : dev ≠ pair.dev)
    (away : shelf.Away dev) :
    Safe moment.still (passPair reading pair answer) (fun _ after shelf' =>
      Untouched reading.topo dev syncer shelf after shelf') syncer shelf := by
  rw [passPair]
  split
  · rename_i link bridge found below
    split
    · rename_i anat located
      obtain ⟨recalls, recorded⟩ := own link bridge anat found below located
      have bears := Topology.nameOf_of_indexOf (Topology.get_spec found).1
      apply safe_bind.mpr
      apply (settleName_still recalls recorded).mono
      intro goes after shelf' facts
      obtain ⟨goesOn, same, same'⟩ := facts
      subst goesOn same same'
      exact still_of_shelf (passUplink_untouched apart (Topology.anatomy_dev located ▸ bears) away)
    · exact .refl away
  · exact .refl away

theorem OwnNote.of_untouched (own : OwnNote topo syncer shelf pair)
    (left : Untouched topo pair.dev syncer shelf after shelf') : OwnNote topo after shelf' pair := by
  intro link bridge anat found below located
  obtain ⟨recalls, recorded⟩ := own link bridge anat found below located
  have index : after.indices pair.dev = syncer.indices pair.dev := left.index
  refine ⟨?_, ?_⟩
  · rw [Syncer.Recalls, index]
    exact recalls
  · rw [left.drawer]
    exact recorded

/-- What a pass says of an uplink that comes after these. -/
def Moment.foretell (moment : Moment) (reading : Reading) (shelf : Shelf) (syncer : Syncer) (earlier : List Pair)
    (pair : Pair) (answer : Answer) : Except Errno (List Numbers) :=
  match moment.answerAfter reading shelf syncer earlier answer with
  | .error errno => .error errno
  | .ok answer => (moment.foreseePair reading shelf syncer pair answer).map (·.1.toList)

/-- What the turns before an uplink's own have to leave alone: what it rests on, and where
the answer is a carried one, what they rest on themselves. -/
structure Calm (reading : Reading) (earlier : List Pair) (pair : Pair) (answer : Answer) (start : Syncer) (base : Shelf)
    (syncer : Syncer) (shelf : Shelf) : Prop where
  clock : shelf.clock = base.clock
  own : OwnNote reading.topo start base pair
  unled : ∀ other ∈ earlier, ¬ base.Leads reading.topo pair.dev other.dev
  here : Untouched reading.topo pair.dev start base syncer shelf
  there : answer.carried = true → ∀ other ∈ earlier,
    OwnNote reading.topo start base other ∧ Untouched reading.topo other.dev start base syncer shelf

/-- The turn of the first of them. -/
theorem Calm.turn {first : Pair} {rest : List Pair} (calm : Calm reading (first :: rest) pair answer start base syncer shelf)
    (apart : ∀ other ∈ rest ++ [pair], other.dev ≠ first.dev) :
    Safe moment.still (passPair reading first answer) (fun turn after shelf' =>
      turn.map (·.2) = (moment.foreseePair reading base start first answer).map (·.2) ∧
        ∀ answer', turn.map (·.2) = .ok answer' → Calm reading rest pair answer' start base after shelf')
      syncer shelf := by
  have member : first ∈ first :: rest := List.mem_cons_self
  have past : pair.dev ≠ first.dev := apart pair (by simp)
  have answers : Safe moment.still (passPair reading first answer) (fun turn _ _ =>
      turn.map (·.2) = (moment.foreseePair reading base start first answer).map (·.2)) syncer shelf := by
    cases carried : answer.carried with
    | true =>
        obtain ⟨own, left⟩ := calm.there carried first member
        rw [← foreseePair_congr left calm.clock]
        exact (passPair_still (own.of_untouched left)).mono fun _ _ _ agrees => agrees.1
    | false =>
        rw [foreseePair_fresh carried]
        exact passPair_fresh carried
  have unled : ¬ shelf.Leads reading.topo pair.dev first.dev := fun led =>
    calm.unled first member (calm.here.leads first.dev past.symm led)
  have here : Safe moment.still (passPair reading first answer) (fun _ after shelf' =>
      Untouched reading.topo pair.dev syncer shelf after shelf') syncer shelf :=
    still_of_shelf (passPair_untouched past unled calm.here.away)
  have there : Safe moment.still (passPair reading first answer) (fun _ after shelf' => ∀ other : Pair,
      other ∈ rest → answer.carried = true → Untouched reading.topo other.dev syncer shelf after shelf')
      syncer shelf := by
    apply still_all
    intro other
    by_cases both : other ∈ rest ∧ answer.carried = true
    · obtain ⟨listed, carried⟩ := both
      obtain ⟨own, left⟩ := calm.there carried first member
      have away := (calm.there carried other (List.mem_cons_of_mem _ listed)).2.away
      apply (passPair_own_untouched (own.of_untouched left) (apart other (List.mem_append_left _ listed)) away).mono
      exact fun _ _ _ next _ _ => next
    · exact always_still.mono fun _ _ _ _ listed carried => absurd ⟨listed, carried⟩ both
  apply ((answers.and clock_still).and (here.and there)).mono
  intro turn after shelf' ⟨⟨foreseen, clock⟩, here, there⟩
  refine ⟨foreseen, fun answer' same => ⟨clock.trans calm.clock, calm.own, ?_, calm.here.trans here, ?_⟩⟩
  · exact fun other listed => calm.unled other (List.mem_cons_of_mem _ listed)
  · intro carried other listed
    have before := carried_of_foreseen (foreseen.symm.trans same) carried
    obtain ⟨own, left⟩ := calm.there before other (List.mem_cons_of_mem _ listed)
    exact ⟨own, left.trans (there other listed before)⟩

theorem passPairs_still {earlier later : List Pair} (calm : Calm reading earlier pair answer start base syncer shelf)
    (distinct : ((earlier ++ pair :: later).map (·.dev)).Nodup) (legible : moment.legible pair.dev = true) :
    Safe moment.still (passPairs reading (earlier ++ pair :: later) answer) (fun result _ _ =>
      ∀ reports, result = .ok reports →
        moment.foretell reading base start earlier pair answer = .ok (numbersOf pair.dev reports)) syncer shelf := by
  induction earlier generalizing answer syncer shelf with
  | nil =>
      rw [List.nil_append, List.map_cons, List.nodup_cons] at distinct
      apply safe_bind.mpr
      apply ((passPair_still (calm.own.of_untouched calm.here)).and passPair_names).mono
      intro turn _ _ ⟨⟨_, counted⟩, named⟩
      rw [foreseePair_congr calm.here calm.clock] at counted
      cases turn with
      | error errno => exact nofun
      | ok turn =>
          obtain ⟨report, answer'⟩ := turn
          apply safe_bind.mpr
          apply passPairs_names.mono
          intro result _ _ others
          cases result with
          | error errno => exact nofun
          | ok rest =>
              intro reports same
              cases same
              have numbers := counted legible
              rw [numbersOf_append, numbersOf_own fun made same => named made answer' (by rw [same]),
                numbersOf_elsewhere (others rest rfl) distinct.1, List.append_nil]
              simp only [Moment.foretell, Moment.answerAfter]
              cases foreseen : moment.foreseePair reading base start pair answer with
              | error errno =>
                  rw [foreseen] at numbers
                  cases numbers
              | ok found =>
                  rw [foreseen] at numbers
                  have same : report.map Report.numbers = found.1 := Except.ok.inj numbers
                  rw [same]
                  rfl
  | cons first rest ih =>
      rw [List.cons_append, List.map_cons, List.nodup_cons] at distinct
      have apart : ∀ other ∈ rest ++ [pair], other.dev ≠ first.dev := by
        intro other member same
        apply distinct.1
        rw [← same]
        apply List.mem_map_of_mem
        simp only [List.mem_append, List.mem_cons, List.not_mem_nil, or_false] at member ⊢
        tauto
      apply safe_bind.mpr
      apply ((calm.turn apart).and passPair_names).mono
      intro turn after shelf' ⟨⟨foreseen, still⟩, named⟩
      cases turn with
      | error errno => exact nofun
      | ok turn =>
          obtain ⟨report, answer'⟩ := turn
          apply safe_bind.mpr
          apply (ih (still answer' rfl) distinct.2).mono
          intro result _ _ told
          cases result with
          | error errno => exact nofun
          | ok others =>
              intro reports same
              cases same
              have elsewhere : numbersOf pair.dev report.toList = [] := by
                apply @numbersOf_elsewhere _ _ [first.dev]
                · intro made member
                  have same : report = some made := by simpa using member
                  exact List.mem_singleton.mpr (named made answer' (by rw [same]))
                · exact fun member => apart pair (by simp) (List.mem_singleton.mp member)
              rw [numbersOf_append, elsewhere, List.nil_append, ← told others rfl]
              cases found : moment.foreseePair reading base start first answer with
              | error errno =>
                  rw [found] at foreseen
                  cases foreseen
              | ok foreseen' =>
                  rw [found] at foreseen
                  have same : answer' = foreseen'.2 := Except.ok.inj foreseen
                  rw [same]
                  simp only [Moment.foretell, Moment.answerAfter, found]

end Pairs

end SriovMacSync
