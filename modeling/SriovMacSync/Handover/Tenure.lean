import SriovMacSync.Handover.Answering

namespace SriovMacSync

open Data Netlink Interaction Interaction.Action

/-! # A process held against an uplink's file

Passes and batches in any order, the host changing in between as it likes, as long as
nobody else touches the file. -/

variable {legible sure : Name → Prop} {shelf shelf' : Shelf} {syncer after : Syncer} {dev : Name}
  {topo : Topology} {passAt : Nat} {events : List Event} {reported : Prop}

/-- What a file may be behind its memory by. -/
structure Trail where
  /-- the addresses whose stamps may have moved since it was written -/
  stirred : Set Mac
  /-- the file as it was found, where it may have been taken over with its stamps shifted -/
  origin : Option Text

/-- The addresses an uplink's memory tells something else of than before. -/
def Syncer.moved (dev : Name) (syncer after : Syncer) : Set Mac :=
  {mac | (after.portsOf dev).lookup mac ≠ (syncer.portsOf dev).lookup mac}

namespace Trail

variable (trail : Trail) (dev) (syncer : Syncer) (shelf : Shelf) (after : Syncer) (shelf' : Shelf)

/-- A pass writes the file for a changed key, and moves no stamp of the quiet. -/
def pass : Trail :=
  if dev ∈ syncer.pairs.map (·.dev) then
    if Unrewritten dev syncer shelf after shelf' then trail else ⟨∅, syncer.offered shelf dev⟩
  else if Unrewritten dev syncer shelf after shelf' then
    { trail with stirred := trail.stirred ∪ syncer.moved dev after }
  else ⟨∅, (shelf'.drawer dev).ports⟩

/-- A batch moves stamps, of addresses it names, and may do so after it wrote the file. -/
def batch (events : List Event) : Trail :=
  if Unrewritten dev syncer shelf after shelf' then
    { trail with stirred := trail.stirred ∪ syncer.moved dev after }
  else ⟨namedIn events, none⟩

end Trail

/-- Passes and batches of one process, from its start on.  An uplink's file is there to be
written, and only this process writes it. -/
inductive Tenure (dev : Name) : Syncer → Shelf → Trail → Prop where
  | starts {syncer : Syncer} {shelf : Shelf} (acts : syncer.dryRun = false)
      (unwritten : syncer.portsWritten dev = none) (loose : (shelf.drawer dev).stuck = false)
      (free : shelf.held = none) : Tenure dev syncer shelf ⟨∅, none⟩
  | meanwhile {syncer : Syncer} {shelf shelf' : Shelf} {trail : Trail} (earlier : Tenure dev syncer shelf trail)
      (settings : Settings) (acts : settings.dryRun = false)
      (file : (shelf'.drawer dev).ports = (shelf.drawer dev).ports) (loose : (shelf'.drawer dev).stuck = false)
      (free : shelf'.held = none) : Tenure dev { syncer with toSettings := settings } shelf' trail
  | pass {syncer after : Syncer} {shelf shelf' : Shelf} {trail : Trail} {legible sure : Name → Prop} {topo : Topology}
      {result : Except Errno (List Report)} (earlier : Tenure dev syncer shelf trail) (plain : topo.Plain)
      (ran : Runs (shelving legible sure) (reconcile true topo) syncer shelf result after shelf') :
      Tenure dev after shelf' (trail.pass dev syncer shelf after shelf')
  | batch {syncer after : Syncer} {shelf shelf' : Shelf} {trail : Trail} {legible sure : Name → Prop} {topo : Topology}
      {events : List Event} {result : Except Errno Urgency} (earlier : Tenure dev syncer shelf trail)
      (plain : topo.Plain)
      (ran : Runs (shelving legible sure) (fastApply topo events) syncer shelf result after shelf') :
      Tenure dev after shelf' (trail.batch dev syncer shelf after shelf' events)

section Steps

variable {trail : Trail}

/-- What is not rewritten is right about all that did not move. -/
theorem Backed.moved (backed : Backed trail.stirred trail.origin dev syncer shelf)
    (kept : Unrewritten dev syncer shelf after shelf') :
    Backed (trail.stirred ∪ syncer.moved dev after) trail.origin dev after shelf' := by
  apply (backed.mono Set.subset_union_left (.inr rfl)).stir kept
  intro mac calm spot found
  have same : (after.portsOf dev).lookup mac = (syncer.portsOf dev).lookup mac := by
    by_contra other
    exact calm (.inr other)
  exact same ▸ found

/-- Whatever a file was taken over from, it is what it is. -/
theorem Backed.found {stirred : Set Mac} {origin : Option Text} (backed : Backed stirred origin dev syncer shelf) :
    Backed stirred (shelf.drawer dev).ports dev syncer shelf := by
  intro keys memo file
  obtain ⟨topo, rows, passAt, ahead, bound, plain, same, agrees⟩ := backed keys memo file
  refine ⟨topo, rows, passAt, ahead, bound, plain, same, ?_, agrees.lines⟩
  exact agrees.genuine.imp_right fun known => ⟨known.1, rfl⟩

/-- An uplink of the pass. -/
theorem Passes.standing
    (passes : Passes (dev ∈ syncer.pairs.map (·.dev)) reported topo passAt dev syncer shelf after shelf')
    (listed : dev ∈ syncer.pairs.map (·.dev)) (ready : Ready dev syncer shelf)
    (backed : Backed trail.stirred trail.origin dev syncer shelf) :
    Standing reported topo passAt (trail.pass dev syncer shelf after shelf').stirred
      (trail.pass dev syncer shelf after shelf').origin dev after shelf' := by
  have stands := (passes.advances listed).standing trail.stirred trail.origin (.of_backed backed id)
  rw [Trail.pass, if_pos listed]
  split
  · rename_i kept
    rcases stands with ⟨_, stands⟩ | fresh
    · exact stands
    · by_cases never : syncer.Unread dev
      · have unwritten : after.portsWritten dev = none := kept.1.trans (ready.read never)
        refine .of_backed (.of_unwritten unwritten) fun told => ?_
        have written := fresh.written told
        rw [unwritten] at written
        cases written
      · apply fresh.mono (Set.empty_subset _) (.inl (if_neg never))
  · rename_i rewritten
    rcases stands with ⟨kept, _⟩ | fresh
    · exact absurd kept rewritten
    · exact fresh

theorem Passes.backed (passes : Passes (dev ∈ syncer.pairs.map (·.dev)) reported topo passAt dev syncer shelf after shelf')
    (ready : Ready dev syncer shelf) (backed : Backed trail.stirred trail.origin dev syncer shelf) :
    Backed (trail.pass dev syncer shelf after shelf').stirred (trail.pass dev syncer shelf after shelf').origin dev
      after shelf' := by
  by_cases listed : dev ∈ syncer.pairs.map (·.dev)
  · exact (passes.standing listed ready backed).backed
  · rw [Trail.pass, if_neg listed]
    split
    · rename_i kept
      exact backed.moved kept
    · rename_i rewritten
      rcases passes.reworks.backed _ _ (Set.empty_subset _) backed with ⟨kept, _⟩ | ⟨_, _, redone⟩
      · exact absurd kept rewritten
      · exact redone.found

theorem Reworks.backed_batch (reworks : Reworks (namedIn events) {none} dev syncer shelf after shelf')
    (backed : Backed trail.stirred trail.origin dev syncer shelf) :
    Backed (trail.batch dev syncer shelf after shelf' events).stirred
      (trail.batch dev syncer shelf after shelf' events).origin dev after shelf' := by
  rw [Trail.batch]
  split
  · rename_i kept
    exact backed.moved kept
  · rename_i rewritten
    have widened := backed.mono (Set.subset_union_left (t := namedIn events)) (.inr rfl)
    rcases reworks.backed _ _ Set.subset_union_right widened with ⟨kept, _⟩ | ⟨_, found, redone⟩
    · exact absurd kept rewritten
    · exact Set.mem_singleton_iff.mp found ▸ redone

/-- In every run, whatever is held against the file is what the file says. -/
theorem Tenure.holds (tenure : Tenure dev syncer shelf trail) :
    Ready dev syncer shelf ∧ Backed trail.stirred trail.origin dev syncer shelf := by
  have freed {shelf : Shelf} (free : shelf.held = none) : shelf.Away dev := by
    intro work
    rw [free]
    exact nofun
  induction tenure with
  | starts acts unwritten loose free =>
      exact ⟨⟨acts, loose, freed free, fun _ => unwritten⟩, .of_unwritten unwritten⟩
  | meanwhile earlier settings acts file loose free ih =>
      obtain ⟨ready, backed⟩ := ih
      exact ⟨⟨acts, loose, freed free, ready.read⟩, backed.stir ⟨rfl, file⟩ .refl⟩
  | pass earlier plain ran ih =>
      obtain ⟨ready, backed⟩ := ih
      obtain ⟨passes, _⟩ := (reconcile_passes plain ready).runs ran
      exact ⟨passes.reworks.ready, passes.backed ready backed⟩
  | batch earlier plain ran ih =>
      obtain ⟨ready, backed⟩ := ih
      have reworks := (fastApply_reworks plain ready).runs ran
      exact ⟨reworks.ready, reworks.backed_batch backed⟩

end Steps

section Order

variable {ports : PortMap} {trail : Trail} {text : Option Text}

/-- The file carries the order of the quiet: each has its line, with its port and, unless it
moved, with its stamp, and the line of whoever is not quiet is younger.  Only a file still as
it was found may have all its stamps shifted. -/
structure CarriesOrder (topo : Topology) (passAt ahead : Nat) (trail : Trail) (text : Option Text) (ports : PortMap) :
    Prop where
  genuine : ahead = 0 ∧ OneEach (onFile text) ∨ text.isSome ∧ trail.origin = text
  quiet : ∀ mac index seen name, ports.lookup mac = some (index, seen) → seen < passAt → topo.nameOf index = some name →
    ∃ filed, (⟨mac, name, index, filed⟩ : PortsLine) ∈ onFile text ∧ (mac ∉ trail.stirred → seen = filed - ahead) ∧
      ∀ other port heard label, ports.lookup other = some (port, heard) → passAt ≤ heard →
        topo.nameOf port = some label →
          ∃ later, (⟨other, label, port, later⟩ : PortsLine) ∈ onFile text ∧ filed < later

theorem CarriesOrder.of_matches {ahead bound : Nat}
    (agrees : Matches topo ports passAt ahead bound trail.stirred trail.origin text ports) :
    CarriesOrder topo passAt ahead trail text ports where
  genuine := agrees.genuine
  quiet mac index seen name found silent named := by
    obtain ⟨filed, listed, sides, stamped⟩ := agrees.lines mac index seen name found named
    refine ⟨filed, listed, fun calm => stamped silent calm _ found, fun other port heard label found' late named' => ?_⟩
    obtain ⟨later, listed', sides', _⟩ := agrees.lines other port heard label found' named'
    have early := sides.mp silent
    have younger := mt sides'.mpr (Nat.not_lt.mpr late)
    exact ⟨later, listed', by omega⟩

/-- The quiet whose stamps stayed, as far as another reading has their ports where they were. -/
def steady (topo topo' : Topology) (passAt : Nat) (trail : Trail) (ports : PortMap) : Set Mac :=
  {mac | mac ∉ trail.stirred ∧ ∃ index seen name, ports.lookup mac = some (index, seen) ∧ seen < passAt ∧
    topo.nameOf index = some name ∧ topo'.indexOf name = some index}

/-- What one memory ranks by its stamps another ranks alike, except that its oldest may be
all of one age. -/
def RanksAlike (macs : Set Mac) (ports again : PortMap) : Prop :=
  ∀ mac ∈ macs, ∀ other ∈ macs, ∀ spot spot', ports.lookup mac = some spot → ports.lookup other = some spot' →
    spot.2 < spot'.2 → ∃ seen seen', again.lookup mac = some (spot.1, seen) ∧ again.lookup other = some (spot'.1, seen') ∧
      (seen < seen' ∨ seen = 0 ∧ seen' = 0)

/-- What is taken over of an address that has one line is that line. -/
theorem lookup_takeOver_of_line {now : Nat} (single : OneEach (onFile text)) {line : PortsLine}
    (listed : line ∈ onFile text) (bears : topo.indexOf line.name = some line.index) :
    (takeOver (believed topo text) now).lookup line.mac =
      some (line.index, line.seen - (((believed topo text).map (·.seen)).foldl max 0 - now)) := by
  have inside : line ∈ believed topo text := List.mem_filter.mpr ⟨listed, decide_eq_true bears⟩
  obtain ⟨spot, found⟩ := Option.isSome_iff_exists.mp (AList.lookup_isSome.mpr
    (mem_takeOver.mpr ⟨line, inside, rfl⟩ : line.mac ∈ takeOver (believed topo text) now))
  obtain ⟨other, listed', about, same⟩ := lookup_takeOver found
  obtain rfl := single other (List.mem_of_mem_filter listed') line listed about
  rw [found, same]

/-- A fresh process that takes the file over ranks the steady of the quiet as this one did. -/
theorem CarriesOrder.ranksAlike {ahead now : Nat} {topo' : Topology}
    (carries : CarriesOrder topo passAt ahead trail text ports) (single : OneEach (onFile text)) :
    RanksAlike (steady topo topo' passAt trail ports) ports (takeOver (believed topo' text) now) := by
  intro mac ⟨calm, index, seen, name, found, silent, named, bears⟩ other
    ⟨calm', index', seen', name', found', silent', named', bears'⟩ spot spot' known known' older
  obtain rfl := Option.some.inj (found.symm.trans known)
  obtain rfl := Option.some.inj (found'.symm.trans known')
  obtain ⟨filed, listed, stamped, _⟩ := carries.quiet mac index seen name found silent named
  obtain ⟨filed', listed', stamped', _⟩ := carries.quiet other index' seen' name' found' silent' named'
  refine ⟨_, _, lookup_takeOver_of_line single listed bears, lookup_takeOver_of_line single listed' bears', ?_⟩
  have first := stamped calm
  have second := stamped' calm'
  dsimp only at older ⊢
  omega

end Order

section Missed

def sleeper : Mac := ⟨2, 0, 0, 0, 0, 3⟩

/-- What the process before left: two keeps, and how long each was silent. -/
def handedShelf : Shelf where
  drawer := fun dev => {
    note := if dev = "nic1" then {guest, sleeper} else ∅
    record := none
    ports := if dev = "nic1" then
      some "sriov-mac-sync ports 3\n02:00:00:00:00:01 vetha 4 5\n02:00:00:00:00:03 vetha 4 7\n".toList
    else none
    stuck := false
    deeds := [] }
  lists := fun index => if index = 2 then {guest, sleeper} else ∅
  fdb := [Host.selfEntry 2 guest, Host.selfEntry 2 sleeper]
  clock := 12
  held := none

/-- The first pass takes the file over and writes it anew. -/
def handedPass : (Except Errno (List Report) × Syncer) × Shelf :=
  handedShelf.serves ∅ (reconcile true bridgedTopology) bridgedSyncer

/-- Then the quieter of the two speaks, and is forgotten by the bridge again. -/
def handedBatch : (Except Errno Urgency × Syncer) × Shelf :=
  handedPass.2.serves ∅ (fastApply bridgedTopology [(.newNeigh, guestLearnt)]) handedPass.1.2

def laterPass : (Except Errno (List Report) × Syncer) × Shelf :=
  handedBatch.2.serves ∅ (reconcile true bridgedTopology) handedBatch.1.2

def laterTrail : Trail :=
  ((⟨∅, none⟩ : Trail).pass "nic1" bridgedSyncer handedShelf handedPass.1.2 handedPass.2).batch "nic1" handedPass.1.2
    handedPass.2 handedBatch.1.2 handedBatch.2 [(.newNeigh, guestLearnt)]

theorem handedPass_runs : Runs (shelving (fun _ => True) fun _ => True) (reconcile true bridgedTopology) bridgedSyncer
    handedShelf handedPass.1.1 handedPass.1.2 handedPass.2 := by
  unfold handedPass
  exact Shelf.serves_runs ..

theorem handedBatch_runs : Runs (shelving (fun _ => True) fun _ => True)
    (fastApply bridgedTopology [(.newNeigh, guestLearnt)]) handedPass.1.2 handedPass.2 handedBatch.1.1 handedBatch.1.2
    handedBatch.2 := by
  unfold handedBatch
  exact Shelf.serves_runs ..

theorem handedBatch_tenure : Tenure "nic1" handedBatch.1.2 handedBatch.2 laterTrail := by
  have start : Tenure "nic1" bridgedSyncer handedShelf ⟨∅, none⟩ := .starts rfl rfl rfl rfl
  exact (start.pass bridgedTopology_plain handedPass_runs).batch bridgedTopology_plain handedBatch_runs

theorem laterPass_runs : ∃ reports, (∃ report ∈ reports, report.dev = "nic1") ∧
    Runs (shelving (fun _ => True) fun _ => True) (reconcile true bridgedTopology) handedBatch.1.2 handedBatch.2
      (.ok reports) laterPass.1.2 laterPass.2 := by
  have told : ∃ report ∈ laterPass.1.1.toOption.getD [], report.dev = "nic1" := by decide +kernel
  have ran : Runs (shelving (fun _ => True) fun _ => True) (reconcile true bridgedTopology) handedBatch.1.2
      handedBatch.2 laterPass.1.1 laterPass.1.2 laterPass.2 := by
    unfold laterPass
    exact Shelf.serves_runs ..
  cases ended : laterPass.1.1 with
  | error errno =>
      rw [ended] at told
      obtain ⟨_, listed, _⟩ := told
      cases listed
  | ok reports =>
      rw [ended] at told ran
      exact ⟨reports, told, ran⟩

/-- Every quiet address has a line of its port and its very stamp, and no line of another is
older. -/
def TellsStamps (passAt : Nat) (text : Option Text) (ports : PortMap) : Prop :=
  ∀ mac index seen, ports.lookup mac = some (index, seen) → seen < passAt →
    (∃ line ∈ onFile text, line.mac = mac ∧ line.index = index ∧ line.seen = seen) ∧
    ∀ other port heard, ports.lookup other = some (port, heard) → passAt ≤ heard →
      ∀ line ∈ onFile text, line.mac = other → seen ≤ line.seen

end Missed

end SriovMacSync
