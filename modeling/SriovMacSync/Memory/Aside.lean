import SriovMacSync.Growth.BatchAdditions
import SriovMacSync.Memory.Files
import SriovMacSync.Pressure.Shedding

namespace SriovMacSync

open Data Netlink Interaction Interaction.Action

/-! # One uplink's turn beside another's

What a process does about one device leaves what it remembers of another, that one's
drawer and its filter alone. -/

variable {legible sure : Name → Prop} {shelf : Shelf} {syncer : Syncer} {dev : Name} {index : Index}
  {topo : Topology} {devs : Set Name} {filters : Set (Index × Bool)}

/-- Nothing is being done under a device's lock. -/
def Shelf.Away (shelf : Shelf) (dev : Name) : Prop := ∀ work, shelf.held ≠ some (dev, work)

/-- A device's drawer and a filter are as they were. -/
structure Shelf.Beside (dev : Name) (index : Index) (before after : Shelf) : Prop where
  drawer : after.drawer dev = before.drawer dev
  list : after.lists index = before.lists index
  fdb : after.fdb = before.fdb
  away : after.Away dev

theorem Shelf.Beside.refl (away : shelf.Away dev) : Shelf.Beside dev index shelf shelf :=
  ⟨rfl, rfl, rfl, away⟩

theorem Shelf.Beside.trans {first second third : Shelf} (one : Shelf.Beside dev index first second)
    (two : Shelf.Beside dev index second third) : Shelf.Beside dev index first third :=
  ⟨two.drawer.trans one.drawer, two.list.trans one.list, two.fdb.trans one.fdb, two.away⟩

/-- What is remembered about a device is as it was. -/
structure Syncer.Beside (dev : Name) (before after : Syncer) : Prop where
  settings : after.toSettings = before.toSettings
  stock : after.stock dev = before.stock dev
  loaded : dev ∈ after.portsLoaded ↔ dev ∈ before.portsLoaded
  written : after.portsWritten dev = before.portsWritten dev

namespace Syncer.Beside

theorem refl (syncer : Syncer) : Syncer.Beside dev syncer syncer := ⟨rfl, rfl, Iff.rfl, rfl⟩

theorem trans {first second third : Syncer} (one : Syncer.Beside dev first second)
    (two : Syncer.Beside dev second third) : Syncer.Beside dev first third :=
  ⟨two.settings.trans one.settings, two.stock.trans one.stock, two.loaded.trans one.loaded,
    two.written.trans one.written⟩

theorem bind {allowed : Call → Prop} {α β : Type} {first : Sync α} {rest : α → Sync β} {before : Syncer}
    (left : Within allowed first (fun _ after => Syncer.Beside dev before after) before)
    (right : ∀ value middle,
      Within allowed (rest value) (fun _ after => Syncer.Beside dev middle after) middle) :
    Within allowed (first >>= rest) (fun _ after => Syncer.Beside dev before after) before :=
  left.bind fun value middle one => (right value middle).imp fun _ _ two => one.trans two

theorem of_noteMarks {after : Syncer} (marks : NoteMarks devs syncer after) :
    Syncer.Beside dev syncer after := by
  obtain ⟨_, _, _, rfl⟩ := marks
  exact ⟨rfl, rfl, Iff.rfl, rfl⟩

theorem carried {after : Syncer} (beside : Syncer.Beside dev syncer after) :
    after.carried dev = syncer.carried dev := (Prod.mk.inj beside.stock).1

theorem carriedPorts {after : Syncer} (beside : Syncer.Beside dev syncer after) :
    after.carriedPorts dev = syncer.carriedPorts dev := (Prod.mk.inj beside.stock).2

variable {other : Name} (apart : dev ≠ other)

include apart

theorem setCarried {carried : Option Carried} :
    Syncer.Beside dev syncer (syncer.setCarried other carried) := by
  refine ⟨rfl, ?_, Iff.rfl, rfl⟩
  simp [Syncer.stock, Syncer.setCarried, apart]

theorem setPorts {ports : Option PortMap} :
    Syncer.Beside dev syncer (syncer.setPorts other ports) := by
  refine ⟨rfl, ?_, Iff.rfl, rfl⟩
  simp [Syncer.stock, Syncer.setPorts, apart]

theorem setPortsWritten {written : Option (List Text)} :
    Syncer.Beside dev syncer (syncer.setPortsWritten other written) := by
  refine ⟨rfl, rfl, Iff.rfl, ?_⟩
  simp [Syncer.setPortsWritten, apart]

theorem dropPorts {macs : List Mac} : Syncer.Beside dev syncer (syncer.dropPorts other macs) := by
  unfold Syncer.dropPorts
  split
  · exact setPorts apart
  · exact refl syncer

theorem noLongerKept {macs : List Mac} : Syncer.Beside dev syncer (syncer.noLongerKept other macs) := by
  unfold Syncer.noLongerKept
  split
  · exact setCarried apart
  · exact refl syncer

theorem freeSlots {count : Nat} : Syncer.Beside dev syncer (syncer.freeSlots other count) := by
  unfold Syncer.freeSlots
  split
  · exact setCarried apart
  · exact refl syncer

end Syncer.Beside

section Frame

/-- What is not about a device, and writes into another filter, leaves both alone. -/
theorem beside_of_elsewhere {request : Call} {reply : Reply request} {after : Shelf}
    (scope : InScope devs filters request) (apart : dev ∉ devs) (unshared : ∀ add, (index, add) ∉ filters)
    (away : shelf.Away dev) (answered : (shelving legible sure).answers shelf request reply after) :
    Shelf.Beside dev index shelf after := by
  have ⟨drawer, away', fdb⟩ := drawer_of_elsewhere scope apart away answered
  refine ⟨drawer, ?_, fdb, away'⟩
  cases request with
  | setSelfFdb place mac add =>
      obtain ⟨list, -, rfl⟩ := answered
      have other : index ≠ place := by
        intro same
        subst same
        exact unshared add (scope.2.1 _ rfl)
      unfold Shelf.does
      split <;> simp [Shelf.setDrawer, other]
  | dumpFdb => rw [answered.1]
  | bootMillis =>
      obtain ⟨-, later, -, rfl⟩ := answered
      rfl
  | lock named work =>
      obtain rfl : after = _ := answered
      rfl
  | unlock named =>
      obtain rfl : after = _ := answered
      rfl
  | readNote named => cases reply <;> rw [answered.1]
  | putNote named macs => rcases answered with ⟨-, rfl⟩ | ⟨-, -, rfl⟩ <;> rfl
  | appendNote named macs => rcases answered with ⟨-, rfl⟩ | ⟨-, -, part, -, rfl⟩ <;> rfl
  | removeNote named => rcases answered with rfl | ⟨-, rfl⟩ <;> rfl
  | readIndex named => rw [answered.1]
  | putIndex named place => rcases answered with ⟨-, rfl⟩ | ⟨-, -, rfl⟩ <;> rfl
  | removeIndex named => rcases answered with rfl | ⟨-, rfl⟩ <;> rfl
  | readPorts named => rw [answered.1]
  | portsExist named => rw [answered.1]
  | putPorts named text =>
      replace answered : if _ then _ else _ := answered
      split at answered <;> obtain ⟨-, rfl⟩ := answered <;> rfl
  | removePorts named =>
      replace answered : if _ then _ else _ := answered
      split at answered <;> obtain ⟨-, rfl⟩ := answered <;> rfl
  | _ =>
      obtain rfl : after = shelf := answered
      rfl

theorem aside_shelf {α : Type} {action : Sync α} {post : α → Syncer → Prop}
    (within : Within (InScope devs filters) action post syncer) (apart : dev ∉ devs)
    (unshared : ∀ add, (index, add) ∉ filters) (away : shelf.Away dev) :
    Safe (shelving legible sure) action
      (fun value after shelf' => post value after ∧ Shelf.Beside dev index shelf shelf') syncer shelf := by
  refine within.frame (fun middle request beside scope => ⟨trivial, fun reply after answered => ?_⟩)
    (.refl away)
  exact beside.trans (beside_of_elsewhere scope apart unshared beside.away answered)

end Frame

section Batch

variable {other : Name} (apart : dev ≠ other)

include apart

theorem savePorts_beside {passAt : Nat} (member : other ∈ devs) :
    Within (InScope devs filters) (savePorts other topo passAt)
      (fun _ after => Syncer.Beside dev syncer after) syncer := by
  refine within_get ?_
  split
  · exact within_pure.mpr (.refl _)
  · refine Within.bind (locked_within member (Within.bind (memoHolds_within member) ?_ :
      Within _ _ (fun _ after => after = syncer) _)) ?_
    · intro held after same
      subst same
      split
      · exact within_pure.mpr rfl
      · refine (replacePorts_within member).bind ?_
        intro wrote after same
        exact within_pure.mpr same
    · intro wrote after same
      subst same
      split
      · exact within_pure.mpr (.refl _)
      · exact within_modify (.setPortsWritten apart)

theorem forgetReflected_beside {ours : List Mac} {freed : Nat} (member : other ∈ devs) :
    Within (InScope devs filters) (forgetReflected topo other ours freed)
      (fun _ after => Syncer.Beside dev syncer after) syncer := by
  rw [forgetReflected]
  split
  · refine Syncer.Beside.bind (within_modify ?_) fun _ middle => ?_
    · exact ((Syncer.Beside.dropPorts apart).trans (.noLongerKept apart)).trans (.freeSlots apart)
    · exact within_get (savePorts_beside apart member)
  · exact within_pure.mpr (.refl _)

theorem shedKeeps_beside {need : Nat} {onCard : Finset Mac} (member : other ∈ devs)
    (filter : (index, false) ∈ filters) :
    Within (InScope devs filters) (shedKeeps other index need topo onCard)
      (fun _ after => Syncer.Beside dev syncer after) syncer := by
  refine Syncer.Beside.bind ((loadOwned_within member).imp fun _ _ marks => .of_noteMarks marks)
    fun _ middle => ?_
  refine Syncer.Beside.bind (noteIsReadable_within.imp fun _ _ marks =>
    @Syncer.Beside.of_noteMarks _ _ ∅ _ marks) fun readable middle => ?_
  split
  · refine within_get ?_
    split
    · dsimp only
      split
      · exact within_pure.mpr (.refl _)
      · refine Syncer.Beside.bind ((retire_within member filter).imp fun _ _ marks =>
          .of_noteMarks marks) fun retired middle => ?_
        split
        · exact within_pure.mpr (.refl _)
        · refine Syncer.Beside.bind (within_modify (.dropPorts apart)) fun _ middle => ?_
          refine Syncer.Beside.bind (savePorts_beside apart member) fun _ middle => ?_
          refine Syncer.Beside.bind (within_modify (.noLongerKept apart)) fun _ middle => ?_
          exact Syncer.Beside.bind (within_ask.mpr ⟨inScope_idle rfl rfl, fun _ => .refl _⟩)
            fun _ middle => within_pure.mpr (.refl _)
    · exact within_pure.mpr (.refl _)
  · exact within_pure.mpr (.refl _)

end Batch

section Turns

variable {fp : FastPair} (apart : dev ≠ fp.dev)

include apart

theorem reflectPair_beside {seen : Finset Mac} :
    Within (InScope {fp.dev} {(fp.anat.dev, true), (fp.anat.dev, false)}) (reflectPair topo seen fp)
      (fun _ after => Syncer.Beside dev syncer after) syncer := by
  have member : fp.dev ∈ ({fp.dev} : Set Name) := rfl
  rw [reflectPair]
  split
  · exact within_pure.mpr (.refl _)
  · have look {before : Syncer} : Within (InScope {fp.dev} {(fp.anat.dev, true), (fp.anat.dev, false)})
        (loadOwned fp.dev) (fun _ after => Syncer.Beside dev before after) before :=
      (loadOwned_within member).imp fun _ _ marks => .of_noteMarks marks
    refine Syncer.Beside.bind look fun known middle => ?_
    split
    · exact within_pure.mpr (.refl _)
    · refine Syncer.Beside.bind look fun owned middle => ?_
      refine Syncer.Beside.bind (within_ask.mpr ⟨inScope_idle rfl rfl, fun _ => .refl _⟩)
        fun order middle => ?_
      refine Syncer.Beside.bind ((retire_within member (by simp)).imp
        fun _ _ marks => .of_noteMarks marks) fun retired middle => ?_
      refine Syncer.Beside.bind (forgetReflected_beside apart member) fun _ middle => ?_
      refine Syncer.Beside.bind ?_ fun _ middle => within_pure.mpr (.refl _)
      rw [rememberWire]
      split
      · exact within_modify (.setCarried apart)
      · exact within_pure.mpr (.refl _)

theorem registerLearns_beside {learns : List (Mac × Index)} {cache : ReadBack} :
    Within (InScope {fp.dev} {(fp.anat.dev, true), (fp.anat.dev, false)})
      (registerLearns topo fp learns cache) (fun _ after => Syncer.Beside dev syncer after) syncer := by
  have member : fp.dev ∈ ({fp.dev} : Set Name) := rfl
  refine within_ask_bind (inScope_idle rfl rfl) fun now => ?_
  refine Syncer.Beside.bind (within_modify ?_) fun _ middle => ?_
  · split
    · exact .setPorts apart
    · exact .refl _
  refine Within.bind readBack_within ?_
  intro answer after same
  subst same
  split
  · exact within_pure.mpr (.refl _)
  · refine within_get ?_
    refine Syncer.Beside.bind ?_ fun freed middle => ?_
    · rw [makeRoom]
      split
      · exact shedKeeps_beside apart member (by simp)
      · exact within_pure.mpr (.refl _)
    refine Syncer.Beside.bind ((@noteIndex_within _ _ _ _ member _ true (by simp)).imp
      fun _ _ marks => .of_noteMarks marks) fun _ middle => ?_
    refine Syncer.Beside.bind ?_ fun put middle => ?_
    · rw [registerCounted]
      refine Syncer.Beside.bind ((registerBatchLocked_within member (by simp)).imp
        fun _ _ marks => .of_noteMarks marks) fun registered middle => ?_
      split <;> exact within_pure.mpr (.refl _)
    · exact Syncer.Beside.bind (within_modify (.setCarried apart)) fun _ middle =>
        within_pure.mpr (.refl _)

variable (other : index ≠ fp.anat.dev) (away : shelf.Away dev)

include other away

theorem reflectPair_aside {seen : Finset Mac} :
    Safe (shelving legible sure) (reflectPair topo seen fp) (fun _ after shelf' =>
      Syncer.Beside dev syncer after ∧ Shelf.Beside dev index shelf shelf') syncer shelf :=
  aside_shelf (reflectPair_beside apart) (by simpa using apart) (by simp [other]) away

theorem registerLearns_aside {learns : List (Mac × Index)} {cache : ReadBack} :
    Safe (shelving legible sure) (registerLearns topo fp learns cache) (fun _ after shelf' =>
      Syncer.Beside dev syncer after ∧ Shelf.Beside dev index shelf shelf') syncer shelf :=
  aside_shelf (registerLearns_beside apart) (by simpa using apart) (by simp [other]) away

end Turns

end SriovMacSync
