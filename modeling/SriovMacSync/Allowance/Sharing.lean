import SriovMacSync.Interaction.Execution
import SriovMacSync.Sync.Spares
import SriovMacSync.Topology.Stacking

namespace SriovMacSync

open Data Netlink Interaction Interaction.Action

/-! # Uplinks that share a filter

Every filter write goes through.  Nothing is assumed of the rest: notes, records,
clocks and the driver answer as they like, only that a note is there or not to be
read is settled beforehand. -/

/-- The unicast filters, by what each interface was given itself, and which of the
readings of each note to come will go well. -/
structure Filters where
  own : Index → Finset Mac
  legible : Name → Nat → Bool

namespace Filters

variable (filters : Filters)

def give (index : Index) (mac : Mac) : Filters :=
  { filters with own := Function.update filters.own index (insert mac (filters.own index)) }

def drop (index : Index) (mac : Mac) : Filters :=
  { filters with own := Function.update filters.own index (filters.own index \ {mac}) }

@[simp] theorem give_own {index : Index} {mac : Mac} : (filters.give index mac).own =
    Function.update filters.own index (insert mac (filters.own index)) := rfl

@[simp] theorem drop_own {index : Index} {mac : Mac} : (filters.drop index mac).own =
    Function.update filters.own index (filters.own index \ {mac}) := rfl

/-- One reading of a note is over. -/
def read (dev : Name) : Filters :=
  { filters with
    legible := Function.update filters.legible dev fun count => filters.legible dev (count + 1) }

/-- The card refuses what its list already has, whoever put it there. -/
def Writes (topo : Topology) (index : Index) (mac : Mac) :
    Bool → Except Errno Unit → Filters → Prop
  | true, reply, after =>
      if mac ∈ topo.held filters.own index then reply = .error .exists ∧ after = filters
      else reply = .ok () ∧ after = filters.give index mac
  | false, reply, after =>
      (reply = if mac ∈ topo.held filters.own index then .ok () else .error .noEntry) ∧
        after = filters.drop index mac

def Answers (topo : Topology) : (request : Call) → Reply request → Filters → Prop
  | .dumpFdb, reply, after =>
      after = filters ∧ ∀ fdb, reply = .ok fdb → ∀ index, selfList fdb index = topo.held filters.own index
  | .setSelfFdb index mac add, reply, after => filters.Writes topo index mac add reply after
  | .readNote dev, reading, after =>
      after = filters.read dev ∧ NoteReading.isReadable reading = filters.legible dev 0
  | .appendNote .., written, after => after = filters ∧ written = true
  | .putNote .., written, after => after = filters ∧ written = true
  | _, _, after => after = filters

end Filters

/-- A host on which every write succeeds, its interfaces as `topo` has them. -/
def sharing (topo : Topology) : Environment Call Reply Filters where
  permits _ _ := True
  answers filters := filters.Answers topo

variable {topo : Topology} {filters : Filters} {syncer : Syncer} {dev : Name} {index : Index}

section Frame

theorem own_of_spares {request : Call} {reply : Reply request} {after : Filters}
    (spares : request.SparesFilters) (answered : (sharing topo).answers filters request reply after) :
    after.own = filters.own := by
  cases request with
  | setSelfFdb index mac add => cases spares
  | dumpFdb => rw [(answered : _ ∧ _).1]
  | readNote dev => rw [(answered : _ ∧ _).1]; rfl
  | appendNote dev macs => rw [(answered : _ ∧ _).1]
  | putNote dev macs => rw [(answered : _ ∧ _).1]
  | _ => rw [(answered : after = filters)]

/-- What writes to no filter leaves the filters as they are. -/
theorem sparing_safe {α : Type} {action : Sync α} (spares : Asks Call.SparesFilters action) :
    Safe (sharing topo) action (fun _ _ after => after.own = filters.own) syncer filters := by
  have keeps (world : Filters) (request : Call) (kept : world.own = filters.own)
      (allowed : request.SparesFilters) : (sharing topo).permits world request ∧
        ∀ reply after, (sharing topo).answers world request reply after →
          after.own = filters.own :=
    ⟨trivial, fun reply after answered => (own_of_spares allowed answered).trans kept⟩
  exact ((spares syncer).frame keeps rfl).mono fun _ _ _ kept => kept.2

theorem always_safe {α : Type} {action : Sync α} :
    Safe (sharing topo) action (fun _ _ _ => True) syncer filters :=
  Program.safe_of_kept (fun _ _ _ => ⟨trivial, fun _ _ _ => trivial⟩) trivial

theorem own_of_runs {α : Type} {action : Sync α} {value : α} {after : Syncer}
    {filters' : Filters} (spares : Asks Call.SparesFilters action)
    (ran : Runs (sharing topo) action syncer filters value after filters') :
    filters'.own = filters.own :=
  (sparing_safe spares).runs ran

end Frame

section Writes

theorem held_give {mac : Mac} :
    topo.held (filters.give index mac).own index = insert mac (topo.held filters.own index) := by
  ext other
  rw [Finset.mem_insert, Topology.mem_held, Topology.mem_held]
  constructor
  · rintro ⟨place, passes, given⟩
    rw [Filters.give_own] at given
    by_cases same : place = index
    · subst same
      rw [Function.update_self, Finset.mem_insert] at given
      exact given.imp id fun given => ⟨place, passes, given⟩
    · rw [Function.update_of_ne same] at given
      exact .inr ⟨place, passes, given⟩
  · rintro (rfl | ⟨place, passes, given⟩)
    · exact ⟨index, Topology.self_mem_filterChain, by simp⟩
    · refine ⟨place, passes, ?_⟩
      rw [Filters.give_own]
      by_cases same : place = index
      · subst same
        simp [given]
      · rwa [Function.update_of_ne same]

/-- What an interface was given after a row of additions. -/
def Filters.given (filters : Filters) (topo : Topology) (index : Index) (macs : Finset Mac) :
    Index → Finset Mac :=
  Function.update filters.own index
    (filters.own index ∪ (macs \ topo.held filters.own index))

theorem setEach_gives {macs : List Mac} :
    Safe (sharing topo) (setEach index true macs) (fun answers _ after =>
      after.own = filters.given topo index macs.toFinset ∧ answers.map (·.1) = macs)
      syncer filters := by
  induction macs generalizing filters with
  | nil => exact ⟨by simp [Filters.given], rfl⟩
  | cons mac rest ih =>
      simp only [setEach, safe_bind, safe_ask, safe_pure]
      refine ⟨trivial, fun reply after answered => ih.mono ?_⟩
      rintro answers _ last ⟨gave, asked⟩
      refine ⟨gave.trans ?_, by rw [List.map_cons, asked]⟩
      replace answered : filters.Writes topo index mac true reply after := answered
      rw [Filters.Writes] at answered
      split at answered
      · rename_i present
        obtain ⟨-, rfl⟩ := answered
        rw [Filters.given, Filters.given, List.toFinset_cons, Finset.insert_sdiff_of_mem _ present]
      · rename_i absent
        obtain ⟨-, rfl⟩ := answered
        rw [Filters.given, Filters.given, held_give, List.toFinset_cons,
          Finset.insert_sdiff_of_notMem _ absent, Filters.give_own, Function.update_self,
          Function.update_idem]
        congr 1
        ext other
        by_cases same : other = mac <;> simp [same]

theorem setEach_drops {macs : List Mac} :
    Safe (sharing topo) (setEach index false macs) (fun _ _ after =>
      after.own = Function.update filters.own index (filters.own index \ macs.toFinset))
      syncer filters := by
  induction macs generalizing filters with
  | nil => simp [setEach]
  | cons mac rest ih =>
      simp only [setEach, safe_bind, safe_ask, safe_pure]
      refine ⟨trivial, fun reply after answered => ih.mono ?_⟩
      rintro answers _ last dropped
      obtain ⟨-, rfl⟩ : _ ∧ after = filters.drop index mac := answered
      rw [dropped, Filters.drop_own, Function.update_self, Function.update_idem, sdiff_sdiff_left,
        List.toFinset_cons, Finset.insert_eq]
      rfl

end Writes

end SriovMacSync
