import SriovMacSync.Growth.BatchAdditions
import SriovMacSync.World.Host

namespace SriovMacSync

open Data Netlink Interaction Interaction.Action

/-! # No filter grows on a carried driver answer -/

/-- The address is outside the exclusions of the uplink with this index, by an
answer that was given in this history as far as the uplink's functions go. -/
def Vetted (syncer : Syncer) (topo : Topology) (past : History) (index : Index) (mac : Mac) :
    Prop :=
  ∃ pair ∈ syncer.pairs, ∃ bridge anat vfMacs, topo.indexOf pair.dev = some index ∧
    topo.indexOf pair.bridge = some bridge ∧ topo.anatomy index bridge = some anat ∧
    AnsweredNow past anat.functions vfMacs ∧ mac ∉ syncer.exclusions topo anat vfMacs

/-- The address was read on the note of the uplink with this index and in its own
list. -/
def PutBack (topo : Topology) (past : History) (index : Index) (mac : Mac) : Prop :=
  ∃ dev, topo.indexOf dev = some index ∧ HeldNow past dev index mac

theorem Vetted.later {syncer : Syncer} {topo : Topology} {past later : History} {index : Index}
    {mac : Mac} (vetted : Vetted syncer topo past index mac) (held : past <+: later) :
    Vetted syncer topo later index mac := by
  obtain ⟨pair, known, bridge, anat, vfMacs, located, above, found, now, outside⟩ := vetted
  exact ⟨pair, known, bridge, anat, vfMacs, located, above, found, now.later held, outside⟩

def vettedRule (syncer : Syncer) (topo : Topology) : AddRule where
  allows past index mac := Vetted syncer topo past index mac
  grows held vetted := vetted.later held

def vettedOrBackRule (syncer : Syncer) (topo : Topology) : AddRule where
  allows past index mac := Vetted syncer topo past index mac ∨ PutBack topo past index mac
  grows held := by
    rintro (vetted | ⟨dev, located, back⟩)
    · exact .inl (vetted.later held)
    · exact .inr ⟨dev, located, back.later held⟩

theorem vettedRule_coversPass {syncer : Syncer} {reading : Reading}
    (pfs : reading.pfs = reading.topo.livePfs (syncer.pairs.map (·.dev))) :
    (vettedRule syncer reading.topo).CoversPass syncer.toSettings reading := by
  intro pair known index bridge anat located above found now owned vfMacs past mac settings
    happened wanted
  refine ⟨pair, known, bridge, anat, vfMacs, located, above, found,
    ⟨reading.pfs, vfMacs, happened, ?_, fun _ _ => Iff.rfl⟩, ?_⟩
  · intro pf function
    rw [Topology.anatomy_functions found] at function
    rw [pfs]
    exact Topology.mem_livePfs.mpr ⟨pair.dev, List.mem_map_of_mem known, index, located, function⟩
  · rw [← exclusions_congr (congrArg Settings.exclude settings)]
    exact (mem_wanted wanted).1

theorem vettedOrBackRule_coversBatch {syncer : Syncer} {topo : Topology} {events : List Event} :
    (vettedOrBackRule syncer topo).CoversBatch syncer topo events := by
  rintro fp fits mac past vfMacs - - ⟨outside, answered | held⟩
  · obtain ⟨pair, known, index, bridge, named, located, above, found⟩ := fits
    have sameIndex := Topology.anatomy_dev found
    refine .inl ⟨pair, known, bridge, fp.anat, vfMacs, ?_, above, ?_, answered, outside⟩
    · rw [named, located, sameIndex]
    · rw [sameIndex]
      exact found
  · exact .inr ⟨fp.dev, fits.indexOf, held⟩

/-- Every addition of a pass, and every addition of a batch that does not put a
noted entry back where it was read, is of an address outside the exclusions by an
answer the driver gave during that very pass or batch. -/
theorem additions_are_vetted (syncer : Syncer) (topo : Topology) (past : History) (index : Index)
    (mac : Mac) :
    (∀ apply, (reconcile apply topo syncer).Issues past (.setSelfFdb index mac true) →
      Vetted syncer topo past index mac) ∧
    ∀ events, (fastApply topo events syncer).Issues past (.setSelfFdb index mac true) →
      Vetted syncer topo past index mac ∨ PutBack topo past index mac := by
  constructor
  · intro apply issued
    have safe : Safe ((vettedRule syncer topo).env fun _ => True) (reconcile apply topo)
        (fun _ after later => Continues syncer.toSettings [] after later) syncer [] :=
      reconcile_safe fun fdb passAt _ => vettedRule_coversPass rfl
    exact Program.Safe.issues safe issued (fun _ _ => trivial) index mac rfl
  · intro events issued
    have safe : Safe ((vettedOrBackRule syncer topo).env fun _ => True) (fastApply topo events)
        (fun _ after later => GoesOn syncer [] after later) syncer [] :=
      fastApply_safe vettedOrBackRule_coversBatch
    exact Program.Safe.issues safe issued (fun _ _ => trivial) index mac rfl

set_option maxRecDepth 10000 in
theorem additions_are_vetted_bridged : ∃ past : History,
    (reconcile true bridgedTopology bridgedSyncer).Issues past (.setSelfFdb 2 guest true) ∧
    Vetted bridgedSyncer bridgedTopology past 2 guest := by
  have issued : (reconcile true bridgedTopology bridgedSyncer).Issues _ (.setSelfFdb 2 guest true) :=
    Program.replayUntil_issues Host.answer Call.adds _ bridgedHost (by decide)
  exact ⟨_, issued, (additions_are_vetted bridgedSyncer bridgedTopology _ 2 guest).1 true issued⟩

end SriovMacSync
