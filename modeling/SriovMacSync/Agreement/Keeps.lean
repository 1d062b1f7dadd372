import SriovMacSync.Sync.Decide
import SriovMacSync.Topology.Walks

namespace SriovMacSync

open Data Netlink

/-! # What a keep and a learn make of one port

A keep asks where the remembered port leads; a learn asks how the bridge's own port is
to be read.  Between the two lie the masters the remembered port has come under. -/

/-- The port an owned address was last learnt on, as the uplink's memory has it. -/
def Syncer.rememberedPort (syncer : Syncer) (topo : Topology) (anat : Anatomy) (mac : Mac) :
    Option Index :=
  ((topo.nameOf anat.dev).bind syncer.carriedPorts).bind fun ports =>
    (ports.lookup mac).map (·.1)

variable {syncer : Syncer} {topo : Topology} {anat : Anatomy} {mac : Mac}

/-- Exactly these owned addresses are kept. -/
theorem mem_quietSurvivors_iff {reach : Reach} {skip want wire owned : Finset Mac} :
    mac ∈ syncer.quietSurvivors topo anat reach skip want wire owned ↔
      (mac ∈ owned ∧ mac ∉ want ∧ mac ∉ wire ∧ mac ∉ skip ∧ mac.isRegisterable = true) ∧
        ∃ port, syncer.rememberedPort topo anat mac = some port ∧
          Syncer.portLives topo anat reach port = true := by
  rw [Syncer.quietSurvivors, Syncer.rememberedPort]
  cases topo.nameOf anat.dev with
  | none => simp
  | some name =>
      cases known : syncer.carriedPorts name with
      | none => simp [known]
      | some ports => simp [known, Finset.mem_filter, and_assoc]

theorem portLives_iff {reach : Reach} {port : Index} :
    Syncer.portLives topo anat reach port = true ↔
      port ∉ Syncer.wireward topo anat ∧
        ∃ above enters, topo.bridgeAbove port = some (above, enters) ∧
          reach.reaches above = true := by
  rw [Syncer.portLives]
  cases topo.bridgeAbove port with
  | none => simp
  | some found =>
      obtain ⟨above, enters⟩ := found
      simp

/-- What enters a bridge of the reach through a port that is not the uplink's own is
behind it, unless the port itself stands above the bridge. -/
theorem classify_behind_iff {above enters port : Index} {reach : Reach}
    (reaches : reach.reaches above = true) (apart : above = reach.bridge → enters ≠ port) :
    reach.classify enters above port = .behind ↔
      (above ≠ reach.bridge → enters ∉ reach.uplinkWard) := by
  rw [Reach.reaches, Bool.or_eq_true, beq_iff_eq, List.contains_eq_mem, decide_eq_true_eq]
    at reaches
  rw [Reach.classify]
  by_cases own : above = reach.bridge
  · rw [if_pos own, if_neg (apart own)]
    exact ⟨fun _ foreign => absurd own foreign, fun _ => rfl⟩
  · rw [if_neg own]
    have stacked := reaches.resolve_left own
    by_cases facing : enters ∈ reach.uplinkWard
    · simp [facing, own]
    · simp [facing, stacked]

/-- What is remembered on the cable's side of the uplink port is not kept. -/
theorem enters_ne_port (mirrors : topo.Mirrors) {port above enters : Index}
    (apart : port ∉ Syncer.wireward topo anat)
    (found : topo.bridgeAbove port = some (above, enters)) : enters ≠ anat.port := by
  rintro rfl
  exact apart (Finset.mem_union_left _ (Topology.mem_subtreeOf_of_bridgeAbove mirrors found))

/-- A function of the uplink's card and a guest's port, both under one bond. -/
def bondedTopology : Topology where
  links := [
    { name := "pf0", index := 1, numvfs := 2, vfNetdevs := [2, 3] },
    { name := "vfa", index := 2, master := some 10, pfNetdevs := [1] },
    { name := "vfb", index := 3, master := some 6, pfNetdevs := [1] },
    { name := "tap1", index := 4, master := some 6 },
    { name := "bond1", index := 6, master := some 10, lowers := [3, 4] },
    { name := "br0", index := 10, isBridge := true, lowers := [2, 6] }]
  distinct := by decide

theorem bonded_mirrors : bondedTopology.Mirrors := by
  have checked : (bondedTopology.links.all fun link => link.master.all fun master =>
      decide (link.index ∈ bondedTopology.lowersOf master)) = true := by
    decide +kernel
  intro link listed master known _
  have under := List.all_eq_true.mp checked link listed
  rw [known] at under
  exact of_decide_eq_true under

def bondedAnatomy : Anatomy := ⟨2, 10, 2, 2, [1], [6]⟩

/-- An address last learnt on the guest's port, before that came under the bond. -/
def bondedGuest : Mac := ⟨2, 0, 0, 0, 0, 1⟩

def bondedSyncer : Syncer where
  pairs := [⟨"vfa", "br0"⟩]
  carriedPorts dev := if dev = "vfa" then some (AList.singleton bondedGuest (4, 7)) else none

theorem bonded_anatomy : bondedTopology.anatomy 2 10 = some bondedAnatomy := by
  decide +kernel

end SriovMacSync
