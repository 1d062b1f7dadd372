import SriovMacSync.Topology.Graph

namespace SriovMacSync

open Data Netlink

/-! What one bridge and one uplink make of a reading: which learns face the
wire, which are guests, and which cards stand behind the uplink. -/

/-- What a learnt address is to a pair. -/
inductive Learn where
  /-- on the uplink port itself: a peer out on the wire -/
  | wire
  /-- behind the bridge, or behind a bridge stacked on it: wanted -/
  | behind
  /-- somebody else's bridge, or an uplink-ward interface -/
  | notOurs
deriving DecidableEq, Repr

/-- What a learn means to one bridge, worked out once per bridge. -/
structure Reach where
  bridge : Index
  uplinkWard : Finset Index
  stackedBridges : List Index

namespace Reach

/-- A learn of `ifindex` recorded by bridge `master`, seen from the pair whose
uplink enters through `port`. -/
def classify (reach : Reach) (ifindex master port : Index) : Learn :=
  if master = reach.bridge then
    if ifindex = port then .wire else .behind
  else if master ∈ reach.stackedBridges ∧ ifindex ∉ reach.uplinkWard then .behind
  else .notOurs

/-- Whether a bridge's ports count as behind this one. -/
def reaches (reach : Reach) (bridge : Index) : Bool :=
  bridge == reach.bridge || reach.stackedBridges.contains bridge

end Reach

structure Anatomy where
  dev : Index
  bridge : Index
  /-- where the wire comes in -/
  port : Index
  /-- the interface holding the filter the capacity is measured on -/
  card : Index
  /-- the physical functions whose virtual functions' addresses stay out -/
  functions : List Index
  /-- other ports under this bridge that face the same cable -/
  siblings : List Index
deriving DecidableEq, Repr

namespace Topology

variable (topo : Topology)

def reach (bridge : Index) : Reach :=
  let uplinkWard := topo.stackedAbove bridge
  { bridge
    uplinkWard
    stackedBridges :=
      (topo.bridges.filter fun link =>
        link.index ≠ bridge ∧ ∃ lower ∈ link.lowers, lower ∈ uplinkWard).map (·.index) }

def siblings (dev bridge port : Index) (functions : List Index) : List Index :=
  let reach := topo.reach bridge
  ((topo.links.filter fun link =>
      link.index ≠ port ∧ link.index ≠ dev ∧
        (∃ master ∈ link.master, master = bridge ∨ master ∈ reach.stackedBridges) ∧
        ∃ function ∈ topo.physicalFunctions (topo.filterCarrier link.index),
          function ∈ functions).map (·.index)).insertionSort (· ≤ ·)

/-- What a pair is made of, or nothing while the device is not under the
bridge. -/
def anatomy (dev bridge : Index) : Option Anatomy :=
  (topo.uplinkPort dev bridge).map fun port =>
    let card := topo.filterCarrier dev
    let functions := topo.physicalFunctions card
    { dev, bridge, port, card, functions
      siblings := topo.siblings dev bridge port functions }

/-- The physical functions behind these uplinks, alive in this reading. -/
def livePfs (devs : List Name) : List Index :=
  devs.foldl (fun pfs dev =>
    match topo.indexOf dev with
    | some index =>
        (topo.physicalFunctions (topo.filterCarrier index)).foldl
          (fun pfs pf => if pf ∈ pfs then pfs else pfs ++ [pf]) pfs
    | none => pfs) []

variable {topo}

theorem anatomy_dev {dev bridge : Index} {anatomy : Anatomy}
    (found : topo.anatomy dev bridge = some anatomy) : anatomy.dev = dev := by
  obtain ⟨port, -, rfl⟩ := Option.map_eq_some_iff.mp found
  rfl

theorem anatomy_bridge {dev bridge : Index} {anatomy : Anatomy}
    (found : topo.anatomy dev bridge = some anatomy) : anatomy.bridge = bridge := by
  obtain ⟨port, -, rfl⟩ := Option.map_eq_some_iff.mp found
  rfl

theorem anatomy_functions {dev bridge : Index} {anatomy : Anatomy}
    (found : topo.anatomy dev bridge = some anatomy) :
    anatomy.functions = topo.physicalFunctions (topo.filterCarrier dev) := by
  obtain ⟨port, -, rfl⟩ := Option.map_eq_some_iff.mp found
  rfl

private theorem bridgeAboveFrom_enters {fuel : Nat} {current bridge port : Index}
    {seen : Finset Index} (found : topo.bridgeAboveFrom fuel current seen = some (bridge, port)) :
    (topo.linkAt port).bind (·.master) = some bridge := by
  induction fuel generalizing current seen with
  | zero => cases found
  | succ fuel ih =>
      rw [bridgeAboveFrom] at found
      split at found
      · cases found
      · split at found
        · cases found
        · split at found
          · cases found
            assumption
          · exact ih found

/-- The port of a pair is enslaved to its bridge. -/
theorem master_port {dev bridge : Index} {anatomy : Anatomy}
    (found : topo.anatomy dev bridge = some anatomy) :
    (topo.linkAt anatomy.port).bind (·.master) = some anatomy.bridge := by
  obtain ⟨port, enters, rfl⟩ := Option.map_eq_some_iff.mp found
  rw [uplinkPort] at enters
  split at enters
  · rename_i above port' walked
    split at enters
    · rename_i same
      cases enters
      exact same ▸ bridgeAboveFrom_enters walked
    · cases enters
  · cases enters

private theorem bridgeAboveFrom_known {fuel : Nat} {current bridge port : Index}
    {seen : Finset Index} (found : topo.bridgeAboveFrom fuel current seen = some (bridge, port)) :
    (topo.linkAt bridge).isSome := by
  induction fuel generalizing current seen with
  | zero => cases found
  | succ fuel ih =>
      rw [bridgeAboveFrom] at found
      split at found
      · cases found
      · split at found
        · cases found
        · split at found
          · rename_i master _ above
            cases found
            rw [isBridge] at above
            cases known : topo.linkAt bridge with
            | none => simp [known] at above
            | some link => rfl
          · exact ih found

/-- The bridge of a pair that has an anatomy is in the reading. -/
theorem linkAt_bridge {dev bridge : Index} {anatomy : Anatomy}
    (found : topo.anatomy dev bridge = some anatomy) : ∃ link, topo.linkAt bridge = some link := by
  obtain ⟨port, enters, -⟩ := Option.map_eq_some_iff.mp found
  rw [uplinkPort] at enters
  split at enters
  · rename_i above port' walked
    split at enters
    · rename_i same
      subst same
      exact Option.isSome_iff_exists.mp (bridgeAboveFrom_known walked)
    · cases enters
  · cases enters

/-- A device is under one bridge only. -/
theorem anatomy_unique {dev bridge other : Index} {first second : Anatomy}
    (one : topo.anatomy dev bridge = some first) (two : topo.anatomy dev other = some second) :
    first = second := by
  have above {bridge : Index} {anatomy : Anatomy} (found : topo.anatomy dev bridge = some anatomy) :
      (topo.bridgeAbove dev).map (·.1) = some bridge := by
    obtain ⟨port, enters, -⟩ := Option.map_eq_some_iff.mp found
    rw [uplinkPort] at enters
    split at enters
    · rename_i walked
      split at enters
      · rename_i same
        rw [walked, Option.map_some, same]
      · cases enters
    · cases enters
  obtain rfl : bridge = other := Option.some.inj ((above one).symm.trans (above two))
  exact Option.some.inj (one.symm.trans two)

private theorem mem_extend {pfs added : List Index} {pf : Index} :
    pf ∈ added.foldl (fun pfs pf => if pf ∈ pfs then pfs else pfs ++ [pf]) pfs ↔
      pf ∈ pfs ∨ pf ∈ added := by
  induction added generalizing pfs with
  | nil => simp
  | cons head rest ih =>
      rw [List.foldl_cons, ih, List.mem_cons]
      split
      · constructor
        · rintro (known | later)
          · exact .inl known
          · exact .inr (.inr later)
        · rintro (known | rfl | later)
          · exact .inl known
          · exact .inl ‹_›
          · exact .inr later
      · simp only [List.mem_append, List.mem_singleton, or_assoc]

/-- Every function behind a named uplink is among those asked about. -/
theorem mem_livePfs {devs : List Name} {pf : Index} :
    pf ∈ topo.livePfs devs ↔
      ∃ dev ∈ devs, ∃ index, topo.indexOf dev = some index ∧
        pf ∈ topo.physicalFunctions (topo.filterCarrier index) := by
  have step : ∀ (devs : List Name) (pfs : List Index),
      pf ∈ devs.foldl (fun pfs dev =>
        match topo.indexOf dev with
        | some index =>
            (topo.physicalFunctions (topo.filterCarrier index)).foldl
              (fun pfs pf => if pf ∈ pfs then pfs else pfs ++ [pf]) pfs
        | none => pfs) pfs ↔
      pf ∈ pfs ∨ ∃ dev ∈ devs, ∃ index, topo.indexOf dev = some index ∧
        pf ∈ topo.physicalFunctions (topo.filterCarrier index) := by
    intro devs
    induction devs with
    | nil => simp
    | cons dev rest ih =>
        intro pfs
        rw [List.foldl_cons, ih]
        cases present : topo.indexOf dev with
        | none => simp [present]
        | some index => simp [present, mem_extend, or_assoc]
  exact (step devs []).trans (by simp)

/-- The interface behind an index carries that index. -/
theorem index_of_linkAt {index : Index} {link : Link} (found : topo.linkAt index = some link) :
    link.index = index := by
  simpa using List.find?_some found

theorem mem_of_linkAt {index : Index} {link : Link} (found : topo.linkAt index = some link) :
    link ∈ topo.links :=
  List.mem_of_find?_eq_some found

theorem linkAt_of_mem {link : Link} (member : link ∈ topo.links) :
    topo.linkAt link.index = some link := by
  obtain ⟨other, found⟩ : ∃ other, topo.linkAt link.index = some other :=
    Option.isSome_iff_exists.mp (List.find?_isSome.mpr ⟨link, member, by simp⟩)
  have agree := index_of_linkAt found
  rw [found]
  exact congrArg some (List.inj_on_of_nodup_map topo.distinct (mem_of_linkAt found) member agree)

/-- A sibling is enslaved to some bridge. -/
theorem master_sibling {dev bridge sibling : Index} {anatomy : Anatomy}
    (found : topo.anatomy dev bridge = some anatomy) (member : sibling ∈ anatomy.siblings) :
    ∃ master, (topo.linkAt sibling).bind (·.master) = some master := by
  obtain ⟨port, -, rfl⟩ := Option.map_eq_some_iff.mp found
  replace member : sibling ∈ topo.siblings dev bridge port _ := member
  rw [siblings, List.mem_insertionSort, List.mem_map] at member
  obtain ⟨link, filtered, rfl⟩ := member
  obtain ⟨inLinks, fits⟩ := List.mem_filter.mp filtered
  obtain ⟨-, -, ⟨master, enslaved, -⟩, -⟩ := of_decide_eq_true fits
  exact ⟨master, by rw [linkAt_of_mem inLinks, Option.bind_some]; exact enslaved⟩

/-- A name in the reading belongs to an interface in the reading. -/
theorem get_of_indexOf {name : Name} {index : Index} (found : topo.indexOf name = some index) :
    ∃ link, topo.get name = some link ∧ link.index = index ∧ link.name = name := by
  obtain ⟨link, located, rfl⟩ := Option.map_eq_some_iff.mp found
  have named : link.name = name := by simpa using List.find?_some located
  have member : link ∈ topo.links := List.mem_reverse.mp (List.mem_of_find?_eq_some located)
  exact ⟨link, by rw [get, found, Option.bind_some, linkAt_of_mem member], rfl, named⟩

/-- No two names of a reading belong to one interface. -/
theorem indexOf_injective {first second : Name} {index : Index}
    (one : topo.indexOf first = some index) (two : topo.indexOf second = some index) :
    first = second := by
  have named {name : Name} (found : topo.indexOf name = some index) :
      topo.nameOf index = some name := by
    obtain ⟨link, got, atIndex, rfl⟩ := get_of_indexOf found
    rw [get, found, Option.bind_some] at got
    rw [nameOf, got, Option.map_some]
  exact Option.some.inj ((named one).symm.trans (named two))

theorem get_spec {name : Name} {link : Link} (found : topo.get name = some link) :
    topo.indexOf name = some link.index ∧ topo.linkAt link.index = some link ∧
      link.name = name := by
  obtain ⟨index, located, atIndex⟩ := Option.bind_eq_some_iff.mp found
  obtain ⟨link', found', index', named⟩ := get_of_indexOf located
  obtain rfl : link = link' := Option.some.inj (found.symm.trans found')
  refine ⟨by rw [located, index'], ?_, named⟩
  rw [index', atIndex]

end Topology

end SriovMacSync
