import SriovMacSync.Interaction.Execution
import SriovMacSync.Sysfs.Assembling
import SriovMacSync.Topology.Reachability
import SriovMacSync.Topology.Walks

namespace SriovMacSync.Sysfs

open Data Netlink Interaction Interaction.Action

/-! # Every relation from both sides

Whatever the directories answer and whatever is remembered of earlier readings, a picture
says of each interface what the dump says, and each relation on it is stated by both of
the interfaces it holds between. -/

section Stages

variable {nodes : List Node}

/-- The interfaces enslaved to a master. -/
def portsOf (nodes : List Node) (master : Index) : List Index :=
  (nodes.filter (·.master = some master)).map (·.index)

/-- The functions that name a netdev of their physical function, once for each time. -/
def functionsOf (nodes : List Node) (pf : Index) : List Index :=
  nodes.flatMap fun node => (node.pfNetdevs.filter (· = pf)).map fun _ => node.index

/-- The interfaces stacked on a lower, once for each time they name it. -/
def uppersOf (nodes : List Node) (lower : Index) : List Index :=
  nodes.flatMap fun node => (node.lowers.filter (· = lower)).map fun _ => node.index

theorem foldl_pushLower (ports : List Index) (node : Node) :
    ports.foldl Node.pushLower node = { node with lowers := node.lowers ++ ports } := by
  induction ports generalizing node with
  | nil => simp
  | cons port rest ih => simp [ih, Node.pushLower]

theorem foldl_pushVf (vfs : List Index) (node : Node) :
    vfs.foldl Node.pushVf node = { node with vfNetdevs := node.vfNetdevs ++ vfs } := by
  induction vfs generalizing node with
  | nil => simp
  | cons vf rest ih => simp [ih, Node.pushVf]

theorem withPorts_eq (distinct : (nodes.map Node.place).Nodup) :
    withPorts nodes =
      nodes.map fun node => { node with lowers := node.lowers ++ portsOf nodes node.index } := by
  rw [withPorts, pushAll_of_distinct Node.pushLower_place distinct]
  apply List.map_congr_left
  intro node _
  rw [foldl_pushLower, pushedTo_filterMap]
  rfl

theorem withFunctions_eq (distinct : (nodes.map Node.place).Nodup) :
    withFunctions nodes = nodes.map fun node =>
      { node with vfNetdevs := (node.vfNetdevs ++ functionsOf nodes node.index).insertionSort (· ≤ ·) } := by
  rw [withFunctions, pushAll_of_distinct Node.pushVf_place distinct, List.map_map]
  apply List.map_congr_left
  intro node _
  simp only [Function.comp, foldl_pushVf, pushedTo_flatMap, pushedTo_map]
  rfl

theorem foldl_push (edges : List (Index × Bool)) (node : Node) :
    edges.foldl Node.push node =
      { node with
        uppers := node.uppers ++ (edges.filter (·.2)).map (·.1)
        slaves := node.slaves ++ (edges.filter (!·.2)).map (·.1) } := by
  induction edges generalizing node with
  | nil => simp
  | cons edge rest ih =>
      obtain ⟨other, upper⟩ := edge
      cases upper <;> simp [ih, Node.push]

theorem pushedTo_edgesOf (index : Index) :
    ((pushedTo (edgesOf nodes) index).filter (·.2)).map (·.1) = uppersOf nodes index ∧
      ((pushedTo (edgesOf nodes) index).filter (!·.2)).map (·.1) = portsOf nodes index := by
  have one (node : Node) :
      pushedTo (node.lowers.map (·, node.index, true) ++
          (node.master.map (·, node.index, false)).toList) index =
        ((node.lowers.filter (· = index)).map fun _ => (node.index, true)) ++
          if node.master = some index then [(node.index, false)] else [] := by
    rw [pushedTo_append, pushedTo_map]
    congr 1
    cases enslaved : node.master with
    | none => simp [pushedTo]
    | some master => by_cases here : master = index <;> simp [pushedTo, here]
  rw [edgesOf, pushedTo_flatMap]
  simp only [one]
  induction nodes with
  | nil => exact ⟨rfl, rfl⟩
  | cons node rest ih =>
      obtain ⟨uppers, slaves⟩ := ih
      constructor
      · rw [List.flatMap_cons, List.filter_append, List.map_append, uppers]
        change _ = ((node.lowers.filter (· = index)).map fun _ => node.index) ++ uppersOf rest index
        congr 1
        split <;> simp
      · rw [List.flatMap_cons, List.filter_append, List.map_append, slaves, portsOf]
        by_cases here : node.master = some index <;> simp [portsOf, here]

theorem assemble_nodes (distinct : (nodes.map Node.place).Nodup) (byName : Name → Option Index) :
    (assemble nodes byName).nodes = nodes.map fun node =>
      { node with
        uppers := node.uppers ++ uppersOf nodes node.index
        slaves := node.slaves ++ portsOf nodes node.index } := by
  change pushAll Node.place Node.push (edgesOf nodes) (keepLast Node.place nodes) = _
  rw [keepLast_of_distinct distinct, pushAll_of_distinct Node.push_place distinct]
  apply List.map_congr_left
  intro node _
  obtain ⟨uppers, slaves⟩ := @pushedTo_edgesOf nodes node.place
  rw [foldl_push, uppers, slaves]

/-- The picture's links, as they are before the edges are turned round. -/
theorem topology_links (distinct : (nodes.map Node.place).Nodup) (byName : Name → Option Index) :
    (assemble nodes byName).topology.links = nodes.map Node.toLink := by
  change (assemble nodes byName).nodes.map Node.toLink = _
  rw [assemble_nodes distinct, List.map_map]
  rfl

end Stages

/-- What a picture has of an interface is what the dump has of it. -/
structure Describes (info : LinkInfo) (node : Node) : Prop where
  index : node.index = info.index
  name : node.name = info.name
  mac : node.mac = info.mac
  master : node.master = info.master
  filterBelow : node.filterBelow = info.filterBelow
  isBridge : node.isBridge = true ↔ info.kind = some "bridge"
  ageingMs : node.ageingMs = info.ageing.map fun centis => centis.toNat * 10

/-- A picture of a dump, every relation on it stated from both sides. -/
structure Picture.Tells (picture : Picture) (infos : List LinkInfo) : Prop where
  described : List.Forall₂ Describes infos picture.nodes
  /-- what is stacked under an interface, and what is enslaved to it -/
  lowers : ∀ info ∈ infos, ∀ node ∈ picture.nodes, node.index = info.index → ∀ lower,
    lower ∈ node.lowers ↔ lower ∈ info.lowers ∨
      ∃ port ∈ infos, port.index = lower ∧ port.master = some info.index
  mirrors : picture.topology.Mirrors
  uppers : ∀ node ∈ picture.nodes, node.uppers = picture.topology.pushedUppers node.index
  slaves : ∀ node ∈ picture.nodes, node.slaves = picture.topology.slaves node.index
  functions : ∀ pf ∈ picture.nodes, ∀ vf ∈ picture.nodes,
    vf.index ∈ pf.vfNetdevs ↔ pf.index ∈ vf.pfNetdevs
  physfn : ∀ node ∈ picture.nodes, node.physfn = node.pfNetdevs.head? ∧
    ∀ pf ∈ node.pfNetdevs, ∀ least ∈ node.physfn, least ≤ pf
  names : picture.byName = picture.topology.indexOf
  bridges : picture.bridgeOrder = picture.topology.bridges.map (·.index)

section Assembled

variable {infos : List LinkInfo} {nodes : List Node} {byName : Name → Option Index}

/-- The nodes of a dump as they are read one by one. -/
def ReadFrom (byName : Name → Option Index) (infos : List LinkInfo) (nodes : List Node) : Prop :=
  List.Forall₂ (fun info node => ∃ extras, node = info.node byName extras) infos nodes

/-- An interface once ports and functions are turned round. -/
def joined (nodes : List Node) (node : Node) : Node :=
  { node with
    lowers := node.lowers ++ portsOf nodes node.index
    vfNetdevs := (node.vfNetdevs ++ functionsOf nodes node.index).insertionSort (· ≤ ·) }

theorem withFunctions_withPorts (distinct : (nodes.map Node.place).Nodup) :
    withFunctions (withPorts nodes) = nodes.map (joined nodes) := by
  have ports := withPorts_eq distinct
  have kept : ((withPorts nodes).map Node.place).Nodup := by
    rw [withPorts, pushAll_keys Node.pushLower_place]
    exact distinct
  have functions (pf : Index) : functionsOf (withPorts nodes) pf = functionsOf nodes pf := by
    rw [ports, functionsOf, List.flatMap_map]
    rfl
  rw [withFunctions_eq kept]
  simp only [functions]
  rw [ports, List.map_map]
  rfl

theorem joined_distinct (distinct : (nodes.map Node.place).Nodup) :
    ((nodes.map (joined nodes)).map Node.place).Nodup := by
  rw [List.map_map]
  exact distinct

theorem portsOf_joined (master : Index) : portsOf (nodes.map (joined nodes)) master = portsOf nodes master := by
  rw [portsOf, List.filter_map, List.map_map]
  rfl

/-- A picture put together from what was read of a dump. -/
def pictureOf (byName : Name → Option Index) (nodes : List Node) : Picture :=
  assemble (withFunctions (withPorts nodes)) byName

theorem pictureOf_nodes (distinct : (nodes.map Node.place).Nodup) :
    (pictureOf byName nodes).nodes = nodes.map fun node =>
      { joined nodes node with
        uppers := node.uppers ++ uppersOf (nodes.map (joined nodes)) node.index
        slaves := node.slaves ++ portsOf nodes node.index } := by
  rw [pictureOf, withFunctions_withPorts distinct, assemble_nodes (joined_distinct distinct), List.map_map]
  simp only [portsOf_joined]
  rfl

theorem pictureOf_links (distinct : (nodes.map Node.place).Nodup) :
    (pictureOf byName nodes).topology.links = nodes.map fun node => (joined nodes node).toLink := by
  rw [pictureOf, withFunctions_withPorts distinct, topology_links (joined_distinct distinct), List.map_map]
  rfl

theorem ReadFrom.places (read : ReadFrom byName infos nodes) :
    nodes.map Node.place = infos.map (·.index) := by
  unfold ReadFrom at read
  induction read with
  | nil => rfl
  | cons made _ ih =>
      obtain ⟨extras, same⟩ := made
      rw [List.map_cons, List.map_cons, ih, same]
      rfl

theorem exists_of_forall₂ {Source Target : Type} {related : Source → Target → Prop} {sources : List Source}
    {targets : List Target} (pairs : List.Forall₂ related sources targets) {target : Target}
    (member : target ∈ targets) : ∃ source ∈ sources, related source target := by
  induction pairs with
  | nil => cases member
  | cons first _ ih =>
      rcases List.mem_cons.mp member with same | later
      · exact ⟨_, List.mem_cons_self, same ▸ first⟩
      · obtain ⟨source, listed, relates⟩ := ih later
        exact ⟨source, List.mem_cons_of_mem _ listed, relates⟩

theorem ReadFrom.origin (read : ReadFrom byName infos nodes) {node : Node} (member : node ∈ nodes) :
    ∃ info ∈ infos, ∃ extras, node = info.node byName extras := exists_of_forall₂ read member

theorem ReadFrom.mem_portsOf (read : ReadFrom byName infos nodes) {master port : Index} :
    port ∈ portsOf nodes master ↔ ∃ info ∈ infos, info.index = port ∧ info.master = some master := by
  unfold ReadFrom at read
  induction read with
  | nil => simp [portsOf]
  | @cons info node _ rest made _ ih =>
      obtain ⟨extras, same⟩ := made
      have split : port ∈ portsOf (node :: rest) master ↔
          (node.index = port ∧ node.master = some master) ∨ port ∈ portsOf rest master := by
        by_cases here : node.master = some master <;> simp [portsOf, here, eq_comm]
      rw [split, ih, same]
      simp [LinkInfo.node]

theorem mem_functionsOf {pf vf : Index} :
    vf ∈ functionsOf nodes pf ↔ ∃ node ∈ nodes, node.index = vf ∧ pf ∈ node.pfNetdevs := by
  simp only [functionsOf, List.mem_flatMap, List.mem_map, List.mem_filter, decide_eq_true_eq]
  constructor
  · intro listed
    obtain ⟨node, member, pf', ⟨named, same⟩, index⟩ := listed
    exact ⟨node, member, index, same ▸ named⟩
  · intro named
    obtain ⟨node, member, index, listed⟩ := named
    exact ⟨node, member, pf, ⟨listed, rfl⟩, index⟩

theorem eq_of_place (distinct : (nodes.map Node.place).Nodup) {first second : Node} (left : first ∈ nodes)
    (right : second ∈ nodes) (same : first.index = second.index) : first = second :=
  List.inj_on_of_nodup_map distinct left right same

theorem nameTable_eq (infos : List LinkInfo) (name : Name) :
    nameTable infos name = (infos.reverse.find? (·.name == name)).map (·.index) := by
  induction infos using List.reverseRecOn with
  | nil => rfl
  | append_singleton rest info ih =>
      rw [nameTable, List.foldl_append, List.foldl_cons, List.foldl_nil, List.reverse_append]
      by_cases here : info.name = name
      · subst here
        simp
      · rw [Function.update_of_ne (Ne.symm here)]
        simpa [here, nameTable] using ih

/-- Where an interface of the finished picture comes from. -/
theorem ReadFrom.assembled (read : ReadFrom byName infos nodes) (distinct : (nodes.map Node.place).Nodup)
    {node : Node} (member : node ∈ (pictureOf byName nodes).nodes) :
    ∃ base ∈ nodes, ∃ info ∈ infos, ∃ extras, base = info.node byName extras ∧
      node = { joined nodes base with
        uppers := uppersOf (nodes.map (joined nodes)) base.index
        slaves := portsOf nodes base.index } := by
  rw [pictureOf_nodes distinct] at member
  obtain ⟨base, listed, same⟩ := List.mem_map.mp member
  obtain ⟨info, dumped, extras, made⟩ := read.origin listed
  refine ⟨base, listed, info, dumped, extras, made, same.symm.trans ?_⟩
  rw [made]
  rfl

theorem ReadFrom.describes (read : ReadFrom byName infos nodes) (distinct : (nodes.map Node.place).Nodup) :
    List.Forall₂ Describes infos (pictureOf byName nodes).nodes := by
  rw [pictureOf_nodes distinct, List.forall₂_map_right_iff]
  apply List.Forall₂.imp _ read
  intro info node made
  obtain ⟨extras, same⟩ := made
  subst same
  exact ⟨rfl, rfl, rfl, rfl, rfl, by simp [joined, LinkInfo.node], rfl⟩

theorem pictureOf_mirrors (distinct : (nodes.map Node.place).Nodup) :
    (pictureOf byName nodes).topology.Mirrors := by
  intro link member master enslaved known
  rw [pictureOf_links distinct] at member
  obtain ⟨node, listed, same⟩ := List.mem_map.mp member
  obtain ⟨above, found⟩ := Option.isSome_iff_exists.mp known
  have there := Topology.mem_of_linkAt found
  rw [pictureOf_links distinct] at there
  obtain ⟨upper, _, same'⟩ := List.mem_map.mp there
  have index : upper.index = master := by
    rw [← Topology.index_of_linkAt found, ← same']
    rfl
  rw [Topology.lowersOf, found, Option.map_some, Option.getD_some, ← same', ← same]
  apply List.mem_append_right
  rw [index, portsOf, List.mem_map]
  refine ⟨node, List.mem_filter.mpr ⟨listed, ?_⟩, rfl⟩
  rw [← same] at enslaved
  exact decide_eq_true enslaved

theorem pictureOf_uppers (distinct : (nodes.map Node.place).Nodup) (index : Index) :
    (pictureOf byName nodes).topology.pushedUppers index = uppersOf (nodes.map (joined nodes)) index := by
  rw [Topology.pushedUppers, pictureOf_links distinct, uppersOf, List.flatMap_map, List.flatMap_map]
  rfl

theorem pictureOf_slaves (distinct : (nodes.map Node.place).Nodup) (index : Index) :
    (pictureOf byName nodes).topology.slaves index = portsOf nodes index := by
  rw [Topology.slaves, pictureOf_links distinct, List.filter_map, List.map_map, portsOf]
  simp only [Function.comp_def, joined, beq_eq_decide]

theorem ReadFrom.named (read : ReadFrom byName infos nodes) :
    infos.map (fun info => (info.name, info.index)) = nodes.map fun node => (node.name, node.index) := by
  unfold ReadFrom at read
  induction read with
  | nil => rfl
  | cons made _ ih =>
      obtain ⟨extras, same⟩ := made
      rw [List.map_cons, List.map_cons, ih, same]
      rfl

/-- The last of a name, found among the pairs of names and indices. -/
theorem find_named {Source : Type} (sources : List Source) (name : Source → Name) (index : Source → Index)
    (wanted : Name) :
    (sources.reverse.find? (name · == wanted)).map index =
      ((sources.map fun source => (name source, index source)).reverse.find? (·.1 == wanted)).map (·.2) := by
  rw [← List.map_reverse, List.find?_map, Option.map_map]
  rfl

theorem ReadFrom.names (read : ReadFrom byName infos nodes) (distinct : (nodes.map Node.place).Nodup) :
    nameTable infos = (pictureOf byName nodes).topology.indexOf := by
  funext name
  have links : (pictureOf byName nodes).topology.links.map (fun link => (link.name, link.index)) =
      nodes.map fun node => (node.name, node.index) := by
    rw [pictureOf_links distinct, List.map_map]
    rfl
  rw [nameTable_eq, find_named infos (·.name) (·.index), read.named, ← links]
  exact (find_named (pictureOf byName nodes).topology.links (·.name) (·.index) name).symm

theorem pictureOf_bridges :
    (pictureOf byName nodes).bridgeOrder = (pictureOf byName nodes).topology.bridges.map (·.index) := by
  set picture := pictureOf byName nodes with picture_def
  have order : picture.bridgeOrder = bridgeOrderOf picture.nodes := rfl
  have named : (picture.nodes.filter (·.isBridge)).map (fun node => (node.name, node.index)) =
      (picture.topology.links.filter (·.isBridge)).map fun link => (link.name, link.index) := by
    rw [Picture.topology, List.filter_map, List.map_map]
    rfl
  have sorted (bridges : List Link) :
      (bridges.insertionSort fun first second =>
          first.name < second.name ∨ (first.name = second.name ∧ first.index ≤ second.index)).map
        (fun link => (link.name, link.index)) =
      (bridges.map fun link => (link.name, link.index)).insertionSort fun first second =>
        first.1 < second.1 ∨ (first.1 = second.1 ∧ first.2 ≤ second.2) :=
    List.map_insertionSort _ _ _ _ fun _ _ _ _ => Iff.rfl
  rw [order, bridgeOrderOf, named, ← sorted, List.map_map]
  rfl

theorem tells_of_read (distinct : (infos.map (·.index)).Nodup) (read : ReadFrom (nameTable infos) infos nodes) :
    (pictureOf (nameTable infos) nodes).Tells infos := by
  have places : (nodes.map Node.place).Nodup := by
    rw [read.places]
    exact distinct
  have joins {pf base : Node} (member : base ∈ nodes) :
      base.index ∈ functionsOf nodes pf.index ↔ pf.index ∈ base.pfNetdevs := by
    rw [mem_functionsOf]
    constructor
    · intro named
      obtain ⟨other, listed, same, names⟩ := named
      rwa [eq_of_place places listed member same] at names
    · exact fun names => ⟨base, member, rfl, names⟩
  refine {
    described := read.describes places
    lowers := ?_
    mirrors := pictureOf_mirrors places
    uppers := ?_
    slaves := ?_
    functions := ?_
    physfn := ?_
    names := read.names places
    bridges := pictureOf_bridges }
  · intro info listed node member same lower
    obtain ⟨base, _, origin, dumped, extras, made, node_eq⟩ := read.assembled places member
    have here : origin = info := by
      apply List.inj_on_of_nodup_map distinct dumped listed
      rw [← same, node_eq, made]
      rfl
    subst here
    rw [node_eq, joined, List.mem_append, read.mem_portsOf, made]
    rfl
  · intro node member
    obtain ⟨base, _, _, _, _, _, node_eq⟩ := read.assembled places member
    rw [pictureOf_uppers places, node_eq]
    rfl
  · intro node member
    obtain ⟨base, _, _, _, _, _, node_eq⟩ := read.assembled places member
    rw [pictureOf_slaves places, node_eq]
    rfl
  · intro pf pfMember vf vfMember
    obtain ⟨first, _, _, _, _, firstMade, pf_eq⟩ := read.assembled places pfMember
    obtain ⟨second, secondListed, _, _, _, _, vf_eq⟩ := read.assembled places vfMember
    have none : first.vfNetdevs = [] := by
      rw [firstMade]
      rfl
    rw [pf_eq, vf_eq, joined, List.mem_insertionSort, none, List.nil_append]
    exact @joins first second secondListed
  · intro node member
    obtain ⟨base, _, _, _, extras, made, node_eq⟩ := read.assembled places member
    rw [node_eq, made]
    refine ⟨rfl, ?_⟩
    change ∀ pf ∈ (extras.facts.pfNetdevs.filterMap (nameTable infos)).insertionSort (· ≤ ·),
      ∀ least ∈ ((extras.facts.pfNetdevs.filterMap (nameTable infos)).insertionSort (· ≤ ·)).head?, least ≤ pf
    intro pf listed least first
    have sorted := List.pairwise_insertionSort (· ≤ ·) (extras.facts.pfNetdevs.filterMap (nameTable infos))
    obtain ⟨rest, whole⟩ := List.head?_eq_some_iff.mp first
    rw [whole] at listed sorted
    rcases List.mem_cons.mp listed with same | later
    · exact same ▸ UInt32.le_refl _
    · exact (List.pairwise_cons.mp sorted).1 pf later

end Assembled

section Readings

variable {World : Type} {env : Environment SysfsCall SysfsReply World} {infos : List LinkInfo}
  {namesParents : Bool} {byName : Name → Option Index} {facts : Facts}

theorem readNodes_within : Within (fun _ => True) (readNodes namesParents byName infos)
    (fun nodes _ => ReadFrom byName infos nodes) facts := by
  induction infos generalizing facts with
  | nil => exact .nil
  | cons info rest ih =>
      have anything : Within (fun _ => True) (readExtras namesParents byName info) (fun _ _ => True) facts :=
        Program.safe_of_kept (fun _ _ _ => ⟨trivial, fun _ _ _ => trivial⟩) trivial
      refine anything.bind fun extras facts _ => ?_
      refine ih.bind fun nodes facts read => ?_
      exact .cons ⟨extras, rfl⟩ read

/-- Whatever the directories answer at whatever moment and whatever is remembered, the
picture tells what the dump says, each relation from both sides. -/
theorem picture_tells_the_dump (distinct : (infos.map (·.index)).Nodup) {left : Facts} {world after : World}
    {picture : Picture} (ran : Runs env (fromLinks infos) facts world picture left after) :
    picture.Tells infos := by
  have within : Within (fun _ => True) (fromLinks infos) (fun picture _ => picture.Tells infos) facts :=
    readNodes_within.bind fun nodes _ read => within_pure.mpr (tells_of_read distinct read)
  exact within.runs ran

/-- A card with one function, both under a bridge's VLAN stack. -/
def functionInfos : List LinkInfo :=
  [{ index := 2, name := "nic1", parentDev := some "0000:01:00.0", master := some 5 },
    { index := 3, name := "nic1v0", parentDev := some "0000:01:10.0" },
    { index := 4, name := "nic1v0.7", kind := some "vlan", link := some 3, master := some 5 },
    { index := 5, name := "vmbr0", kind := some "bridge", ageing := some 30000 }]

/-- What their directories answer. -/
def functionHost : Handler SysfsCall SysfsReply Unit
  | _, .ifindex "nic1" => (some "2\n".toList, ())
  | _, .ifindex "nic1v0" => (some "3\n".toList, ())
  | _, .numvfs "nic1" => (some "1\n".toList, ())
  | _, .device "nic1v0" => (some "0000:01:10.0", ())
  | _, .hasPhysfn name => (name == "nic1v0", ())
  | _, .physfnNet "nic1v0" => (some ["nic1"], ())
  | _, .physfnEntries "nic1v0" => (some ["driver".toList, "virtfn0".toList], ())
  | _, .physfnEntry "nic1v0" _ => (some "0000:01:10.0", ())
  | _, .isDevice _ => (true, ())
  | _, .ifindex _ | _, .numvfs _ | _, .driver _ | _, .device _ | _, .physfnNet _ | _, .physfnEntries _
  | _, .physfnEntry .. => (none, ())

def functionPicture : Picture := ((fromLinks functionInfos fun _ => none).replay functionHost ()).1.1

theorem picture_tells_the_dump_functions :
    functionPicture.nodes.map (fun node => (node.lowers, node.uppers, node.vfNetdevs)) =
        [([], [5], [3]), ([], [4], []), ([3], [5], []), ([2, 4], [], [])] ∧
      functionPicture.Tells functionInfos := by
  have ran : Runs (.handled functionHost) (fromLinks functionInfos) (fun _ => none) () functionPicture _ _ :=
    Program.replay_reaches (fun _ _ => rfl) _ ()
  exact ⟨by decide +kernel, picture_tells_the_dump (by decide) ran⟩

end Readings

end SriovMacSync.Sysfs
