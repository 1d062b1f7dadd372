import SriovMacSync.Data.Pushing
import SriovMacSync.Sysfs.Directory

namespace SriovMacSync.Sysfs

open Data Netlink Interaction Interaction.Action

/-! # A picture of the host

One link dump and what the directories add to it, put together.  The relations that only
one side states are written down on the other side too. -/

/-- What is added to a link from its directory. -/
structure Extras where
  numvfs : Nat := 0
  facts : DeviceFacts := {}

/-- A link with what is worked out for it when the picture is put together. -/
structure Node extends Link where
  /-- the lowest-numbered netdev of the physical function -/
  physfn : Option Index := none
  isVf : Bool := false
  vfNumber : Option UInt32 := none
  /-- what has this interface as a lower -/
  uppers : List Index := []
  /-- what is enslaved to this interface -/
  slaves : List Index := []

/-- What a picture finds an interface by. -/
abbrev Node.place (node : Node) : Index := node.index

structure Picture where
  nodes : List Node
  /-- the kernel identifies an interface by its index -/
  distinct : (nodes.map Node.place).Nodup
  byName : Name → Option Index
  /-- the bridges in name order -/
  bridgeOrder : List Index

/-- Kinds of interfaces that are stacked on their parent. -/
def stackedOnParent : List String :=
  ["vlan", "macvlan", "macvtap", "ipvlan", "ipvtap", "macsec", "vxlan"]

namespace LinkInfo

variable (info : LinkInfo)

/-- What the dump says the interface is stacked on.  A veth's peer and a tunnel's underlay
are no parents. -/
def lowers : List Index :=
  match info.kind, info.link with
  | some kind, some parent => if kind ∈ stackedOnParent then [parent] else []
  | _, _ => []

def filterBelow : Option Index := if info.kind = some "vlan" then info.link else none

/-- Interfaces the kernel creates itself have a kind and no device directory. -/
def couldHaveDevice : Bool := info.kind.isNone

/-- The interface as it is in the reading, its names resolved. -/
def node (byName : Name → Option Index) (extras : Extras) : Node :=
  let pfNetdevs := (extras.facts.pfNetdevs.filterMap byName).insertionSort (· ≤ ·)
  { name := info.name
    index := info.index
    mac := info.mac
    master := info.master
    lowers := info.lowers
    filterBelow := info.filterBelow
    isBridge := info.kind = some "bridge"
    ageingMs := info.ageing.map fun centis => centis.toNat * 10
    numvfs := extras.numvfs
    driver := extras.facts.driver
    isVf := extras.facts.isVf
    vfNumber := extras.facts.vfNumber
    pfNetdevs
    physfn := pfNetdevs.head? }

end LinkInfo

/-- A cached name that no longer resolves, or a function whose netdevs had no name. -/
def stale (byName : Name → Option Index) (facts : DeviceFacts) : Bool :=
  facts.pfNetdevs.any (fun name => (byName name).isNone) || (facts.isVf && facts.pfNetdevs.isEmpty)

/-- Whether there is a device behind an interface: as the dump says where the kernel names
bus devices at all, else as the directory says where there could be one. -/
def probed (namesParents : Bool) (info : LinkInfo) : Query Bool := do
  if namesParents then return info.parentDev.isSome
  else if info.couldHaveDevice then ask (.isDevice info.name)
  else return false

/-- A rename since the dump makes the name another interface's directory. -/
def hasDevice (namesParents : Bool) (info : LinkInfo) : Query Bool := do
  if ← probed namesParents info then answersFor info.name info.index
  else return false

def readExtras (namesParents : Bool) (byName : Name → Option Index) (info : LinkInfo) :
    Query Extras := do
  if ← hasDevice namesParents info then
    let text : Option Text ← ask (.numvfs info.name)
    let facts ← deviceFacts info.index (stale byName) (readFacts info.name info.index)
    return ⟨((numberIn text).map (·.toNat)).getD 0, facts.getD {}⟩
  else return {}

def readNodes (namesParents : Bool) (byName : Name → Option Index) :
    List LinkInfo → Query (List Node)
  | [] => return []
  | info :: rest => do
      let extras ← readExtras namesParents byName info
      let nodes ← readNodes namesParents byName rest
      return info.node byName extras :: nodes

/-- The index a name belongs to, the link read last winning. -/
def nameTable (infos : List LinkInfo) : Name → Option Index :=
  infos.foldl (fun byName info => Function.update byName info.name (some info.index)) fun _ => none

def Node.pushLower (node : Node) (lower : Index) : Node := { node with lowers := node.lowers ++ [lower] }

def Node.pushVf (node : Node) (vf : Index) : Node := { node with vfNetdevs := node.vfNetdevs ++ [vf] }

theorem Node.pushLower_place (node : Node) (lower : Index) : (node.pushLower lower).place = node.place := rfl

theorem Node.pushVf_place (node : Node) (vf : Index) : (node.pushVf vf).place = node.place := rfl

/-- A master relation is a lower relation seen from the other side. -/
def withPorts (nodes : List Node) : List Node :=
  pushAll Node.place Node.pushLower
    (nodes.filterMap fun node => node.master.map (·, node.index)) nodes

/-- A physical function's functions are the inverse of the functions' own relation. -/
def withFunctions (nodes : List Node) : List Node :=
  (pushAll Node.place Node.pushVf
    (nodes.flatMap fun node => node.pfNetdevs.map (·, node.index)) nodes).map fun node =>
      { node with vfNetdevs := node.vfNetdevs.insertionSort (· ≤ ·) }

/-- Both kinds of edges, as they are stated by the interface above or enslaved. -/
def edgesOf (nodes : List Node) : List (Index × Index × Bool) :=
  nodes.flatMap fun node =>
    node.lowers.map (·, node.index, true) ++ (node.master.map (·, node.index, false)).toList

def Node.push (node : Node) (edge : Index × Bool) : Node :=
  if edge.2 then { node with uppers := node.uppers ++ [edge.1] }
  else { node with slaves := node.slaves ++ [edge.1] }

theorem Node.push_place (node : Node) (edge : Index × Bool) : (node.push edge).place = node.place := by
  unfold Node.push
  split <;> rfl

def bridgeOrderOf (nodes : List Node) : List Index :=
  (((nodes.filter (·.isBridge)).map fun node => (node.name, node.index)).insertionSort
    fun first second => first.1 < second.1 ∨ (first.1 = second.1 ∧ first.2 ≤ second.2)).map (·.2)

/-- The picture of links whose relations are indices already. -/
def assemble (nodes : List Node) (byName : Name → Option Index) : Picture :=
  let table := pushAll Node.place Node.push (edgesOf nodes) (keepLast Node.place nodes)
  { nodes := table
    distinct := by
      rw [pushAll_keys Node.push_place]
      exact keepLast_distinct
    byName
    bridgeOrder := bridgeOrderOf table }

/-- The links of a picture, with the relations that are stated once. -/
def Picture.topology (picture : Picture) : Topology where
  links := picture.nodes.map Node.toLink
  distinct := by
    rw [List.map_map]
    exact picture.distinct

def fromLinks (infos : List LinkInfo) : Query Picture := do
  -- whether the kernel names bus devices at all
  let namesParents := infos.any (·.parentDev.isSome)
  let byName := nameTable infos
  let nodes ← readNodes namesParents byName infos
  return assemble (withFunctions (withPorts nodes)) byName

end SriovMacSync.Sysfs
