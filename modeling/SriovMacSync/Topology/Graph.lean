import SriovMacSync.Netlink.Fdb
import Mathlib.Algebra.GroupWithZero.Nat
import Mathlib.Data.Finset.Insert
import Mathlib.Data.List.Sort

namespace SriovMacSync

open Data Netlink

abbrev Name := String

/-! One reading of the host's interfaces and the walks over it.  A walk keeps
the set of what it has seen and a stack of what is left; the fuel it runs on
covers every edge the reading has. -/

structure Link where
  name : Name
  index : Index
  mac : Option Mac := none
  /-- what this interface is enslaved to -/
  master : Option Index := none
  /-- what is enslaved to, or stacked under, this interface -/
  lowers : List Index := []
  /-- the interface whose unicast filter a VLAN really writes into -/
  filterBelow : Option Index := none
  isBridge : Bool := false
  ageingMs : Option Nat := none
  numvfs : Nat := 0
  driver : Option String := none
  /-- every physical function of this virtual function's PCI function -/
  pfNetdevs : List Index := []
  /-- netdevs of this interface's virtual functions bound on the host -/
  vfNetdevs : List Index := []
deriving DecidableEq, Repr

structure Topology where
  links : List Link
  /-- the kernel identifies an interface by its index -/
  distinct : (links.map (·.index)).Nodup

namespace Topology

variable (topo : Topology)

def linkAt (index : Index) : Option Link := topo.links.find? (·.index == index)

/-- A name that is in the reading twice belongs to the link read last. -/
def indexOf (name : Name) : Option Index :=
  (topo.links.reverse.find? (·.name == name)).map (·.index)

def get (name : Name) : Option Link := (topo.indexOf name).bind topo.linkAt

def nameOf (index : Index) : Option Name := (topo.linkAt index).map (·.name)

def isBridge (index : Index) : Bool := ((topo.linkAt index).map (·.isBridge)).getD false

/-- What has this interface as a lower. -/
def uppers (index : Index) : List Index :=
  (topo.links.filter fun link => link.lowers.contains index).map (·.index)

/-- What is enslaved to this interface. -/
def slaves (index : Index) : List Index :=
  (topo.links.filter fun link => link.master == some index).map (·.index)

/-- The bridges in name order. -/
def bridges : List Link :=
  (topo.links.filter (·.isBridge)).insertionSort fun first second =>
    first.name < second.name ∨ (first.name = second.name ∧ first.index ≤ second.index)

/-- Enough steps for any walk: one for every root, and one for every edge out
of every link. -/
def fuel (next : Index → List Index) (roots : List Index) : Nat :=
  roots.length + (topo.links.map fun link => (next link.index).length).sum + 1

/-- One flood over one kind of edge, roots included. -/
def floodFrom (next : Index → List Index) : Nat → List Index → Finset Index → Finset Index
  | 0, _, seen => seen
  | _ + 1, [], seen => seen
  | fuel + 1, current :: stack, seen =>
      if current ∈ seen then floodFrom next fuel stack seen
      else if (topo.linkAt current).isSome then
        floodFrom next fuel ((next current).reverse ++ stack) (insert current seen)
      else floodFrom next fuel stack (insert current seen)

def flood (roots : List Index) (next : Index → List Index) : Finset Index :=
  topo.floodFrom next (topo.fuel next roots) roots.reverse ∅

def lowersOf (index : Index) : List Index := ((topo.linkAt index).map (·.lowers)).getD []

/-- Everything stacked on top of `root`, `root` itself included. -/
def stackedAbove (root : Index) : Finset Index := topo.flood [root] topo.uppers

/-- Everything at or below `roots`. -/
def subtreeOf (roots : List Index) : Finset Index := topo.flood roots topo.lowersOf

def leadsToFrom (target : Index) : Nat → List Index → Finset Index → Bool
  | 0, _, _ => false
  | _ + 1, [], _ => false
  | fuel + 1, current :: stack, seen =>
      if current ∈ seen then leadsToFrom target fuel stack seen
      else
        (topo.lowersOf current).contains target ||
          leadsToFrom target fuel ((topo.lowersOf current).reverse ++ stack) (insert current seen)

/-- Does `dev` sit on top of `target`, directly or through any number of
layers? -/
def leadsTo (dev target : Index) : Bool :=
  dev == target || topo.leadsToFrom target (topo.fuel topo.lowersOf [dev]) [dev] ∅

def filterCarrierFrom : Nat → Index → Finset Index → Index
  | 0, current, _ => current
  | fuel + 1, current, seen =>
      if current ∈ seen then current
      else
        match (topo.linkAt current).bind (·.filterBelow) with
        | some parent => filterCarrierFrom fuel parent (insert current seen)
        | none => current

/-- The interface whose unicast filter an uplink really writes into: down the
VLAN stack to the first interface that holds one. -/
def filterCarrier (dev : Index) : Index :=
  topo.filterCarrierFrom (topo.links.length + 1) dev ∅

/-- A bond spreads its entries over its members; a bridge does not, and a VLAN
member of a bond leads on to its card. -/
def functionEdges (index : Index) : List Index :=
  match topo.linkAt index with
  | some link =>
      if link.pfNetdevs ≠ [] ∨ 0 < link.numvfs ∨ link.isBridge then []
      else topo.slaves index ++ link.filterBelow.toList
  | none => []

def functionsAt (index : Index) : List Index :=
  match topo.linkAt index with
  | some link =>
      if link.pfNetdevs ≠ [] then link.pfNetdevs
      else if 0 < link.numvfs then [index]
      else []
  | none => []

def physicalFunctionsFrom : Nat → List Index → Finset Index → List Index
  | 0, _, _ => []
  | _ + 1, [], _ => []
  | fuel + 1, current :: stack, seen =>
      if current ∈ seen then physicalFunctionsFrom fuel stack seen
      else
        topo.functionsAt current ++
          physicalFunctionsFrom fuel ((topo.functionEdges current).reverse ++ stack)
            (insert current seen)

/-- The physical functions behind an interface: those whose virtual functions'
addresses must never be registered through it.  A virtual function names its
function's netdevs, a physical function is its own, a bond has its members'. -/
def physicalFunctions (dev : Index) : List Index :=
  ((topo.physicalFunctionsFrom (topo.fuel topo.functionEdges [dev]) [dev] ∅).insertionSort
    (· ≤ ·)).dedup

def bridgeAboveFrom : Nat → Index → Finset Index → Option (Index × Index)
  | 0, _, _ => none
  | fuel + 1, current, seen =>
      if current ∈ seen then none
      else
        match (topo.linkAt current).bind (·.master) with
        | none => none
        | some master =>
            if topo.isBridge master then some (master, current)
            else bridgeAboveFrom fuel master (insert current seen)

/-- Follow the master chain upwards until a bridge is reached: the bridge, and
the interface that is actually enslaved to it. -/
def bridgeAbove (dev : Index) : Option (Index × Index) :=
  topo.bridgeAboveFrom (topo.links.length + 1) dev ∅

/-- The interface of `bridge` under which `dev` sits.  No fallback to `dev`: a
detached device taken for the port would classify nothing as wire. -/
def uplinkPort (dev bridge : Index) : Option Index :=
  match topo.bridgeAbove dev with
  | some (above, port) => if above = bridge then some port else none
  | none => none

/-- Every address at or below `dev`. -/
def subtreeMacs (dev : Index) : Finset Mac :=
  ((topo.links.filter fun link => link.index ∈ topo.subtreeOf [dev]).filterMap (·.mac)).toFinset

end Topology

end SriovMacSync
