import SriovMacSync.Cards.Drivers
import SriovMacSync.Netlink.VfInfo
import SriovMacSync.Sync.Decide
import SriovMacSync.Sysfs.Assembling

namespace SriovMacSync.Cards

open Data Netlink Interaction Interaction.Action Sysfs

/-! # How many addresses each card holds

Each uplink writes into the filter of one card.  Its number is its driver's, or for a bond
the smallest among what carries it; a physical function is asked about a function of its
own where that makes a difference. -/

/-- The number for a card whose driver gives none. -/
def assumed : Nat := 128

/-- The source's number for no number. -/
def usizeMax : Nat := 2 ^ 64 - 1

/-- What the physical function says about a function where the driver's answer depends on
it: trust, and the command that changes it. -/
structure Standing where
  trusted : Option Bool := none
  lift : Option String := none
deriving DecidableEq, Repr

/-- What is said about a card, and about the number to warn at. -/
inductive Message where
  /-- nothing registered on this card takes effect -/
  | ignored (card : Name) (driver : String)
  | unfiltered (card : Name) (driver : String)
  | holds (card : Name) (driver : String) (number : Nat) (whom : String) (past : Past) (lift : String)
  | inFirmware (card : Name) (driver : String) (whom : String) (past : Past) (lift : String)
  | unlisted (card : Name) (driver : String)
  | warnAt (limit : Nat)
deriving DecidableEq, Repr

/-- What a card does past its number, where it has a filter. -/
def Past.phrase : Past → String
  | .drops => "drops silently"
  | .promisc => "goes unicast-promiscuous"
  | .hashes => "falls back to a hash filter"
  | .promiscFromFirst | .ignored => ""

def Message.text : Message → String
  | .ignored card driver =>
      s!"warning: {card}: the {driver} driver never programs a unicast list on this interface - " ++
        "nothing registered here takes effect"
  | .unfiltered card driver =>
      s!"{card}: the {driver} driver has no unicast filter - the kernel makes the interface " ++
        "promiscuous at the first entry, traffic flows and the list is moot"
  | .holds card driver number whom past lift =>
      s!"{card}: the {driver} driver holds {number} addresses{whom} by the kernel source and " ++
        s!"{past.phrase} past that{lift}"
  | .inFirmware card driver whom past lift =>
      s!"{card}: the {driver} driver's limit{whom} lives in firmware; assuming {assumed}, and it " ++
        s!"{past.phrase} past its real one{lift}"
  | .unlisted card driver =>
      s!"{card}: the {driver} driver is not in the table; assuming {assumed} addresses"
  | .warnAt limit =>
      s!"the number to warn at is {limit} addresses; quiet addresses are released as a list comes " ++
        "near its card's limit"

/-- The card a message is about. -/
def Message.card : Message → Option Name
  | .ignored card _ | .unfiltered card _ | .holds card .. | .inFirmware card .. | .unlisted card _ => some card
  | .warnAt _ => none

inductive CardCall where
  /-- everything a physical function says about its functions -/
  | vfInfoOf (pf : Index)
  | say (message : Message)
deriving DecidableEq

abbrev CardReply : CardCall → Type
  | .vfInfoOf _ => Except Errno (List VfInfo)
  | .say _ => Unit

/-- What a process knows of the cards: the numbers in its memory, and whom it told of. -/
structure Books where
  syncer : Syncer
  said : Finset Name := ∅

abbrev Reckoning := Action Books CardCall CardReply

def ask (request : CardCall) : Reckoning (CardReply request) := Action.ask request

/-- Whether an interface is a virtual function as far as can be told. -/
def functional (node : Node) : Bool := node.isVf || node.physfn.isSome

section Pictures

variable (picture : Picture)

def nodeAt (index : Index) : Option Node := picture.nodes.find? (·.index = index)

/-- The interface that holds an uplink's filter, by name: the uplink itself where the
picture does not tell. -/
def carrierName (dev : Name) : Name :=
  (((picture.byName dev).map picture.topology.filterCarrier).bind fun carrier =>
    (nodeAt picture carrier).map (·.name)).getD dev

def filterCarriers (devs : List Name) : List Name :=
  devs.foldl (fun out dev =>
    if carrierName picture dev ∈ out then out else out ++ [carrierName picture dev]) []

def standingOf (node : Node) : Reckoning Standing := do
  match node.physfn, node.vfNumber with
  | some pf, some number =>
      let pfName := ((nodeAt picture pf).map (·.name)).getD (toString pf)
      let told : Except Errno (List VfInfo) ← ask (.vfInfoOf pf)
      match told.toOption.bind (·.find? (·.vf = number)) with
      | some info => return ⟨info.trusted, some s!"ip link set {pfName} vf {number} trust on"⟩
      | none => return {}
  | _, _ => return {}

/-- One driver's filter for one interface, the physical function asked only where the
driver cares. -/
def judge (node : Node) (driver : String) : Reckoning (Option Filter × Option Standing) := do
  if !functional node || !trustMatters driver then
    return (filterOf driver (functional node) false, none)
  else
    let standing ← standingOf picture node
    return (filterOf driver true (standing.trusted = some true), some standing)

/-- What a search for the smallest filter has come to. -/
structure Found where
  driver : String
  filter : Filter
  standing : Option Standing

/-- A smaller filter takes the place of the one found. -/
def Found.orSmaller (best : Option Found) (driver : String) (filter : Option Filter)
    (standing : Option Standing) : Option Found :=
  match filter with
  | none => best
  | some filter =>
      match best with
      | none => some ⟨driver, filter, standing⟩
      | some found =>
          if filter.holds.getD usizeMax < found.filter.holds.getD usizeMax then
            some ⟨driver, filter, standing⟩
          else some found

/-- Where the search leads on to: an interface with a driver answers for itself. -/
def cardEdges (index : Index) : List Index :=
  match nodeAt picture index with
  | some node => if node.driver.isSome then [] else node.slaves ++ node.filterBelow.toList
  | none => []

def smallestFrom (name : Name) : Nat → List Index → Finset Index → Option Found → Reckoning (Option Found)
  | 0, _, _, best => return best
  | _ + 1, [], _, best => return best
  | fuel + 1, current :: stack, seen, best =>
      if current ∈ seen then smallestFrom name fuel stack seen best
      else
        match nodeAt picture current with
        | none => smallestFrom name fuel stack (insert current seen) best
        | some node =>
            match node.driver with
            | some driver => do
                let (filter, standing) ← judge picture node driver
                smallestFrom name fuel stack (insert current seen)
                  (Found.orSmaller best s!"{driver} behind {name}" filter standing)
            | none =>
                smallestFrom name fuel ((node.slaves ++ node.filterBelow.toList).reverse ++ stack)
                  (insert current seen) best

/-- The driver and the filter behind an interface: its own, or the smallest among what
carries it. -/
def cardFilter (link : Node) : Reckoning (Option String × Option Filter × Option Standing) := do
  match link.driver with
  | some driver =>
      let (filter, standing) ← judge picture link driver
      return (some driver, filter, standing)
  | none =>
      if link.isBridge || link.slaves.isEmpty then return (none, none, none)
      else
        let best ← smallestFrom picture link.name (picture.topology.fuel (cardEdges picture) link.slaves)
          link.slaves.reverse ∅ none
        match best with
        | some found => return (some found.driver, some found.filter, found.standing)
        | none => return (none, none, none)

end Pictures

/-- For whom the number is. -/
def whomOf : Option Standing → String
  | none => ""
  | some standing =>
      match standing.trusted with
      | some true => " for a trusted VF"
      | some false => " for an untrusted VF"
      | none => " for a VF of unknown trust"

/-- What would change the number, and what an address set by the physical function would
mean. -/
def liftOf (driver : Option String) : Option Standing → String
  | none => ""
  | some standing =>
      let name := driver.getD ""
      let changes := filterOf name true true ≠ filterOf name true false
      let lift :=
        match standing.lift, standing.trusted with
        | some command, some false => if changes then "; `" ++ command ++ "` changes that" else ""
        | _, _ => ""
      if standing.trusted ≠ some true ∧ locksUntrusted name then
        lift ++ " - and had the PF set this function's address, it would refuse every other until trusted"
      else lift

/-- What is said of a card whose driver is known. -/
def messageOf (card : Name) (driver : String) (filter : Option Filter) (standing : Option Standing) :
    Message :=
  match filter with
  | none => .unlisted card driver
  | some filter =>
      match filter.past with
      | .ignored => .ignored card driver
      | .promiscFromFirst => .unfiltered card driver
      | past =>
          match filter.holds with
          | some number => .holds card driver number (whomOf standing) past (liftOf (some driver) standing)
          | none => .inFirmware card driver (whomOf standing) past (liftOf (some driver) standing)

/-- The number a filter makes of a card. -/
def holdsOf (driver : Option String) (filter : Option Filter) : Nat :=
  match driver, filter with
  | some _, some filter =>
      match filter.past with
      | .ignored | .promiscFromFirst => assumed
      | _ => filter.holds.getD assumed
  | _, _ => assumed

/-- Each card is said once, when its driver is known. -/
def sayOnce (card : Name) (driver : Option String) (filter : Option Filter) (standing : Option Standing) :
    Reckoning PUnit := do
  match driver with
  | none => return
  | some driver =>
      if card ∈ (← get).said then return
      else
        modify fun books => { books with said := insert card books.said }
        let _ ← ask (.say (messageOf card driver filter standing))
        return

/-- A card absent from this reading keeps its last number. -/
def limitFor (picture : Picture) (card : Name) : Reckoning (Option Nat) := do
  match (picture.byName card).bind (nodeAt picture) with
  | none => return (← get).syncer.maxMacsPerCard card
  | some link =>
      let (driver, filter, standing) ← cardFilter picture link
      sayOnce card driver filter standing
      return some (holdsOf driver filter)

def limitsFor (picture : Picture) : List Name → Reckoning (List (Name × Nat))
  | [] => return []
  | card :: rest => do
      let limit ← limitFor picture card
      let limits ← limitsFor picture rest
      return (limit.map (card, ·)).toList ++ limits

def numberFor (limits : List (Name × Nat)) (card : Name) : Option Nat :=
  (limits.find? (·.1 = card)).map (·.2)

/-- The least of the numbers. -/
def leastOf (limits : List (Name × Nat)) : Nat := (limits.map (·.2)).min?.getD assumed

def applyCardLimits (picture : Picture) (maxSet : Bool) : Reckoning PUnit := do
  let devs := (← get).syncer.pairs.map (·.dev)
  let limits ← limitsFor picture (filterCarriers picture devs)
  if maxSet then return
  else
    modify fun books => { books with
      syncer := { books.syncer with maxMacsPerCard := numberFor limits } }
    if leastOf limits = (← get).syncer.maxMacs then return
    else
      let _ ← ask (.say (.warnAt (leastOf limits)))
      modify fun books => { books with syncer := { books.syncer with maxMacs := leastOf limits } }

end SriovMacSync.Cards
