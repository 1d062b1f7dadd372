import SriovMacSync.Daemon.Schedule
import SriovMacSync.Interaction.Embedding
import SriovMacSync.Netlink.Messages
import SriovMacSync.Sync.Batch
import SriovMacSync.Topology.Autodetect

namespace SriovMacSync

open Data Netlink Interaction

/-! # The daemon

What happens between events, and when: the loop around passes and batches, and what it
asks of the world besides what they ask. -/

/-- The uplinks something is carried for, in the order a walk over them takes. -/
structure Carriers (carried : Name → Option Carried) where
  devs : List Name
  mem_iff : ∀ dev, dev ∈ devs ↔ (carried dev).isSome

/-- The numbers the cards' drivers give for their lists. -/
structure CardLimits where
  maxMacs : Nat
  maxMacsPerCard : Name → Option Nat

inductive DaemonCall where
  /-- what a pass or a batch asks -/
  | sys (request : Call)
  | now
  | stopping
  | resyncWanted
  | readTopology
  /-- what the drivers say of the cards under these uplinks -/
  | cardLimits (devs : List Name) (topo : Topology)
  /-- whether a changed interface is, or in either picture was, about virtual functions -/
  | vfMayHaveChanged (before : Option Topology) (after : Topology) (changed : List Index)
  | walkCarried (carried : Name → Option Carried)
  | wait (millis : Int)
  | recvEvents
  | pause (wait : Nat)

/-- The reply to each request; no limits where the operator's number governs every
card. -/
@[reducible] def DaemonReply : DaemonCall → Type
  | .sys request => Reply request
  | .now => Nat
  | .stopping | .resyncWanted => Bool
  | .readTopology => Except Errno Topology
  | .cardLimits .. => Option CardLimits
  | .vfMayHaveChanged .. => Bool
  | .walkCarried carried => Carriers carried
  | .wait _ => Except Errno Bool
  | .recvEvents => Except Errno Events
  | .pause _ => Unit

/-- A stretch of the daemon: it carries the memory of its process. -/
abbrev Daemonic (α : Type) := Action Syncer DaemonCall DaemonReply α

abbrev askWorld (request : DaemonCall) : Daemonic (DaemonReply request) := Action.ask request

def worldly : Wiring Call Reply DaemonCall DaemonReply where
  wrap := .sys
  reply _ := Equiv.refl _

/-- What a pass or a batch does, as the daemon does it. -/
def onWorld {α : Type} (action : Sync α) : Daemonic α := action.through worldly

def believeNothing : Daemonic PUnit := modify fun syncer => { syncer with vfStale := true }

/-- What is given on the command line. -/
structure Options where
  /-- none is to find them anew before every pass -/
  pairs : List Pair

def pairNames (pairs : List Pair) : List String :=
  (pairs.map fun pair => pair.dev ++ ":" ++ pair.bridge).insertionSort (· ≤ ·)

def Topology.detectedPairs (topo : Topology) : List Pair :=
  (topo.autodetect (topo.links.insertionSort fun first second => first.name ≤ second.name)).pairs.map
    fun (dev, bridge) => ⟨dev, bridge⟩

/-- The pairs a pass over this reading watches. -/
def Options.watched (opts : Options) (topo : Topology) (pairs : List Pair) : List Pair :=
  if opts.pairs = [] ∧ pairNames topo.detectedPairs ≠ pairNames pairs then topo.detectedPairs else pairs

def applyCardLimits (topo : Topology) : Daemonic PUnit := do
  let devs := (← get).pairs.map (·.dev)
  let limits : Option CardLimits ← askWorld (.cardLimits devs topo)
  match limits with
  | some limits => modify fun syncer =>
      { syncer with maxMacs := limits.maxMacs, maxMacsPerCard := limits.maxMacsPerCard }
  | none => return

inductive Pass where
  | done
  | refused
deriving DecidableEq

/-- One pass over a fresh reading; whether it got as far as reconciling, and the reading
kept. -/
def runPass (opts : Options) (last : Option Topology) : Daemonic (Pass × Option Topology) := do
  let picture : Except Errno Topology ← askWorld .readTopology
  match picture with
  | .error _ => return (.refused, last)
  | .ok topo =>
      modify fun syncer => { syncer with pairs := opts.watched topo syncer.pairs }
      applyCardLimits topo
      match ← onWorld (reconcile true topo) with
      | .ok _ => return (.done, some topo)
      | .error _ => return (.refused, some topo)

/-- Whether any uplink's list is within a tenth of its own card's limit. -/
def Syncer.anyFilterFilling (syncer : Syncer) (devs : List Name) : Bool :=
  devs.any fun dev => (syncer.carried dev).any fun carried =>
    syncer.limitOf carried.card * 9 ≤ carried.occupancy * 10

/-- A fresh reading where one is needed; nothing where it failed. -/
def readPicture (needed : Bool) : Daemonic (Option Topology) := do
  if needed then
    let picture : Except Errno Topology ← askWorld .readTopology
    match picture with
    | .ok topo => return some topo
    | .error _ => return none
  else
    return none

/-- A fresh reading that has nothing to judge with, or shows a change of functions,
spends the carried answer. -/
def judgeLinks (last fresh : Option Topology) (changed : List Index) : Daemonic PUnit := do
  if changed ≠ [] then
    match fresh with
    | none => believeNothing
    | some topo =>
        let touched : Bool ← askWorld (.vfMayHaveChanged last topo changed)
        if touched then
          believeNothing

/-- The fast path over a batch.  What it could not do, the pass has to. -/
def answerBatch (topo : Option Topology) (events : Events) : Daemonic Urgency := do
  match topo with
  | none => return .now -- the pass reads again
  | some topo =>
      match ← onWorld (fastApply topo events.fdb) with
      | .error _ => return .now
      | .ok urgency => return if events.linksChanged then .now else urgency

/-- When the pass a batch wants is due, the pace of passes bounded. -/
def passAfter (urgency : Urgency) (lastPass : Nat) : Daemonic Nat := do
  let syncer ← get
  let carriers : Carriers syncer.carried ← askWorld (.walkCarried syncer.carried)
  let wait := if urgency = .now ∨ syncer.anyFilterFilling carriers.devs then passPace else ageingSettle
  let now : Nat ← askWorld .now
  return max (lastPass + wait) now

/-- One batch: register what just appeared.  Whether a full pass has to follow and what
to call it, and the reading kept. -/
def handleBatch (last : Option Topology) (events : Events) (lastPass : Nat) :
    Daemonic (Option (Nat × Trigger) × Option Topology) := do
  if events.fdb = [] ∧ events.linksChanged = false then
    return (none, last) -- something else's neighbour, not a bridge's
  else
    let trigger : Trigger := if events.fdb = [] then .interfaceChange else .forwardingChange
    let needsReading := events.linksChanged || events.fdb.any (·.1 = .newNeigh)
    let fresh ← readPicture needsReading
    judgeLinks last fresh events.changedLinks
    let urgency ← answerBatch (if needsReading then fresh else last) events
    let last := fresh.or last
    if urgency = .nothing then
      return (none, last)
    else
      let due ← passAfter urgency lastPass
      return (some (due, trigger), last)

structure Loop where
  schedule : Schedule
  /-- the previous reading -/
  last : Option Topology
  waitFailures : Nat

def Loop.start (now : Nat) : Loop where
  schedule := .new now
  last := none
  waitFailures := 0

/-- Where a turn of the loop goes on. -/
inductive Onward where
  | stops
  /-- a refused pass comes back to the top -/
  | again (loop : Loop)
  | waits (loop : Loop)

/-- The operator knocked: now, and believe nothing. -/
def hearOperator (schedule : Schedule) : Daemonic Schedule := do
  let wanted : Bool ← askWorld .resyncWanted
  if wanted then
    believeNothing
    let now : Nat ← askWorld .now
    return schedule.atOnce now .operator
  else
    return schedule

/-- The first half of a turn of the loop: the pass that is due. -/
def beforeWait (opts : Options) (loop : Loop) : Daemonic Onward := do
  let stopping : Bool ← askWorld .stopping
  if stopping then
    return .stops
  else
    let schedule ← hearOperator loop.schedule
    let now : Nat ← askWorld .now
    if schedule.passDue now then
      match ← runPass opts loop.last with
      | (.done, last) =>
          let now : Nat ← askWorld .now
          return .waits { loop with schedule := schedule.completed now, last }
      | (.refused, last) =>
          let now : Nat ← askWorld .now
          return .again { loop with schedule := schedule.retrySoon now, last }
    else
      return .waits { loop with schedule }

/-- A wait that keeps failing must not turn the daemon into a hot loop. -/
def brake (waitFailures : Nat) : Daemonic PUnit := do
  if 0 < waitFailures then
    let _ ← askWorld (.pause retryAfter)

def failedWait (loop : Loop) : Daemonic Loop := do
  brake loop.waitFailures
  let now : Nat ← askWorld .now
  believeNothing
  return { loop with
    waitFailures := loop.waitFailures + 1
    schedule := loop.schedule.atOnce now .recovery }

/-- Something arrived.  Lost notifications leave nothing to be believed. -/
def takeEvents (loop : Loop) : Daemonic Loop := do
  let received : Except Errno Events ← askWorld .recvEvents
  match received with
  | .error _ =>
      let now : Nat ← askWorld .now
      believeNothing
      return { loop with schedule := loop.schedule.atOnce now .lostEvents }
  | .ok events =>
      match ← handleBatch loop.last events loop.schedule.lastPass with
      | (some (due, trigger), last) =>
          return { loop with schedule := loop.schedule.bringForward due trigger, last }
      | (none, last) => return { loop with last }

/-- The second half: the wait, and what it brings. -/
def waitAndAnswer (loop : Loop) : Daemonic Loop := do
  let now : Nat ← askWorld .now
  let woken : Except Errno Bool ← askWorld (.wait (waitMillis (loop.schedule.waitFor now)))
  match woken with
  | .error _ => failedWait loop
  | .ok false => return { loop with waitFailures := 0 }
  | .ok true => takeEvents { loop with waitFailures := 0 }

end SriovMacSync
