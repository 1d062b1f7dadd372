import Mathlib.Data.Finset.SDiff
import SriovMacSync.Custody.Batch

namespace SriovMacSync

open Data Netlink Interaction Interaction.Action

/-! # One uplink's books

What the note of one uplink names, and which entries of its card this program put
there.  The books are sound while every such entry is named. -/

structure Ledger where
  note : Finset Mac
  ours : Finset Mac

/-- What a process may rely on. -/
inductive Regime where
  /-- other processes work on the same note, one section at a time -/
  | crowd
  /-- nobody else writes the note, and any write may fail -/
  | alone
  /-- nobody else writes the note, writes to it succeed, and the card refuses an
  addition only for what it holds -/
  | tight
deriving DecidableEq

namespace Ledger

def Sound (ledger : Ledger) : Prop := ledger.ours ⊆ ledger.note

def put (ledger : Ledger) (mac : Mac) : Ledger := { ledger with ours := insert mac ledger.ours }

def take (ledger : Ledger) (mac : Mac) : Ledger := { ledger with ours := ledger.ours \ {mac} }

def rewrite (ledger : Ledger) (note : Finset Mac) : Ledger := { ledger with note }

@[simp] theorem rewrite_note (ledger : Ledger) (note : Finset Mac) :
    (ledger.rewrite note).note = note := rfl

@[simp] theorem rewrite_ours (ledger : Ledger) (note : Finset Mac) :
    (ledger.rewrite note).ours = ledger.ours := rfl

@[simp] theorem rewrite_self (ledger : Ledger) : ledger.rewrite ledger.note = ledger := rfl

/-- The books between two sections. -/
def Settled (regime : Regime) (ledger : Ledger) : Prop :=
  ledger.Sound ∧ (regime = .tight → ledger.note ⊆ ledger.ours)

end Ledger

def NoteReading.Shows (reading : NoteReading) (note : Finset Mac) : Prop :=
  reading ≠ .unreadable ∧ reading.owned = note

namespace Regime

variable (regime : Regime)

def Shows (reading : NoteReading) (note : Finset Mac) : Prop :=
  reading.Shows note ∨ regime ≠ .tight ∧ reading = .unreadable

/-- A write to the note takes effect whole or not at all, and one that is reported
done took effect. -/
def Wrote (before intended after : Finset Mac) (done : Bool) : Prop :=
  (after = intended ∨ regime ≠ .tight ∧ done = false ∧ after = before) ∧
    (regime = .tight → done = true)

def Unlinked (before after : Finset Mac) : Prop := after = ∅ ∨ regime ≠ .tight ∧ after = before

/-- What a write to the card does to the entries of this program. -/
def Filtered (before : Ledger) (mac : Mac) : Bool → Except Errno Unit → Ledger → Prop
  | true, .ok _, after => after = before.put mac
  | true, .error .exists, after => after = before
  | true, .error _, after => regime ≠ .tight ∧ (after = before ∨ after = before.put mac)
  | false, .ok _, after => after = before.take mac
  | false, .error .noEntry, after => after = before ∧ mac ∉ before.ours
  | false, .error _, after => after = before ∨ regime ≠ .tight ∧ after = before.take mac

/-- The sections a run may enter with the books in this state. -/
def Admits (ledger : Ledger) : Section → Prop
  | .merge before after => regime = .crowd → Disjoint (before \ after) ledger.ours
  | .shed pool => regime ≠ .crowd → pool ⊆ ledger.note
  | _ => True

end Regime

/-- Every reading holds the uplink under its one name and index. -/
def Topology.Keeps (topo : Topology) (dev : Name) (home : Index) : Prop :=
  (∃ link ∈ topo.links, link.index = home) ∧
    ∀ link ∈ topo.links, link.name = dev ↔ link.index = home

/-- What the process sees of the uplink: nothing while others may write. -/
abbrev Books := Option Ledger

section Environment

variable (regime : Regime) (dev : Name) (home : Index)

/-- The requests that need the note's lock. -/
def Call.Touches : Call → Prop
  | .putNote name _ | .appendNote name _ | .removeNote name | .unlock name => name = dev
  | .setSelfFdb index _ _ => index = home
  | _ => False

/-- The uplink's record names the uplink, and no other note's does. -/
def Call.RecordsRight : Call → Prop
  | .putIndex name index => name = dev ↔ index = home
  | _ => True

def Ledger.Allows (ledger : Ledger) : Call → Prop
  | .setSelfFdb index mac false => index = home →
      (regime ≠ .crowd → mac ∈ ledger.note) ∧ (regime = .tight → mac ∈ ledger.ours)
  | .unlock name => name = dev → regime = .tight → ledger.note ⊆ ledger.ours
  | _ => True

def Books.permits (books : Books) (request : Call) : Prop :=
  request.RecordsRight dev home ∧
    match books with
    | none => ¬ request.Touches dev home
    | some ledger => ledger.Sound ∧ ledger.Allows regime dev home request

/-- What a held book becomes. -/
def Ledger.Becomes (ledger : Ledger) : (request : Call) → Reply request → Ledger → Prop
  | .lock name work, _, after => after = ledger ∧ (name = dev → regime.Admits ledger work)
  | .readNote name, reading, after =>
      after = ledger ∧ (name = dev → regime.Shows reading ledger.note)
  | .putNote name macs, done, after =>
      if name = dev then
        ∃ note, after = ledger.rewrite note ∧ regime.Wrote ledger.note macs.toFinset note done
      else after = ledger
  | .appendNote name macs, done, after =>
      if name = dev then
        ∃ note, after = ledger.rewrite note ∧
          regime.Wrote ledger.note (ledger.note ∪ macs.toFinset) note done
      else after = ledger
  | .removeNote name, _, after =>
      if name = dev then
        ∃ note, after = ledger.rewrite note ∧ regime.Unlinked ledger.note note
      else after = ledger
  | .setSelfFdb index mac add, reply, after =>
      if index = home then regime.Filtered ledger mac add reply after else after = ledger
  | _, _, after => after = ledger

/-- What is known of the replies that say which interface is which. -/
def Call.Identifies : (request : Call) → Reply request → Prop
  | .readIndex name, record =>
      (name = dev → record = none ∨ record = some home) ∧ (name ≠ dev → record ≠ some home)
  | .dumpLinks, reading => ∀ topo, reading = .ok topo → topo.Keeps dev home
  | _, _ => True

def Books.Becomes : Books → (request : Call) → Reply request → Books → Prop
  | some ledger, .unlock name, _, after =>
      after = if regime = .crowd ∧ name = dev then none else some ledger
  | some ledger, request, reply, after =>
      ∃ ledger', after = some ledger' ∧ ledger.Becomes regime dev home request reply ledger'
  | none, .lock name work, _, after =>
      if name = dev then ∃ ledger, after = some ledger ∧ ledger.Sound ∧ regime.Admits ledger work
      else after = none
  | none, _, _, after => after = none

def Books.answers (books : Books) (request : Call) (reply : Reply request) (after : Books) : Prop :=
  request.Identifies dev home reply ∧ books.Becomes regime dev home request reply after

/-- How the surroundings look to one process at work on an uplink. -/
def bookkeeping : Environment Call Reply Books where
  permits := Books.permits regime dev home
  answers := Books.answers regime dev home

end Environment

/-- Between two sections a process knows nothing of a note it shares. -/
def Books.Rest (regime : Regime) : Books → Prop
  | none => regime = .crowd
  | some ledger => regime ≠ .crowd ∧ ledger.Settled regime

/-- What a process remembers of the uplink's record. -/
def Syncer.Recalls (syncer : Syncer) (dev : Name) (home : Index) : Prop :=
  syncer.indices dev = none ∨ syncer.indices dev = some home

end SriovMacSync
