import SriovMacSync.Custody.Batch
import SriovMacSync.Custody.Ledger

namespace SriovMacSync

open Data Netlink Interaction Interaction.Action

/-! # Removals under a note's lock

What a process knows of a note is what it names while the process holds its lock.
Under that lock it takes out only what the note names, as long as what it comes to
retire is on the note when it gets the lock. -/

/-- The addresses a section works from that were chosen before its lock. -/
def Section.victims : Section → Finset Mac
  | .retire macs => macs.toFinset
  | .shed pool => pool
  | _ => ∅

/-- What the note names, to the holder of its lock. -/
abbrev Sight := Option (Finset Mac)

/-- The requests that leave it to everybody else what the note names and who holds it. -/
def Call.LeavesNote (dev : Name) : Call → Prop
  | .lock name _ | .unlock name | .putNote name _ | .appendNote name _ | .removeNote name =>
      name ≠ dev
  | _ => True

def Call.removes : Call → Bool
  | .setSelfFdb _ _ false => true
  | _ => false

/-- What may happen inside a section that takes nothing out. -/
def Call.Tame (dev : Name) : Call → Prop
  | .lock name _ | .unlock name => name ≠ dev
  | request => request.removes = false

namespace Sight

variable (dev : Name)

def Permits (sight : Sight) : Call → Prop
  | .lock name _ => name = dev → sight = none
  | .unlock name | .putNote name _ | .appendNote name _ | .removeNote name =>
      name = dev → sight ≠ none
  | .setSelfFdb _ mac false => ∀ note, sight = some note → mac ∈ note
  | _ => True

def Becomes (sight : Sight) : (request : Call) → Reply request → Sight → Prop
  | .lock name work, _, after =>
      if name = dev then ∃ note, after = some note ∧ work.victims ⊆ note else after = sight
  | .unlock name, _, after => after = if name = dev then none else sight
  | .readNote name, reading, after =>
      after = sight ∧ (name = dev → ∀ note, sight = some note →
        reading.Shows note ∨ reading = .unreadable)
  | .putNote name _, _, after | .appendNote name _, _, after | .removeNote name, _, after =>
      if name = dev then ∃ note, after = some note else after = sight
  | _, _, after => after = sight

end Sight

/-- How one note looks to a process. -/
def guarding (dev : Name) : Environment Call Reply Sight where
  permits sight request := sight.Permits dev request
  answers sight request reply after := sight.Becomes dev request reply after

section Frames

variable {dev : Name} {sight : Sight} {note : Finset Mac} {syncer : Syncer} {α : Type}
  {action : Sync α} {post : α → Syncer → Prop}

theorem leavesNote_becomes {request : Call} {reply : Reply request} {after : Sight}
    (leaves : request.LeavesNote dev) (becomes : sight.Becomes dev request reply after) :
    after = sight := by
  cases request with
  | lock name work => exact (if_neg leaves).mp becomes
  | unlock name => exact becomes.trans (if_neg leaves)
  | putNote name macs => exact (if_neg leaves).mp becomes
  | appendNote name macs => exact (if_neg leaves).mp becomes
  | removeNote name => exact (if_neg leaves).mp becomes
  | readNote name => exact becomes.1
  | _ => exact becomes

theorem leavesNote_permits {request : Call} (leaves : request.LeavesNote dev)
    (removals : request.removes = true → sight = none) : sight.Permits dev request := by
  cases request with
  | lock name work => exact fun same => absurd same leaves
  | unlock name => exact fun same => absurd same leaves
  | putNote name macs => exact fun same => absurd same leaves
  | appendNote name macs => exact fun same => absurd same leaves
  | removeNote name => exact fun same => absurd same leaves
  | setSelfFdb index mac add =>
      cases add with
      | true => exact trivial
      | false =>
          intro note held
          cases (removals rfl).symm.trans held
  | _ => exact trivial

/-- Outside the lock, work on other notes. -/
theorem apart_safe (within : Within (·.LeavesNote dev) action post syncer) :
    Safe (guarding dev) action (fun value after sight => post value after ∧ sight = none)
      syncer none :=
  within.frame (fun _ _ outside leaves => ⟨leavesNote_permits leaves fun _ => outside,
    fun _ _ becomes => (leavesNote_becomes leaves becomes).trans outside⟩) rfl

/-- Inside the lock, work that takes nothing out and leaves the note alone. -/
theorem look_safe
    (within : Within (fun request => request.LeavesNote dev ∧ request.removes = false) action post
      syncer) :
    Safe (guarding dev) action (fun value after seen => post value after ∧ seen = sight)
      syncer sight :=
  within.frame (fun _ _ same leaves => ⟨leavesNote_permits leaves.1 fun removes =>
    absurd removes (by simp [leaves.2]), fun _ _ becomes =>
      (leavesNote_becomes leaves.1 becomes).trans same⟩) rfl

/-- Inside the lock, work that takes nothing out. -/
theorem tame_safe (within : Within (·.Tame dev) action post syncer) :
    Safe (guarding dev) action (fun value after sight => post value after ∧ sight ≠ none)
      syncer (some note) := by
  refine within.frame (fun sight request held tame => ?_) nofun
  have written {name : Name} {after : Sight}
      (becomes : if name = dev then ∃ note, after = some note else after = sight) :
      after ≠ none := by
    split at becomes
    · obtain ⟨note, rfl⟩ := becomes
      exact nofun
    · exact becomes ▸ held
  cases request with
  | lock name work =>
      refine ⟨fun same => absurd same tame, fun _ after becomes => ?_⟩
      have same : after = sight := (if_neg tame).mp becomes
      exact same ▸ held
  | unlock name =>
      refine ⟨fun same => absurd same tame, fun _ after becomes => ?_⟩
      have same : after = sight := becomes.trans (if_neg tame)
      exact same ▸ held
  | putNote name macs => exact ⟨fun _ => held, fun _ _ becomes => written becomes⟩
  | appendNote name macs => exact ⟨fun _ => held, fun _ _ becomes => written becomes⟩
  | removeNote name => exact ⟨fun _ => held, fun _ _ becomes => written becomes⟩
  | readNote name => exact ⟨trivial, fun _ _ becomes => becomes.1 ▸ held⟩
  | setSelfFdb index mac add =>
      cases add with
      | true => exact ⟨trivial, fun _ _ becomes => becomes ▸ held⟩
      | false => cases tame
  | _ => exact ⟨trivial, fun _ _ becomes => becomes ▸ held⟩

/-- A section whose work ends with the lock still held. -/
theorem section_safe {work : Section} {body : Sync α} {post : α → Syncer → Prop}
    (safe : ∀ note, work.victims ⊆ note → Safe (guarding dev) body
      (fun value after sight => post value after ∧ sight ≠ none) syncer (some note)) :
    Safe (guarding dev) (locked dev work body)
      (fun value after sight => post value after ∧ sight = none) syncer none := by
  refine safe_bind.mpr (safe_ask.mpr ⟨fun _ => rfl, fun _ _ becomes => ?_⟩)
  obtain ⟨note, rfl, noted⟩ := (if_pos rfl).mp becomes
  refine safe_bind.mpr ((safe note noted).mono fun value after sight held => ?_)
  refine safe_bind.mpr (safe_ask.mpr ⟨fun _ => held.2, fun _ _ becomes => ?_⟩)
  exact ⟨held.1, becomes.trans (if_pos rfl)⟩

end Frames

end SriovMacSync
