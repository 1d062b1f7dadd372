import SriovMacSync.Sync.Decide

namespace SriovMacSync

open Data Netlink Interaction

/-! The writes to a card: additions note first, removals card first, both under
the note's lock. -/

/-- One filter write after another, with what the kernel said to each. -/
def setEach (index : Index) (add : Bool) : List Mac → Sync (List (Mac × Except Errno Unit))
  | [] => return []
  | mac :: rest => do
      let answer : Except Errno Unit ← ask (.setSelfFdb index mac add)
      return (mac, answer) :: (← setEach index add rest)

def answeredOk (answers : List (Mac × Except Errno Unit)) : List Mac :=
  answers.filterMap fun entry =>
    match entry.2 with
    | .ok _ => some entry.1
    | .error _ => none

def answeredWith (reason : Errno) (answers : List (Mac × Except Errno Unit)) : List Mac :=
  answers.filterMap fun entry =>
    match entry.2 with
    | .ok _ => none
    | .error errno => if errno = reason then some entry.1 else none

/-- The writes the kernel refused for another reason than `reason`. -/
def refusedBut (reason : Errno) (answers : List (Mac × Except Errno Unit)) : List (Mac × Errno) :=
  answers.filterMap fun entry =>
    match entry.2 with
    | .ok _ => none
    | .error errno => if errno = reason then none else some (entry.1, errno)

theorem mem_answeredOk {answers : List (Mac × Except Errno Unit)} {mac : Mac} :
    mac ∈ answeredOk answers ↔ (mac, .ok ()) ∈ answers := by
  refine List.mem_filterMap.trans ⟨?_, fun answered => ⟨_, answered, rfl⟩⟩
  rintro ⟨⟨other, reply⟩, member, found⟩
  cases reply <;> simp_all

theorem mem_answeredWith {answers : List (Mac × Except Errno Unit)} {reason : Errno} {mac : Mac} :
    mac ∈ answeredWith reason answers ↔ (mac, .error reason) ∈ answers := by
  refine List.mem_filterMap.trans ⟨?_, fun answered => ⟨_, answered, by simp⟩⟩
  rintro ⟨⟨other, reply⟩, member, found⟩
  cases reply with
  | ok done => simp at found
  | error errno =>
      obtain ⟨rfl, rfl⟩ : errno = reason ∧ other = mac := by simpa using found
      exact member

theorem mem_refusedBut {answers : List (Mac × Except Errno Unit)} {reason : Errno} {mac : Mac} :
    mac ∈ (refusedBut reason answers).map (·.1) ↔
      ∃ errno, errno ≠ reason ∧ (mac, .error errno) ∈ answers := by
  constructor
  · rintro member
    obtain ⟨⟨other, errno⟩, refused, rfl⟩ := List.mem_map.mp member
    obtain ⟨⟨other, reply⟩, answered, found⟩ := List.mem_filterMap.mp refused
    cases reply with
    | ok done => simp at found
    | error errno' =>
        obtain ⟨apart, rfl, rfl⟩ : errno' ≠ reason ∧ other = _ ∧ errno' = _ := by simpa using found
        exact ⟨errno', apart, answered⟩
  · rintro ⟨errno, apart, answered⟩
    exact List.mem_map.mpr ⟨(mac, errno), List.mem_filterMap.mpr ⟨_, answered, by simp [apart]⟩, rfl⟩

/-- What a registration attempt actually achieved. -/
structure Registered where
  put : List Mac
  failures : List (Mac × Errno)

/-- Register a batch note first.  A line this call added comes back out when the
card already holds the address for somebody else; a write that failed for any
other reason keeps its line. -/
def registerBatchLocked (dev : Name) (index : Index) (macs : List Mac) :
    Sync (Option Registered) :=
  locked dev .register do
    match ← appendOwnedLocked dev macs with
    | none => return none
    | some fresh =>
        let answers ← setEach index true macs
        let unclaim := (answeredWith .exists answers).filter (· ∈ fresh)
        if unclaim ≠ [] then
          let _ ← unnoteLocked dev unclaim
        return some { put := answeredOk answers, failures := refusedBut .exists answers }

/-- What a locked removal achieved. -/
structure Retired where
  /-- out of the card and off the note: removed now, or found absent -/
  dropped : List Mac
  /-- the share of `dropped` the card really let go -/
  removed : List Mac
  /-- still in the card and still on the note -/
  failed : List (Mac × Errno)

def absentOrOk (answers : List (Mac × Except Errno Unit)) : List Mac :=
  answers.filterMap fun entry =>
    match entry.2 with
    | .ok _ => some entry.1
    | .error errno => if errno = .noEntry then some entry.1 else none

theorem mem_absentOrOk {answers : List (Mac × Except Errno Unit)} {mac : Mac} :
    mac ∈ absentOrOk answers ↔ (mac, .ok ()) ∈ answers ∨ (mac, .error .noEntry) ∈ answers := by
  refine List.mem_filterMap.trans ⟨?_, ?_⟩
  · rintro ⟨⟨other, reply⟩, member, found⟩
    cases reply with
    | ok done =>
        obtain rfl : other = mac := by simpa using found
        exact .inl member
    | error errno =>
        obtain ⟨rfl, rfl⟩ : errno = .noEntry ∧ other = mac := by simpa using found
        exact .inr member
  · rintro (answered | answered)
    · exact ⟨_, answered, rfl⟩
    · exact ⟨_, answered, rfl⟩

/-- Take addresses out of the card and off the note: card first, and the note
settled only for what the card let go. -/
def retire (work : Section) (dev : Name) (index : Index) (macs : List Mac) : Sync Retired :=
  locked dev work do
    let answers ← setEach index false macs
    let dropped := absentOrOk answers
    forgetLocked dev dropped
    return { dropped, removed := answeredOk answers, failed := refusedBut .noEntry answers }

/-- Take every one of `owned` back out of the filter: how many are gone, and the
set that could not be removed and stays owned. -/
def unregisterAll (index : Index) (owned : Finset Mac) : Sync (Nat × Finset Mac) := do
  let macs : Arrangement owned ← ask (.walkMacs owned)
  let answers ← setEach index false macs.list
  return ((absentOrOk answers).length, ((refusedBut .noEntry answers).map (·.1)).toFinset)

/-- Each interface's own list, read once per batch. -/
abbrev ReadBack := Index → Option (Finset Mac)

def readBack (index : Index) (cache : ReadBack) :
    Sync (Except Errno (Finset Mac × ReadBack)) := do
  match cache index with
  | some held => return .ok (held, cache)
  | none =>
      let answer : Except Errno (List FdbEntry) ← ask (.dumpFdbOf index)
      match answer with
      | .error errno => return .error errno
      | .ok entries =>
          let held := selfList entries index
          return .ok (held, Function.update cache index (some held))

end SriovMacSync
