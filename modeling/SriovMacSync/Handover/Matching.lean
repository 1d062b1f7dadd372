import SriovMacSync.Memory.Taking

namespace SriovMacSync

open Data Netlink

/-! # A file held against a memory

A memory file is rewritten only where a key changes, and a key tells everything about its
row but the stamp.  So a file that is left alone stays right about the addresses, about
their ports and about who is quiet; about a stamp it is right as long as the stamp stays. -/

/-- The lines of a memory file. -/
def onFile (text : Option Text) : List PortsLine := (text.map parsePorts).getD []

def OneEach (lines : List PortsLine) : Prop :=
  ∀ line ∈ lines, ∀ other ∈ lines, line.mac = other.mac → line = other

/-- A memory changed at these addresses at most, apart from what it dropped. -/
def Stirs (macs : Set Mac) (before after : PortMap) : Prop :=
  ∀ mac ∉ macs, ∀ spot, after.lookup mac = some spot → before.lookup mac = some spot

/-- A file has the lines of these rows, the quiet ones stamped before a bound and the others
not, and the stamps the memory has of the quiet ones that were not stirred.  Only a file
still as it was found may be shifted against the memory, or have two lines of an address. -/
structure Matches (topo : Topology) (rows : PortMap) (passAt ahead bound : Nat) (stirred : Set Mac)
    (origin text : Option Text) (ports : PortMap) : Prop where
  genuine : ahead = 0 ∧ OneEach (onFile text) ∨ text.isSome ∧ origin = text
  lines : ∀ mac index seen name, rows.lookup mac = some (index, seen) → topo.nameOf index = some name →
    ∃ filed, (⟨mac, name, index, filed⟩ : PortsLine) ∈ onFile text ∧ (seen < passAt ↔ filed < bound) ∧
      (seen < passAt → mac ∉ stirred → ∀ spot, ports.lookup mac = some spot → spot.2 = filed - ahead)

variable {topo topo' : Topology} {rows ports before : PortMap} {passAt passAt' ahead bound : Nat}
  {stirred stirred' : Set Mac} {origin origin' text : Option Text}

section Stirring

variable {macs : Set Mac} {after : PortMap}

theorem Stirs.refl : Stirs macs ports ports := fun _ _ _ => id

theorem Stirs.trans (first : Stirs macs before ports) (second : Stirs macs ports after) : Stirs macs before after :=
  fun mac calm spot found => first mac calm spot (second mac calm spot found)

theorem Stirs.mono {more : Set Mac} (stirs : Stirs macs before after) (covers : macs ⊆ more) :
    Stirs more before after := fun mac calm => stirs mac fun member => calm (covers member)

theorem Stirs.retain {keep : Mac → Bool} : Stirs macs ports (retain keep ports) := by
  intro mac _ spot found
  rw [lookup_retain] at found
  split at found
  · exact found
  · cases found

theorem Stirs.noteSeen {mac : Mac} {port : Option Index} {seen : Nat} (member : mac ∈ macs) :
    Stirs macs ports (noteSeen ports mac port seen) := by
  intro other calm spot found
  have apart : other ≠ mac := fun same => calm (same ▸ member)
  unfold SriovMacSync.noteSeen at found
  split at found
  · rwa [AList.lookup_insert_ne apart] at found
  · split at found
    · rwa [AList.lookup_insert_ne apart] at found
    · exact found

end Stirring

namespace Matches

theorem stir (agrees : Matches topo rows passAt ahead bound stirred origin text before)
    (stirs : Stirs stirred before ports) : Matches topo rows passAt ahead bound stirred origin text ports where
  genuine := agrees.genuine
  lines mac index seen name found named := by
    obtain ⟨filed, listed, sides, stamped⟩ := agrees.lines mac index seen name found named
    exact ⟨filed, listed, sides, fun quiet calm spot known => stamped quiet calm spot (stirs mac calm spot known)⟩

theorem mono (agrees : Matches topo rows passAt ahead bound stirred origin text ports) (fewer : stirred ⊆ stirred')
    (found : origin = none ∨ origin = origin') :
    Matches topo rows passAt ahead bound stirred' origin' text ports where
  genuine := by
    rcases agrees.genuine with exact | ⟨some, same⟩
    · exact .inl exact
    · rcases found with none | again
      · rw [← same, none] at some
        cases some
      · exact .inr ⟨some, again ▸ same⟩
  lines mac index seen name found named := by
    obtain ⟨filed, listed, sides, stamped⟩ := agrees.lines mac index seen name found named
    exact ⟨filed, listed, sides, fun quiet calm => stamped quiet fun member => calm (fewer member)⟩

/-- Memories with one set of keys have one file. -/
theorem of_keys (plain : topo.Plain) (plain' : topo'.Plain)
    (agrees : Matches topo rows passAt ahead bound stirred origin text before)
    (same : keysOf topo' ports passAt' = keysOf topo rows passAt)
    (heard : ∀ mac spot, ports.lookup mac = some spot → spot.2 < passAt' → before.lookup mac = some spot) :
    Matches topo' ports passAt' ahead bound stirred origin text ports where
  genuine := agrees.genuine
  lines mac index seen name found named := by
    have listed : portsKey mac name index (seen < passAt') ∈ keysOf topo' ports passAt' :=
      mem_keysOf.mpr ⟨mac, index, seen, name, found, named, rfl⟩
    rw [same] at listed
    obtain ⟨mac', index', seen', name', found', named', key⟩ := mem_keysOf.mp listed
    obtain ⟨rfl, rfl, rfl, flags⟩ := portsKey_inj (plain'.isField named) (plain.isField named') key
    have quiet : seen < passAt' ↔ seen' < passAt := by simpa using flags
    obtain ⟨filed, line, sides, stamped⟩ := agrees.lines mac index seen' name found' named'
    refine ⟨filed, line, quiet.trans sides, fun silent calm spot known => ?_⟩
    obtain rfl := Option.some.inj (found.symm.trans known)
    exact stamped (quiet.mp silent) calm _ (heard mac _ known silent)

end Matches

section Writing

theorem mem_onFile_fileOf (plain : topo.Plain) {line : PortsLine} : line ∈ onFile (fileOf topo ports) ↔
    ports.lookup line.mac = some (line.index, line.seen) ∧ topo.nameOf line.index = some line.name := by
  rw [fileOf]
  split
  · rename_i none
    constructor
    · simp [onFile]
    · intro facts
      obtain ⟨found, named⟩ := facts
      have listed : portsLine line.mac line.name line.index line.seen ∈ linesOf topo ports :=
        mem_linesOf.mpr ⟨_, _, _, _, found, named, rfl⟩
      rw [none] at listed
      cases listed
  · exact mem_parsePorts_written plain

theorem oneEach_fileOf (plain : topo.Plain) : OneEach (onFile (fileOf topo ports)) := by
  intro line listed other listed' same
  obtain ⟨found, named⟩ := (mem_onFile_fileOf plain).mp listed
  obtain ⟨found', named'⟩ := (mem_onFile_fileOf plain).mp listed'
  rw [same, found'] at found
  obtain ⟨place, seen⟩ := Prod.mk.inj (Option.some.inj found)
  rw [← place, named'] at named
  obtain ⟨mac, name, index, stamp⟩ := line
  obtain ⟨mac', name', index', stamp'⟩ := other
  simp_all

/-- A file just written says what the memory says. -/
theorem Matches.written (plain : topo.Plain) :
    Matches topo ports passAt 0 passAt ∅ none (fileOf topo ports) ports where
  genuine := .inl ⟨rfl, oneEach_fileOf plain⟩
  lines mac index seen name found named := by
    refine ⟨seen, (mem_onFile_fileOf plain).mpr ⟨found, named⟩, Iff.rfl, fun _ _ spot known => ?_⟩
    obtain rfl := Option.some.inj (found.symm.trans known)
    simp

/-- A file just taken over says what the memory says, but for the shift of the stamps. -/
theorem Matches.taken {now : Nat} (some : text.isSome) : ∃ ahead bound,
    Matches topo (takeOver (believed topo text) now) (newestSeen (takeOver (believed topo text) now)) ahead bound ∅
      text text (takeOver (believed topo text) now) := by
  set ahead := ((believed topo text).map (·.seen)).foldl max 0 - now
  set taken := takeOver (believed topo text) now with taken_def
  refine ⟨ahead, if newestSeen taken = 0 then 0 else newestSeen taken + ahead, .inr ⟨some, rfl⟩, ?_⟩
  intro mac index seen name found named
  obtain ⟨line, listed, about, spot⟩ := lookup_takeOver found
  obtain ⟨place, stamp⟩ := Prod.mk.inj spot
  replace stamp : seen = line.seen - ahead := stamp
  obtain ⟨inside, bears⟩ := List.mem_filter.mp listed
  have label := Topology.nameOf_of_indexOf (of_decide_eq_true bears)
  rw [← place, named] at label
  have whole : line = ⟨mac, name, index, line.seen⟩ := by
    obtain ⟨mac', name', index', stamp'⟩ := line
    simp_all
  refine ⟨line.seen, whole ▸ inside, ?_, fun _ _ spot known => ?_⟩
  · split <;> omega
  · obtain rfl := Option.some.inj (found.symm.trans known)
    exact stamp

end Writing

end SriovMacSync
