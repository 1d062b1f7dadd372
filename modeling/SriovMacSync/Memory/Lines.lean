import SriovMacSync.Sync.Ports
import SriovMacSync.Topology.Anatomy

namespace SriovMacSync

open Data Netlink

/-! # What a memory file says

The file of a quiet memory is written one line an address and read back through the
names its ports bear.  Nothing of what was written is lost on the way, as long as the
interfaces have the names the kernel lets them have. -/

/-- No interface name is empty or has a blank in it. -/
def Topology.Plain (topo : Topology) : Prop := ∀ link ∈ topo.links, IsField link.name.toList

/-- The lines of a memory file that a process takes over. -/
def believed (topo : Topology) (text : Option Text) : List PortsLine :=
  ((text.map parsePorts).getD []).filter fun line => topo.indexOf line.name = some line.index

section Lines

variable {topo : Topology} {ports : PortMap} {index : Index} {name : Name} {mac : Mac} {seen : Nat}

theorem Topology.nameOf_of_indexOf (found : topo.indexOf name = some index) :
    topo.nameOf index = some name := by
  obtain ⟨link, got, -, named⟩ := Topology.get_of_indexOf found
  rw [Topology.get, found, Option.bind_some] at got
  rw [Topology.nameOf, got, Option.map_some, named]

theorem Topology.Plain.isField (plain : topo.Plain) (named : topo.nameOf index = some name) :
    IsField name.toList := by
  obtain ⟨link, found, rfl⟩ := Option.map_eq_some_iff.mp named
  exact plain link (List.mem_of_find?_eq_some found)

theorem isField_fieldsOf (valid : IsField name.toList) :
    ∀ field ∈ fieldsOf mac name index seen, IsField field := by
  simp only [fieldsOf, List.forall_mem_cons, List.not_mem_nil, false_imp_iff, implies_true, and_true]
  exact ⟨isField_formatMac mac, valid, isField_decimal _, isField_decimal _⟩

theorem fields_portsLine (valid : IsField name.toList) :
    splitWhitespace (portsLine mac name index seen) = fieldsOf mac name index seen :=
  splitWhitespace_intercalate (by simp [fieldsOf]) (isField_fieldsOf valid)

/-- A line comes back as it was written. -/
theorem parsePortsLine_portsLine (valid : IsField name.toList) :
    parsePortsLine (portsLine mac name index seen) = some ⟨mac, name, index, seen⟩ := by
  have bounded : index.toNat < UInt32.size := index.toNat_lt
  rw [parsePortsLine, fields_portsLine valid]
  simp [fieldsOf, parseMac_formatMac, parseIndex, parseDecimal_decimal, bounded]

theorem mem_intercalate_blank {fields : List Text} {char : Char}
    (member : char ∈ [' '].intercalate fields) : char = ' ' ∨ ∃ field ∈ fields, char ∈ field := by
  induction fields with
  | nil => simp at member
  | cons field rest ih =>
      cases rest with
      | nil => exact .inr ⟨field, by simp, by simpa using member⟩
      | cons next rest =>
          rw [List.intercalate_cons_cons, List.append_assoc, List.mem_append] at member
          rcases member with here | later
          · exact .inr ⟨field, by simp, here⟩
          · rcases List.mem_cons.mp later with blank | later
            · exact .inl blank
            · obtain same | ⟨other, listed, inside⟩ := ih later
              · exact .inl same
              · exact .inr ⟨other, .tail _ listed, inside⟩

theorem isLine_portsLine (valid : IsField name.toList) : IsLine (portsLine mac name index seen) := by
  have clean (char : Char) (blank : isWhitespace char = true) (apart : char ≠ ' ') :
      char ∉ portsLine mac name index seen := by
    intro member
    rcases mem_intercalate_blank member with same | ⟨field, listed, inside⟩
    · exact apart same
    · have inked := (isField_fieldsOf valid field listed).2 char inside
      rw [inked] at blank
      cases blank
  refine ⟨clean '\n' (by decide) (by decide), fun last => ?_⟩
  exact clean '\r' (by decide) (by decide) (List.mem_of_getLast? last)

theorem mem_linesOf {line : Text} : line ∈ linesOf topo ports ↔
    ∃ mac index seen name, ports.lookup mac = some (index, seen) ∧ topo.nameOf index = some name ∧
      line = portsLine mac name index seen := by
  simp only [linesOf, rowsOf, List.mem_insertionSort, List.mem_filterMap, Option.map_eq_some_iff]
  constructor
  · rintro ⟨⟨mac, index, seen⟩, listed, name, named, rfl⟩
    exact ⟨mac, index, seen, name, AList.mem_lookup_iff.mpr listed, named, rfl⟩
  · rintro ⟨mac, index, seen, name, found, named, rfl⟩
    exact ⟨⟨mac, index, seen⟩, AList.mem_lookup_iff.mp found, name, named, rfl⟩

/-- What is written of a memory is read back, apart from the ports without a name. -/
theorem mem_parsePorts_written (plain : topo.Plain) {line : PortsLine} :
    line ∈ parsePorts (joinLines (portsFormat :: linesOf topo ports)) ↔
      ports.lookup line.mac = some (line.index, line.seen) ∧
        topo.nameOf line.index = some line.name := by
  have whole : ∀ text ∈ portsFormat :: linesOf topo ports, IsLine text := by
    intro text listed
    rcases List.mem_cons.mp listed with rfl | listed
    · exact ⟨by decide, by decide⟩
    · obtain ⟨mac, index, seen, name, -, named, rfl⟩ := mem_linesOf.mp listed
      exact isLine_portsLine (plain.isField named)
  rw [parsePorts, lines_joinLines (by simp) whole]
  dsimp only
  rw [if_pos rfl, List.mem_filterMap]
  constructor
  · rintro ⟨text, listed, read⟩
    obtain ⟨mac, index, seen, name, found, named, rfl⟩ := mem_linesOf.mp listed
    rw [parsePortsLine_portsLine (plain.isField named)] at read
    obtain rfl := Option.some.inj read
    exact ⟨found, named⟩
  · rintro ⟨found, named⟩
    exact ⟨_, mem_linesOf.mpr ⟨_, _, _, _, found, named, rfl⟩,
      parsePortsLine_portsLine (plain.isField named)⟩

/-- What is written of a memory is taken over again for every port that still bears its
name. -/
theorem mem_believed_written (plain : topo.Plain) {line : PortsLine} :
    line ∈ believed topo (some (joinLines (portsFormat :: linesOf topo ports))) ↔
      ports.lookup line.mac = some (line.index, line.seen) ∧
        topo.indexOf line.name = some line.index := by
  rw [believed, List.mem_filter, Option.map_some, Option.getD_some, mem_parsePorts_written plain,
    decide_eq_true_eq]
  constructor
  · rintro ⟨⟨found, -⟩, bears⟩
    exact ⟨found, bears⟩
  · rintro ⟨found, bears⟩
    exact ⟨⟨found, Topology.nameOf_of_indexOf bears⟩, bears⟩

/-- A key tells everything about its row but the stamp. -/
theorem portsKey_inj {other : Mac} {index' : Index} {name' : Name} {quiet quiet' : Bool}
    (valid : IsField name.toList) (valid' : IsField name'.toList)
    (same : portsKey mac name index quiet = portsKey other name' index' quiet') :
    mac = other ∧ name = name' ∧ index = index' ∧ quiet = quiet' := by
  have fields := congrArg splitWhitespace same
  rw [portsKey, portsKey, splitWhitespace_intercalate (by simp [fieldsOf]) (isField_fieldsOf valid),
    splitWhitespace_intercalate (by simp [fieldsOf]) (isField_fieldsOf valid')] at fields
  simp only [fieldsOf, List.cons.injEq, and_true] at fields
  obtain ⟨macs, names, indices, flags⟩ := fields
  have parsed := congrArg parseMac macs
  rw [parseMac_formatMac, parseMac_formatMac] at parsed
  have numbers := congrArg parseDecimal indices
  rw [parseDecimal_decimal, parseDecimal_decimal] at numbers
  have bits := congrArg parseDecimal flags
  rw [parseDecimal_decimal, parseDecimal_decimal] at bits
  have flag : quiet = quiet' := by
    cases quiet <;> cases quiet' <;> simp at bits ⊢
  exact ⟨Option.some.inj parsed, String.toList_inj.mp names, UInt32.toNat_inj.mp (Option.some.inj numbers), flag⟩

theorem mem_keysOf {passAt : Nat} {key : Text} : key ∈ keysOf topo ports passAt ↔
    ∃ mac index seen name, ports.lookup mac = some (index, seen) ∧ topo.nameOf index = some name ∧
      key = portsKey mac name index (seen < passAt) := by
  simp only [keysOf, rowsOf, List.mem_insertionSort, List.mem_filterMap, Option.map_eq_some_iff]
  constructor
  · rintro ⟨⟨mac, index, seen⟩, listed, name, named, rfl⟩
    exact ⟨mac, index, seen, name, AList.mem_lookup_iff.mpr listed, named, rfl⟩
  · rintro ⟨mac, index, seen, name, found, named, rfl⟩
    exact ⟨⟨mac, index, seen⟩, AList.mem_lookup_iff.mp found, name, named, rfl⟩

end Lines

end SriovMacSync
