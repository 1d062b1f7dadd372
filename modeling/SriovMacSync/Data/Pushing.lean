import Mathlib.Data.List.Basic

namespace SriovMacSync.Data

/-! # Tables filled by edges

A table of entries, each under its key, and a list of edges whose values are pushed one
after another onto the entries their keys name.  Where the keys are distinct, every entry
ends up with the values of its own key, in the order of the edges. -/

section Pushing

variable {Entry Key Value : Type} [DecidableEq Key] (key : Entry → Key)

/-- Changes the entry that stands last under a key. -/
def amend (at' : Key) (change : Entry → Entry) : List Entry → List Entry
  | [] => []
  | entry :: rest =>
      if key entry = at' ∧ at' ∉ rest.map key then change entry :: rest
      else entry :: amend at' change rest

/-- Pushes every edge's value onto the entry of its key; an edge to no entry is dropped. -/
def pushAll (push : Entry → Value → Entry) (edges : List (Key × Value)) (table : List Entry) :
    List Entry :=
  edges.foldl (fun table edge => amend key edge.1 (push · edge.2) table) table

/-- The entries that a table has kept when each key is overwritten by the next of its name. -/
def keepLast : List Entry → List Entry
  | [] => []
  | entry :: rest => if key entry ∈ rest.map key then keepLast rest else entry :: keepLast rest

/-- The values under a key, in the order of the edges. -/
def pushedTo (edges : List (Key × Value)) (at' : Key) : List Value :=
  (edges.filter (·.1 = at')).map (·.2)

variable {key} {table : List Entry}

theorem mem_keepLast {entry : Entry} (kept : entry ∈ keepLast key table) : entry ∈ table := by
  induction table with
  | nil => exact kept
  | cons first rest ih =>
      rw [keepLast] at kept
      split at kept
      · exact List.mem_cons_of_mem _ (ih kept)
      · rcases List.mem_cons.mp kept with same | later
        · simp [same]
        · exact List.mem_cons_of_mem _ (ih later)

theorem keepLast_distinct : ((keepLast key table).map key).Nodup := by
  induction table with
  | nil => simp [keepLast]
  | cons first rest ih =>
      rw [keepLast]
      split
      · exact ih
      · rename_i fresh
        rw [List.map_cons, List.nodup_cons]
        refine ⟨fun again => ?_, ih⟩
        obtain ⟨other, kept, same⟩ := List.mem_map.mp again
        exact fresh (List.mem_map.mpr ⟨other, mem_keepLast kept, same⟩)

theorem keepLast_of_distinct (distinct : (table.map key).Nodup) : keepLast key table = table := by
  induction table with
  | nil => rfl
  | cons first rest ih =>
      rw [List.map_cons, List.nodup_cons] at distinct
      rw [keepLast, if_neg distinct.1, ih distinct.2]

theorem amend_of_distinct {at' : Key} {change : Entry → Entry} (distinct : (table.map key).Nodup) :
    amend key at' change table =
      table.map fun entry => if key entry = at' then change entry else entry := by
  induction table with
  | nil => rfl
  | cons first rest ih =>
      rw [List.map_cons, List.nodup_cons] at distinct
      have elsewhere (here : key first = at') : ∀ entry ∈ rest, key entry ≠ at' := by
        intro entry member same
        exact distinct.1 (List.mem_map.mpr ⟨entry, member, same.trans here.symm⟩)
      rw [amend]
      split
      · rename_i here
        have rest_same : rest.map (fun entry => if key entry = at' then change entry else entry) = rest := by
          rw [List.map_congr_left fun entry member => if_neg (elsewhere here.1 entry member), List.map_id']
        rw [List.map_cons, if_pos here.1, rest_same]
      · rename_i other
        have apart : key first ≠ at' := by
          intro here
          refine other ⟨here, fun again => ?_⟩
          obtain ⟨entry, member, same⟩ := List.mem_map.mp again
          exact elsewhere here entry member same
        rw [List.map_cons, if_neg apart, ih distinct.2]

theorem amend_keys {at' : Key} {change : Entry → Entry} (keeps : ∀ entry, key (change entry) = key entry) :
    (amend key at' change table).map key = table.map key := by
  induction table with
  | nil => rfl
  | cons first rest ih =>
      rw [amend]
      split
      · rw [List.map_cons, List.map_cons, keeps]
      · rw [List.map_cons, List.map_cons, ih]

theorem pushAll_keys {push : Entry → Value → Entry} {edges : List (Key × Value)}
    (keeps : ∀ entry value, key (push entry value) = key entry) :
    (pushAll key push edges table).map key = table.map key := by
  induction edges generalizing table with
  | nil => rfl
  | cons edge rest ih =>
      have pushed := @ih (amend key edge.1 (push · edge.2) table)
      rw [pushAll] at pushed
      rw [pushAll, List.foldl_cons, pushed, amend_keys fun entry => keeps entry edge.2]

/-- Every entry gets the values of its own key, in their order. -/
theorem pushAll_of_distinct {push : Entry → Value → Entry} {edges : List (Key × Value)}
    (keeps : ∀ entry value, key (push entry value) = key entry) (distinct : (table.map key).Nodup) :
    pushAll key push edges table =
      table.map fun entry => (pushedTo edges (key entry)).foldl push entry := by
  induction edges generalizing table with
  | nil => simp [pushAll, pushedTo]
  | cons edge rest ih =>
      have keys : (amend key edge.1 (push · edge.2) table).map key = table.map key := by
        rw [amend_of_distinct distinct, List.map_map]
        apply List.map_congr_left
        intro entry _
        by_cases here : key entry = edge.1
        · simp [here, keeps]
        · simp [here]
      have pushed := ih (keys ▸ distinct)
      rw [pushAll] at pushed
      rw [pushAll, List.foldl_cons, pushed, amend_of_distinct distinct, List.map_map]
      apply List.map_congr_left
      intro entry _
      by_cases here : key entry = edge.1
      · simp [pushedTo, here, keeps]
      · simp [pushedTo, here, Ne.symm here]

variable {Source : Type}

theorem pushedTo_append {first second : List (Key × Value)} {at' : Key} :
    pushedTo (first ++ second) at' = pushedTo first at' ++ pushedTo second at' := by
  simp [pushedTo]

theorem pushedTo_flatMap {sources : List Source} {edges : Source → List (Key × Value)} {at' : Key} :
    pushedTo (sources.flatMap edges) at' = sources.flatMap fun source => pushedTo (edges source) at' := by
  induction sources with
  | nil => rfl
  | cons source rest ih => rw [List.flatMap_cons, pushedTo_append, ih, List.flatMap_cons]

/-- The sources that name a key, for edges each source states one of at most. -/
theorem pushedTo_filterMap {sources : List Source} {names : Source → Option Key}
    {value : Source → Value} {at' : Key} :
    pushedTo (sources.filterMap fun source => (names source).map (·, value source)) at' =
      (sources.filter (names · = some at')).map value := by
  induction sources with
  | nil => rfl
  | cons source rest ih =>
      cases named : names source with
      | none => simpa [pushedTo, named] using ih
      | some key =>
          by_cases here : key = at'
          · simpa [pushedTo, named, here] using ih
          · simpa [pushedTo, named, here] using ih

theorem pushedTo_map {keys : List Key} {value : Value} {at' : Key} :
    pushedTo (keys.map (·, value)) at' = (keys.filter (· = at')).map fun _ => value := by
  rw [pushedTo, List.filter_map, List.map_map]
  rfl

end Pushing

end SriovMacSync.Data
