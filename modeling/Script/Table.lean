/-!
# Tables

A table maps texts to values and keeps them in the order of their first insertion. Writing a key
again replaces its value in place, so no key occurs twice.

* `get?_insert_self`, `get?_insert_of_ne`: a read after a write gives what was written, and
  other keys are as before.
* `mem_entries_iff`, `contains_iff`: the entries are the keys with what is read at them.
-/

namespace Script

/-- A finite map from texts, in insertion order. -/
structure Table (α : Type) where
  entries : List (String × α) := []
  /-- Each key has one entry. -/
  distinct : (entries.map (·.1)).Nodup := by exact .nil
deriving DecidableEq, Repr

namespace Table

variable {α : Type}

/-- The table with no keys. -/
def empty : Table α := {}

instance : Inhabited (Table α) := ⟨empty⟩

/-- The value of a key. -/
def get? (table : Table α) (key : String) : Option α := table.entries.lookup key

/-- Whether a key has a value. -/
def contains (table : Table α) (key : String) : Bool := (table.get? key).isSome

/-- The keys in order. -/
def keys (table : Table α) : List String := table.entries.map (·.1)

/-- The number of keys. -/
def size (table : Table α) : Nat := table.entries.length

/-- Entries with a key written. -/
def insertEntry (key : String) (value : α) : List (String × α) → List (String × α)
  | [] => [(key, value)]
  | (k, v) :: rest =>
    if k = key then (key, value) :: rest else (k, v) :: insertEntry key value rest

theorem keys_insertEntry (key : String) (value : α) (entries : List (String × α)) :
    (insertEntry key value entries).map (·.1) =
      if key ∈ entries.map (·.1) then entries.map (·.1) else entries.map (·.1) ++ [key] := by
  induction entries with
  | nil => rfl
  | cons entry rest ih =>
    obtain ⟨k, v⟩ := entry
    unfold insertEntry
    by_cases here : k = key
    · simp [here]
    · have there : ¬ key = k := fun same => here same.symm
      rw [if_neg here, List.map_cons, ih]
      by_cases later : key ∈ rest.map (·.1)
      · simp [later]
      · simp [later, there]

/-- Writing a key adds it at most once. -/
theorem nodup_insertEntry (key : String) (value : α) {entries : List (String × α)}
    (distinct : (entries.map (·.1)).Nodup) :
    ((insertEntry key value entries).map (·.1)).Nodup := by
  rw [keys_insertEntry]
  split
  · exact distinct
  · rename_i fresh
    refine List.nodup_append.mpr ⟨distinct, by simp, ?_⟩
    intro k member k' last same
    rw [List.mem_singleton] at last
    exact fresh (last ▸ same ▸ member)

/-- The table with a key written. -/
def insert (table : Table α) (key : String) (value : α) : Table α :=
  ⟨insertEntry key value table.entries, nodup_insertEntry key value table.distinct⟩

/-- The table of some entries, a later one replacing an earlier one of the same key. -/
def ofList (entries : List (String × α)) : Table α :=
  entries.foldl (fun table (key, value) => table.insert key value) empty

theorem lookup_insertEntry (key k : String) (value : α) (entries : List (String × α)) :
    (insertEntry key value entries).lookup k =
      if k = key then some value else entries.lookup k := by
  induction entries with
  | nil =>
    by_cases h : k = key
    · simp [insertEntry, h]
    · simp [insertEntry, List.lookup_cons, beq_false_of_ne h, h]
  | cons entry rest ih =>
    obtain ⟨k', v⟩ := entry
    unfold insertEntry
    by_cases here : k' = key
    · subst here
      by_cases h : k = k'
      · simp [h]
      · simp [List.lookup_cons, beq_false_of_ne h, h]
    · rw [if_neg here]
      by_cases h : k = k'
      · subst h
        simp [here]
      · simp [List.lookup_cons, beq_false_of_ne h, ih]

@[simp]
theorem get?_empty (key : String) : (empty : Table α).get? key = none := rfl

@[simp]
theorem get?_insert_self (table : Table α) (key : String) (value : α) :
    (table.insert key value).get? key = some value := by
  simp [get?, insert, lookup_insertEntry]

theorem get?_insert_of_ne (table : Table α) {key k : String} (value : α) (other : k ≠ key) :
    (table.insert key value).get? k = table.get? k := by
  simp [get?, insert, lookup_insertEntry, other]

/-- The entries of a table are its keys with their values. -/
theorem mem_entries_iff {table : Table α} {key : String} {value : α} :
    (key, value) ∈ table.entries ↔ table.get? key = some value := by
  obtain ⟨entries, distinct⟩ := table
  unfold get?
  constructor
  · intro member
    obtain ⟨before, behind, rfl⟩ := List.append_of_mem member
    rw [List.map_append, List.map_cons, List.nodup_append] at distinct
    refine List.lookup_eq_some_iff.mpr ⟨before, behind, rfl, ?_⟩
    intro entry earlier
    rw [bne_iff_ne]
    intro same
    exact distinct.2.2 _ (List.mem_map_of_mem earlier) _ List.mem_cons_self same.symm
  · intro found
    obtain ⟨before, behind, split, _⟩ := List.lookup_eq_some_iff.mp found
    rw [split]
    exact List.mem_append_right _ List.mem_cons_self

theorem contains_iff {table : Table α} {key : String} :
    table.contains key = true ↔ key ∈ table.keys := by
  unfold contains keys
  rw [Option.isSome_iff_exists, List.mem_map]
  constructor
  · rintro ⟨value, found⟩
    exact ⟨(key, value), mem_entries_iff.mpr found, rfl⟩
  · rintro ⟨⟨_, value⟩, member, rfl⟩
    exact ⟨value, mem_entries_iff.mp member⟩

/-! ### Tables with other values -/

variable {β : Type}

/-- The table with every value changed. -/
def map (f : α → β) (table : Table α) : Table β :=
  ⟨table.entries.map fun entry => (entry.1, f entry.2), by
    rw [List.map_map]
    exact table.distinct⟩

theorem eq_of_entries {first second : Table α} (same : first.entries = second.entries) :
    first = second := by
  cases first
  cases same
  rfl

theorem get?_map (f : α → β) (table : Table α) (key : String) :
    (table.map f).get? key = (table.get? key).map f := by
  obtain ⟨entries, distinct⟩ := table
  show (entries.map fun entry => (entry.1, f entry.2)).lookup key = (entries.lookup key).map f
  clear distinct
  induction entries with
  | nil => rfl
  | cons entry rest ih =>
    rw [List.map_cons, List.lookup_cons, List.lookup_cons, ih]
    split <;> rfl

theorem map_insert (f : α → β) (table : Table α) (key : String) (value : α) :
    (table.insert key value).map f = (table.map f).insert key (f value) := by
  apply eq_of_entries
  obtain ⟨entries, distinct⟩ := table
  show (insertEntry key value entries).map (fun entry => (entry.1, f entry.2)) =
    insertEntry key (f value) (entries.map fun entry => (entry.1, f entry.2))
  clear distinct
  induction entries with
  | nil => rfl
  | cons entry rest ih =>
    obtain ⟨k, v⟩ := entry
    rw [List.map_cons, insertEntry, insertEntry]
    by_cases here : k = key
    · rw [if_pos here, if_pos here, List.map_cons]
    · rw [if_neg here, if_neg here, List.map_cons, ih]

end Table

end Script
