/-!
# Ordered maps

Maps from text keys that remember the order in which keys came first. Setting a key again keeps
its place and replaces its value. `Entries` holds the operations on plain lists of entries with keys
of any kind, as they occur inside recursive data; `OrderedMap` is such a list together with the proof
that no key occurs twice.
-/

namespace ComponentGen

namespace Entries

variable {κ α : Type}

/-- The value that is found under a key is listed with it. -/
theorem mem_of_lookup [BEq κ] [LawfulBEq κ] {key : κ} {value : α} {entries : List (κ × α)}
    (found : entries.lookup key = some value) : (key, value) ∈ entries := by
  obtain ⟨before, after, split, -⟩ := List.lookup_eq_some_iff.1 found
  rw [split]
  exact List.mem_append_right before List.mem_cons_self

variable [DecidableEq κ]

/-- Set the value of a key: in place when the key is there, at the end otherwise. -/
def put (key : κ) (value : α) : List (κ × α) → List (κ × α)
  | [] => [(key, value)]
  | (k, v) :: rest =>
    if k = key then (key, value) :: rest else (k, v) :: put key value rest

/-- Set the entries of a list one after the other. -/
def putAll (entries new : List (κ × α)) : List (κ × α) :=
  new.foldl (fun acc entry => put entry.1 entry.2 acc) entries

/-- Setting a key adds it at the end exactly when it is new, and leaves all other keys in place. -/
theorem keys_put (key : κ) (value : α) (entries : List (κ × α)) :
    (put key value entries).map Prod.fst =
      if key ∈ entries.map Prod.fst then entries.map Prod.fst
      else entries.map Prod.fst ++ [key] := by
  induction entries with
  | nil => simp [put]
  | cons entry rest ih =>
    obtain ⟨k, v⟩ := entry
    by_cases same : k = key
    · simp [put, same]
    · simp only [put, if_neg same, List.map_cons, ih, List.mem_cons, Ne.symm same, false_or]
      split <;> simp

/-- Setting a key keeps the keys distinct. -/
theorem nodup_put (key : κ) (value : α) {entries : List (κ × α)}
    (distinct : (entries.map Prod.fst).Nodup) :
    ((put key value entries).map Prod.fst).Nodup := by
  rw [keys_put]
  split
  · exact distinct
  · rename_i absent
    exact List.nodup_append.2 ⟨distinct, by simp, by
      intro k hk l hl same
      simp only [List.mem_singleton] at hl
      exact absent (hl ▸ same ▸ hk)⟩

/-- Setting entries one after the other keeps the keys distinct. -/
theorem nodup_putAll (new : List (κ × α)) {entries : List (κ × α)}
    (distinct : (entries.map Prod.fst).Nodup) :
    ((putAll entries new).map Prod.fst).Nodup := by
  induction new generalizing entries with
  | nil => exact distinct
  | cons entry rest ih => exact ih (nodup_put entry.1 entry.2 distinct)

/-- After setting a key, the key has the new value and every other key its old one. -/
theorem lookup_put [BEq κ] [LawfulBEq κ] (key other : κ) (value : α) (entries : List (κ × α)) :
    (put key value entries).lookup other =
      if other = key then some value else entries.lookup other := by
  induction entries with
  | nil =>
    by_cases same : other = key
    · simp [put, same]
    · simp [put, List.lookup_cons, beq_false_of_ne same, same]
  | cons entry rest ih =>
    obtain ⟨k, v⟩ := entry
    by_cases here : k = key
    · by_cases same : other = key
      · simp [put, here, same]
      · simp [put, here, List.lookup_cons, beq_false_of_ne same, same]
    · by_cases same : other = key
      · subst same
        simp [put, here, List.lookup_cons, beq_false_of_ne (Ne.symm here), ih]
      · simp [put, here, List.lookup_cons, ih, same]

/-- Setting a key brings in no other entry than the new one. -/
theorem mem_of_mem_put {key : κ} {value : α} {entries : List (κ × α)}
    {entry : κ × α} (member : entry ∈ put key value entries) :
    entry = (key, value) ∨ entry ∈ entries := by
  induction entries with
  | nil => simpa [put] using member
  | cons first rest ih =>
    obtain ⟨k, v⟩ := first
    unfold put at member
    split at member
    · rcases List.mem_cons.1 member with same | later
      · exact .inl same
      · exact .inr (List.mem_cons_of_mem _ later)
    · rcases List.mem_cons.1 member with same | later
      · exact .inr (same ▸ List.mem_cons_self)
      · exact (ih later).imp_right (List.mem_cons_of_mem _)

end Entries

/-- A map from text keys that keeps its keys in the order of their first setting. -/
structure OrderedMap (α : Type) where
  entries : List (String × α)
  nodup_keys : (entries.map Prod.fst).Nodup
deriving DecidableEq

namespace OrderedMap

variable {α β : Type}

/-- Two maps with the same entries in the same order are equal. -/
theorem ext {m n : OrderedMap α} (same : m.entries = n.entries) : m = n := by
  cases m
  cases n
  simpa using same

/-- The map without entries. -/
def empty : OrderedMap α := ⟨[], by simp⟩

instance : Inhabited (OrderedMap α) := ⟨empty⟩

instance : EmptyCollection (OrderedMap α) := ⟨empty⟩

/-- Set the value of a key: in place when the key is there, at the end otherwise. -/
def insert (m : OrderedMap α) (key : String) (value : α) : OrderedMap α :=
  ⟨Entries.put key value m.entries, Entries.nodup_put key value m.nodup_keys⟩

/-- Set several keys one after the other. -/
def insertAll (m : OrderedMap α) (new : List (String × α)) : OrderedMap α :=
  ⟨Entries.putAll m.entries new, Entries.nodup_putAll new m.nodup_keys⟩

/-- The map that results from setting the entries of a list one after the other. -/
def ofList (entries : List (String × α)) : OrderedMap α :=
  empty.insertAll entries

/-- The value of a key, if the key is there. -/
def get? (m : OrderedMap α) (key : String) : Option α :=
  m.entries.lookup key

/-- The key has a value. -/
def contains (m : OrderedMap α) (key : String) : Bool :=
  (m.get? key).isSome

/-- The keys in the order of their first setting. -/
def keys (m : OrderedMap α) : List String :=
  m.entries.map Prod.fst

/-- The values in the order of their keys. -/
def values (m : OrderedMap α) : List α :=
  m.entries.map Prod.snd

/-- How many keys have a value. -/
def size (m : OrderedMap α) : Nat :=
  m.entries.length

/-- No key has a value. -/
def isEmpty (m : OrderedMap α) : Bool :=
  m.entries.isEmpty

/-- Change every value and keep the keys. -/
def mapValues (f : α → β) (m : OrderedMap α) : OrderedMap β :=
  ⟨m.entries.map fun entry => (entry.1, f entry.2), by
    simpa [Function.comp_def] using m.nodup_keys⟩

@[simp] theorem entries_empty : (empty : OrderedMap α).entries = [] := rfl

@[simp] theorem get?_empty (key : String) : (empty : OrderedMap α).get? key = none := rfl

/-- Setting a key changes the value of that key only. -/
theorem get?_insert (m : OrderedMap α) (key other : String) (value : α) :
    (m.insert key value).get? other = if other = key then some value else m.get? other :=
  Entries.lookup_put key other value m.entries

/-- Setting a key keeps the order of the keys; a new key comes last. -/
theorem keys_insert (m : OrderedMap α) (key : String) (value : α) :
    (m.insert key value).keys = if key ∈ m.keys then m.keys else m.keys ++ [key] :=
  Entries.keys_put key value m.entries

@[simp] theorem keys_mapValues (f : α → β) (m : OrderedMap α) : (m.mapValues f).keys = m.keys := by
  simp [keys, mapValues]

@[simp] theorem entries_mapValues (f : α → β) (m : OrderedMap α) :
    (m.mapValues f).entries = m.entries.map fun entry => (entry.1, f entry.2) := rfl

end OrderedMap

end ComponentGen
