import ComponentGen.OrderedMap
import Mathlib.Data.List.Induction
import Mathlib.Data.List.Nodup
/-!
# Entries of ordered maps

What the entries of a map say about its look-up, and what setting many entries one after the other
comes to. Setting the entries of a map built from a list is the same as setting the list itself:
of a repeated key only the first place and the last value count. So a map that is laid over another
one keeps the order of the keys below and adds its own behind them.
-/

namespace ComponentGen

namespace Entries

variable {κ α : Type} [DecidableEq κ]

/-- Entries set one after the other come from the old ones or from the new ones. -/
theorem mem_of_mem_putAll {new entries : List (κ × α)} {entry : κ × α}
    (member : entry ∈ putAll entries new) : entry ∈ new ∨ entry ∈ entries := by
  induction new generalizing entries with
  | nil => exact .inr member
  | cons first rest ih =>
      rcases ih member with later | now
      · exact .inl (List.mem_cons_of_mem _ later)
      · rcases mem_of_mem_put now with same | old
        · exact .inl (same ▸ List.mem_cons_self)
        · exact .inr old

theorem putAll_append (entries first second : List (κ × α)) :
    putAll entries (first ++ second) = putAll (putAll entries first) second := by
  rw [putAll, putAll, putAll, List.foldl_append]

theorem put_of_not_mem {key : κ} {value : α} {entries : List (κ × α)}
    (absent : key ∉ entries.map Prod.fst) : put key value entries = entries ++ [(key, value)] := by
  induction entries with
  | nil => rfl
  | cons entry rest ih =>
      rw [List.map_cons, List.mem_cons, not_or] at absent
      rw [put, if_neg (Ne.symm absent.1), ih absent.2, List.cons_append]

theorem put_of_mem {key : κ} {old value : α} {before after : List (κ × α)}
    (first : key ∉ before.map Prod.fst) :
    put key value (before ++ (key, old) :: after) = before ++ (key, value) :: after := by
  induction before with
  | nil => simp [put]
  | cons entry rest ih =>
      rw [List.map_cons, List.mem_cons, not_or] at first
      rw [List.cons_append, put, if_neg (Ne.symm first.1), ih first.2, List.cons_append]

/-- A key that has a value already can be set to it without a change. -/
theorem put_of_lookup [BEq κ] [LawfulBEq κ] {key : κ} {value : α} {entries : List (κ × α)}
    (held : entries.lookup key = some value) : put key value entries = entries := by
  induction entries with
  | nil => cases held
  | cons entry rest ih =>
      obtain ⟨k, v⟩ := entry
      by_cases here : k = key
      · subst here
        rw [List.lookup_cons_self] at held
        rw [put, if_pos rfl, Option.some.inj held]
      · rw [List.lookup_cons, beq_false_of_ne (Ne.symm here)] at held
        rw [put, if_neg here, ih held]

/-- Setting a key changes nothing about what is selected where no entry of the key is. -/
theorem filterMap_put {β : Type} {key : κ} {value : α} {entries : List (κ × α)}
    {select : κ × α → Option β} (hidden : select (key, value) = none)
    (heldHidden : ∀ held, (key, held) ∈ entries → select (key, held) = none) :
    (put key value entries).filterMap select = entries.filterMap select := by
  induction entries with
  | nil => rw [put, List.filterMap_cons_none hidden]
  | cons first rest ih =>
      obtain ⟨k, v⟩ := first
      by_cases here : k = key
      · subst here
        rw [put, if_pos rfl, List.filterMap_cons_none hidden,
          List.filterMap_cons_none (heldHidden v List.mem_cons_self)]
      · rw [put, if_neg here, List.filterMap_cons, List.filterMap_cons,
          ih fun held member => heldHidden held (List.mem_cons_of_mem _ member)]

/-- Setting a key twice is setting it to the second value. -/
theorem put_put_self (key : κ) (old value : α) (entries : List (κ × α)) :
    put key value (put key old entries) = put key value entries := by
  induction entries with
  | nil => simp [put]
  | cons entry rest ih =>
      by_cases same : entry.1 = key
      · simp [put, same]
      · rw [put, if_neg same, put, if_neg same, ih, put, if_neg same]

/-- A key that is there can be set before or after another one. -/
theorem put_put_comm {key other : κ} {value change : α} {entries : List (κ × α)}
    (present : key ∈ entries.map Prod.fst) (different : key ≠ other) :
    put key value (put other change entries) = put other change (put key value entries) := by
  induction entries with
  | nil => simp at present
  | cons entry rest ih =>
      by_cases isKey : entry.1 = key
      · have isOther : entry.1 ≠ other := isKey ▸ different
        simp [put, isKey, different]
      · have inRest : key ∈ rest.map Prod.fst := by
          rcases List.mem_cons.1 present with same | later
          · exact absurd same.symm isKey
          · exact later
        by_cases isOther : entry.1 = other
        · simp [put, isOther, Ne.symm different]
        · simp [put, isKey, isOther, ih inRest]

theorem mem_keys_putAll {key : κ} {new entries : List (κ × α)}
    (present : key ∈ entries.map Prod.fst) : key ∈ (putAll entries new).map Prod.fst := by
  induction new generalizing entries with
  | nil => exact present
  | cons first rest ih =>
      refine ih ?_
      rw [keys_put]
      split
      · exact present
      · exact List.mem_append_left _ present

/-- A key that is there can be set before or after a list without it. -/
theorem put_putAll_comm {key : κ} {value : α} {new entries : List (κ × α)}
    (present : key ∈ entries.map Prod.fst) (absent : key ∉ new.map Prod.fst) :
    put key value (putAll entries new) = putAll (put key value entries) new := by
  induction new generalizing entries with
  | nil => rfl
  | cons first rest ih =>
      rw [List.map_cons, List.mem_cons, not_or] at absent
      have stays : key ∈ (putAll entries [first]).map Prod.fst := mem_keys_putAll present
      calc put key value (putAll entries (first :: rest))
          = putAll (put key value (put first.1 first.2 entries)) rest := ih stays absent.2
        _ = putAll (put first.1 first.2 (put key value entries)) rest := by
            rw [put_put_comm present absent.1]
        _ = putAll (put key value entries) (first :: rest) := rfl

/-- Setting a key in a list of distinct keys and then setting that list is setting the list and
then the key. -/
theorem putAll_put (key : κ) (value : α) {new : List (κ × α)}
    (distinct : (new.map Prod.fst).Nodup) (entries : List (κ × α)) :
    putAll entries (put key value new) = put key value (putAll entries new) := by
  by_cases present : key ∈ new.map Prod.fst
  · -- The list is split at the key; what stands behind it does not touch the key.
    obtain ⟨entry, member, rfl⟩ := List.mem_map.1 present
    obtain ⟨before, after, rfl⟩ := List.append_of_mem member
    obtain ⟨key, old⟩ := entry
    rw [List.map_append, List.map_cons, List.nodup_middle, List.nodup_cons, List.mem_append,
      not_or] at distinct
    obtain ⟨⟨first, last⟩, -⟩ := distinct
    have there : key ∈ (put key old (putAll entries before)).map Prod.fst := by
      rw [keys_put]
      split <;> simp_all
    rw [put_of_mem first, putAll_append, putAll_append]
    calc putAll (put key value (putAll entries before)) after
        = putAll (put key value (put key old (putAll entries before))) after := by
          rw [put_put_self]
      _ = put key value (putAll (put key old (putAll entries before)) after) :=
          (put_putAll_comm there last).symm
  · rw [put_of_not_mem present, putAll_append]
    rfl

/-- Setting the entries that a list comes to is setting the entries of the list. -/
theorem putAll_putAll_nil (entries new : List (κ × α)) :
    putAll entries (putAll [] new) = putAll entries new := by
  induction new using List.reverseRecOn with
  | nil => rfl
  | append_singleton front last ih =>
      have distinct : ((putAll [] front).map Prod.fst).Nodup :=
        nodup_putAll front (by simp)
      rw [putAll_append, putAll_append, ← ih]
      exact putAll_put last.1 last.2 distinct entries

/-- Entries with distinct keys are set in front of nothing as they are. -/
theorem putAll_of_nodup {new entries : List (κ × α)}
    (distinct : ((entries ++ new).map Prod.fst).Nodup) : putAll entries new = entries ++ new := by
  induction new generalizing entries with
  | nil => exact (List.append_nil entries).symm
  | cons first rest ih =>
      have absent : first.1 ∉ entries.map Prod.fst := by
        rw [List.map_append, List.map_cons, List.nodup_middle, List.nodup_cons,
          List.mem_append, not_or] at distinct
        exact distinct.1.1
      have step : putAll entries (first :: rest) = putAll (entries ++ [first]) rest :=
        congrArg (putAll · rest) (put_of_not_mem absent)
      rw [step, ih (by simpa using distinct), List.append_assoc, List.singleton_append]

theorem eraseDups_of_nodup {keys : List String} (distinct : keys.Nodup) :
    keys.eraseDups = keys := by
  induction keys with
  | nil => rfl
  | cons key rest ih =>
      rw [List.nodup_cons] at distinct
      have others : rest.filter (fun other => !other == key) = rest := by
        rw [List.filter_eq_self]
        intro other member
        rw [Bool.not_eq_true', beq_eq_false_iff_ne]
        rintro rfl
        exact distinct.1 member
      rw [List.eraseDups_cons, others, ih distinct.2]

end Entries

namespace OrderedMap

variable {α β : Type}

theorem get?_eq_none_iff {m : OrderedMap α} {key : String} : m.get? key = none ↔ key ∉ m.keys := by
  rw [get?, List.lookup_eq_none_iff, keys, List.mem_map]
  constructor
  · rintro none ⟨entry, member, rfl⟩
    exact absurd (none entry member) (by simp)
  · intro absent entry member
    rw [bne_iff_ne]
    rintro rfl
    exact absent ⟨entry, member, rfl⟩

theorem mem_entries_of_get? {m : OrderedMap α} {key : String} {value : α}
    (found : m.get? key = some value) : (key, value) ∈ m.entries :=
  Entries.mem_of_lookup found

/-- As no key is listed twice, the value that is listed for a key is the one that is found. -/
theorem get?_of_mem_entries {m : OrderedMap α} {key : String} {value : α}
    (member : (key, value) ∈ m.entries) : m.get? key = some value := by
  cases found : m.get? key with
  | none => exact absurd (List.mem_map_of_mem member) (get?_eq_none_iff.1 found)
  | some other =>
      have same := List.inj_on_of_nodup_map m.nodup_keys (mem_entries_of_get? found) member rfl
      exact congrArg some (Prod.ext_iff.1 same).2

theorem isEmpty_iff {m : OrderedMap α} : m.isEmpty ↔ ∀ key, m.get? key = none := by
  rw [isEmpty, List.isEmpty_iff]
  constructor
  · intro none key
    rw [get?, none, List.lookup_nil]
  · intro nothing
    refine List.eq_nil_iff_forall_not_mem.2 fun ⟨key, value⟩ member => ?_
    have found := get?_of_mem_entries member
    rw [nothing key] at found
    cases found

theorem mem_of_mem_ofList {new : List (String × α)} {entry : String × α}
    (member : entry ∈ (ofList new).entries) : entry ∈ new := by
  rcases Entries.mem_of_mem_putAll member with inNew | inEmpty
  · exact inNew
  · simp at inEmpty

/-- Entries with distinct keys are kept as they are. -/
theorem entries_ofList {new : List (String × α)} (distinct : (new.map Prod.fst).Nodup) :
    (ofList new).entries = new :=
  Entries.putAll_of_nodup distinct

/-- A map is built from its own entries. -/
theorem ofList_entries (m : OrderedMap α) : ofList m.entries = m :=
  ext (entries_ofList m.nodup_keys)

theorem values_mapValues (f : α → β) (m : OrderedMap α) :
    (m.mapValues f).values = m.values.map f := by
  rw [values, values, entries_mapValues, List.map_map, List.map_map]
  rfl

/-- Values that are changed by functions undoing each other are as they were. -/
theorem mapValues_mapValues_of_leftInverse {f : α → β} {g : β → α} (m : OrderedMap α)
    (inverse : ∀ value, g (f value) = value) : (m.mapValues f).mapValues g = m := by
  apply ext
  rw [entries_mapValues, entries_mapValues, List.map_map]
  exact List.map_id'' (fun entry => by rw [Function.comp_apply, inverse]) m.entries

/-! ## Maps built entry by entry -/

theorem ofList_concat (front : List (String × α)) (last : String × α) :
    ofList (front ++ [last]) = (ofList front).insert last.1 last.2 :=
  ext (Entries.putAll_append [] front [last])

/-- A map built entry by entry holds the value that was set last. -/
theorem get?_ofList (entries : List (String × α)) (key : String) :
    (ofList entries).get? key = entries.reverse.lookup key := by
  induction entries using List.reverseRecOn with
  | nil => rfl
  | append_singleton front last ih =>
      rw [ofList_concat, get?_insert, ih, List.reverse_append, List.reverse_singleton,
        List.singleton_append, List.lookup_cons]
      by_cases same : key = last.1
      · rw [if_pos same, beq_iff_eq.2 same]
      · rw [if_neg same, beq_false_of_ne same]

/-- An entry of a map built entry by entry is the last one of its key. -/
theorem exists_last_of_mem_ofList {entries : List (String × α)} {entry : String × α}
    (member : entry ∈ (ofList entries).entries) :
    ∃ front back, entries = front ++ entry :: back ∧ entry.1 ∉ back.map Prod.fst := by
  have found := get?_of_mem_entries member
  rw [get?_ofList] at found
  obtain ⟨behind, before, split, others⟩ := List.lookup_eq_some_iff.1 found
  refine ⟨before.reverse, behind.reverse, ?_, fun again => ?_⟩
  · rw [← List.reverse_reverse entries, split, List.reverse_append, List.reverse_cons,
      List.append_assoc, List.singleton_append]
  · obtain ⟨other, isBehind, same⟩ := List.mem_map.1 again
    have different := others other (List.mem_reverse.1 isBehind)
    rw [same] at different
    simp at different

/-- A map built entry by entry lists each key where it was set first. -/
theorem keys_ofList (entries : List (String × α)) :
    (ofList entries).keys = (entries.map Prod.fst).eraseDups := by
  induction entries using List.reverseRecOn with
  | nil => rfl
  | append_singleton front last ih =>
      rw [ofList_concat, keys_insert, ih, List.map_append, List.eraseDups_append]
      by_cases old : last.1 ∈ front.map Prod.fst
      · rw [if_pos (List.mem_eraseDups.2 old)]
        simp [old, List.removeAll]
      · rw [if_neg fun again => old (List.mem_eraseDups.1 again)]
        simp [old, List.removeAll, Entries.eraseDups_of_nodup (List.nodup_singleton last.1)]

/-- Keeping each text once leaves no text twice. -/
theorem nodup_eraseDups (names : List String) : names.eraseDups.Nodup := by
  have keys := keys_ofList (names.map fun name => (name, ()))
  rw [List.map_map, show Prod.fst ∘ (fun name : String => (name, ())) = id from rfl,
    List.map_id] at keys
  rw [← keys]
  exact (ofList _).nodup_keys

/-! ## A map laid over another one -/

theorem insertAll_eq_ofList (m : OrderedMap α) (new : List (String × α)) :
    m.insertAll new = ofList (m.entries ++ new) := by
  apply ext
  calc Entries.putAll m.entries new
      = Entries.putAll (ofList m.entries).entries new := by rw [ofList_entries]
    _ = (ofList (m.entries ++ new)).entries := (Entries.putAll_append [] m.entries new).symm

/-- Of two values of a key the one that is laid over the other counts. -/
theorem get?_insertAll (m above : OrderedMap α) (key : String) :
    (m.insertAll above.entries).get? key = (above.get? key).or (m.get? key) := by
  have lastOf (map : OrderedMap α) : map.entries.reverse.lookup key = map.get? key := by
    rw [← get?_ofList, ofList_entries]
  rw [insertAll_eq_ofList, get?_ofList, List.reverse_append, List.lookup_append, lastOf, lastOf]

/-- The keys stay where they are, and those that only the map above has come behind them. -/
theorem keys_insertAll (m above : OrderedMap α) :
    (m.insertAll above.entries).keys = m.keys ++ above.keys.filter (· ∉ m.keys) := by
  have others : above.keys.removeAll m.keys = above.keys.filter (· ∉ m.keys) := by
    rw [List.removeAll]
    exact List.filter_congr fun key _ => by simp
  have keysDistinct : m.keys.Nodup := m.nodup_keys
  have othersDistinct : (above.keys.filter (· ∉ m.keys)).Nodup :=
    List.Nodup.filter _ above.nodup_keys
  calc (m.insertAll above.entries).keys
      = (m.keys ++ above.keys).eraseDups := by
        rw [insertAll_eq_ofList, keys_ofList, List.map_append]
        rfl
    _ = m.keys.eraseDups ++ (above.keys.filter (· ∉ m.keys)).eraseDups := by
        rw [List.eraseDups_append, others]
    _ = m.keys ++ above.keys.filter (· ∉ m.keys) := by
        rw [Entries.eraseDups_of_nodup keysDistinct, Entries.eraseDups_of_nodup othersDistinct]

end OrderedMap

end ComponentGen
