import ComponentGen.Proofs.Generated.Reads
import ComponentGen.Proofs.Naming.Hyphens
/-!
# Both style modes describe the same styles

A style map is written as declarations of a stylesheet or as members of a style object. Both start
from the same expanded entries, and after resolving they leave out the same ones: whatever has no
CSS text has no expression either. Literals that stand for arrays or objects would be told apart,
but resolving does not leave any.
-/

namespace ComponentGen.Style

/-- The expanded entries of a style map that have a declaration. -/
def declaredEntries (styleMap : OrderedMap ResolvedValue) : List Entry :=
  (entries styleMap).filter fun e => e.declaration?.isSome

/-- A resolved value has a CSS text exactly if it has an expression. -/
theorem isSome_cssValue?_ofJson (index : PlaceholderIndex) (value : Json) (key : String) :
    (cssValue? (.ofJson index value) key).isSome =
      (inlineValue? (.ofJson index value)).isSome := by
  cases value with
  | null => rfl
  | bool b => rfl
  | number n => rfl
  | string s =>
      rw [ResolvedValue.ofJson]
      split
      · next target _ =>
          obtain ⟨category, key, surface, cssVariable⟩ := target
          cases category <;> rfl
      · rfl
  | array items => rfl
  | object members => rfl

section Resolved

variable (styleMap : OrderedMap Json) (index : PlaceholderIndex)

/-- The style map with its placeholders replaced. -/
def resolved : OrderedMap ResolvedValue :=
  styleMap.mapValues (ResolvedValue.ofJson index)

variable {styleMap index}

/-- An expanded entry of a resolved map comes from a member of the map. -/
theorem exists_of_mem_entries {e : Entry} (member : e ∈ entries (resolved styleMap index)) :
    ∃ value, (e.key, value) ∈ styleMap.entries ∧ e ∈ expand e.key (.ofJson index value) := by
  obtain ⟨⟨key, written⟩, inMap, expanded⟩ := List.mem_flatMap.1 member
  rw [resolved, OrderedMap.entries_mapValues] at inMap
  obtain ⟨⟨source, value⟩, inSource, same⟩ := List.mem_map.1 inMap
  cases same
  have isKey : e.key = source := (Generated.eq_of_mem_expand expanded).1
  rw [isKey]
  exact ⟨value, inSource, expanded⟩

/-- An expanded entry is written in both modes or in neither. -/
theorem isSome_inline?_eq {e : Entry} (member : e ∈ entries (resolved styleMap index)) :
    e.inline?.isSome = e.declaration?.isSome := by
  obtain ⟨value, -, expanded⟩ := exists_of_mem_entries member
  have isValue : e.value = .ofJson index value := (Generated.eq_of_mem_expand expanded).2
  rw [Entry.inline?, Entry.declaration?, Option.isSome_map, Option.isSome_map, isValue,
    isSome_cssValue?_ofJson]

variable (styleMap index)

theorem map_some_declarations :
    (declarations (resolved styleMap index)).map some =
      (declaredEntries (resolved styleMap index)).map Entry.declaration? := by
  rw [declarations, List.map_filterMap_some_eq_filter_map_isSome, List.filter_map, declaredEntries]
  rfl

theorem map_some_inlineEntries :
    (inlineEntries (resolved styleMap index)).map some =
      (declaredEntries (resolved styleMap index)).map Entry.inline? := by
  rw [inlineEntries, List.map_filterMap_some_eq_filter_map_isSome, List.filter_map, declaredEntries]
  congr 1
  exact List.filter_congr fun e member => isSome_inline?_eq member

/-- A declaration and a member of a style object are written for one expanded entry. -/
structure WrittenFor (e : Entry) (d : Declaration) (member : String × JavaScript.Expr) : Prop where
  /-- The entry comes from a member of the style map, and its value is that of the member. -/
  source : ∃ value, (e.key, value) ∈ styleMap.entries ∧ e ∈ expand e.key (.ofJson index value)
  declaration : e.declaration? = some d
  inline : e.inline? = some member
  /-- A hyphen in front of a digit would be lost in camel case. -/
  property : (∀ c ∈ e.name.toList, c.toNat < 128) →
    ¬ Naming.HyphenBefore Char.isDigit e.name.toList →
    Naming.camelToKebab member.1 = d.property

variable {styleMap index}

theorem writtenFor_of_mem {e : Entry} {d : Declaration} {member : String × JavaScript.Expr}
    (inMap : e ∈ entries (resolved styleMap index)) (declaration : e.declaration? = some d)
    (inline : e.inline? = some member) : WrittenFor styleMap index e d member where
  source := exists_of_mem_entries inMap
  declaration := declaration
  inline := inline
  property := by
    intro ascii free
    obtain ⟨value, -, rfl⟩ := Option.map_eq_some_iff.1 declaration
    obtain ⟨expr, -, rfl⟩ := Option.map_eq_some_iff.1 inline
    exact Naming.camelToKebab_kebabToCamel ascii free

variable (styleMap index)

/-- Both modes describe the same styles: they write the same expanded entries and leave out the same
ones, and what they write at one place is written for the same entry. -/
theorem modes_describe_same_styles :
    (declarations (resolved styleMap index)).length =
      (inlineEntries (resolved styleMap index)).length ∧
    (∀ e ∈ entries (resolved styleMap index), e.inline?.isSome = e.declaration?.isSome) ∧
    ∀ (i : Nat) (d : Declaration) (member : String × JavaScript.Expr),
      (declarations (resolved styleMap index))[i]? = some d →
      (inlineEntries (resolved styleMap index))[i]? = some member →
      ∃ e, (declaredEntries (resolved styleMap index))[i]? = some e ∧
        WrittenFor styleMap index e d member := by
  have classMode := map_some_declarations styleMap index
  have inlineMode := map_some_inlineEntries styleMap index
  refine ⟨?_, fun e => isSome_inline?_eq, ?_⟩
  · have declared := congrArg List.length classMode
    have inline := congrArg List.length inlineMode
    rw [List.length_map, List.length_map] at declared inline
    exact declared.trans inline.symm
  · intro i d member isDeclaration isMember
    have declaredAt := congrArg (·[i]?) classMode
    have inlineAt := congrArg (·[i]?) inlineMode
    simp only [List.getElem?_map, isDeclaration, isMember, Option.map_some] at declaredAt inlineAt
    obtain ⟨e, isEntry, declaration⟩ := Option.map_eq_some_iff.1 declaredAt.symm
    rw [isEntry, Option.map_some] at inlineAt
    have inMap : e ∈ entries (resolved styleMap index) :=
      List.mem_of_mem_filter (List.mem_of_getElem? isEntry)
    exact ⟨e, isEntry, writtenFor_of_mem inMap declaration (Option.some.inj inlineAt).symm⟩

end Resolved

/-- A style map with a dropped key, a shorthand, a placeholder and a value without CSS text. -/
def panelStyles : OrderedMap Json :=
  .ofList [("elevation", .string "4"), ("marginHorizontal", .string "1rem"), ("width", .null),
    ("background-color", .string "var(--tint)")]

def panelIndex : PlaceholderIndex where
  bindings := .ofList [("--tint", ⟨.style, "--tint"⟩)]

theorem modes_describe_same_styles_panel :
    ∃ e d member, (declarations (resolved panelStyles panelIndex))[2]? = some d ∧
      (inlineEntries (resolved panelStyles panelIndex))[2]? = some member ∧
      WrittenFor panelStyles panelIndex e d member ∧
      Naming.camelToKebab member.1 = d.property := by
  obtain ⟨-, -, writtenFor⟩ := modes_describe_same_styles panelStyles panelIndex
  have declared : (declarations (resolved panelStyles panelIndex))[2]? =
      some ⟨"background-color", "var(--tint)"⟩ := by decide +kernel
  have inline : (inlineEntries (resolved panelStyles panelIndex))[2]? =
      some ("backgroundColor", .literal (.string "var(--tint)")) := rfl
  obtain ⟨e, isEntry, written⟩ := writtenFor 2 _ _ declared inline
  have third : (declaredEntries (resolved panelStyles panelIndex))[2]?.map (·.name) =
      some "background-color" := rfl
  rw [isEntry] at third
  have named : e.name = "background-color" := Option.some.inj third
  have ascii : "background-color".toList.all (·.toNat < 128) = true := by decide
  refine ⟨e, _, _, declared, inline, written, written.property ?_ ?_⟩
  · rw [named]
    exact fun c member => of_decide_eq_true (List.all_eq_true.1 ascii c member)
  · rw [named]
    decide

end ComponentGen.Style
