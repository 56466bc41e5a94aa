import ComponentGen.Proofs.Placeholder.CollisionLog
/-!
# Placeholders stand for declared fields

The bindings of a built index are the registrations of its interface, set one after the other, and
that is so under either policy. Every registration is made for a declared field, so a surface form
that changes hands still stands for a declared field. The module also says what resolving a string
found, and which strings it cannot have missed.
-/

namespace ComponentGen

namespace Interface

def fieldNames (i : Interface) : Category → List String
  | .style => i.styleFieldNames
  | .data => i.dataFieldNames

/-- The interface declares the field in its category. -/
def Declares (i : Interface) (b : Binding) : Prop :=
  b.key ∈ i.fieldNames b.category

/-- Every surface form is registered for a declared field. -/
theorem declares_of_mem_registrations {i : Interface} {registration : String × Binding}
    (member : registration ∈ i.registrations) : i.Declares registration.2 := by
  rw [registrations, List.mem_append, List.mem_flatMap, List.mem_flatMap] at member
  rcases member with ⟨field, declared, form⟩ | ⟨field, declared, form⟩
  · obtain ⟨surface, -, rfl⟩ := List.mem_map.1 form
    exact declared
  · obtain ⟨surface, -, rfl⟩ := List.mem_map.1 form
    exact declared

end Interface

/-- The text is the name of a CSS variable: two hyphens and at least one more character, none of
them a closing parenthesis. -/
def IsVariableName (name : String) : Prop :=
  ∃ rest, name.toList = '-' :: '-' :: rest ∧ rest ≠ [] ∧ ')' ∉ rest

namespace PlaceholderIndex

variable {i : Interface} {policy : CollisionPolicy} {index : PlaceholderIndex}

theorem bindings_build (built : build i policy = .ok index) :
    index.bindings = .ofList i.registrations := by
  rw [build_eq, outcome_eq_ok_iff] at built
  rw [← built.2]

theorem declares_of_get? (built : build i policy = .ok index) {surface : String} {b : Binding}
    (found : index.get? surface = some b) : i.Declares b := by
  have member := OrderedMap.mem_entries_of_get? found
  rw [bindings_build built] at member
  exact Interface.declares_of_mem_registrations (OrderedMap.mem_of_mem_ofList member)

theorem get?_eq_none_iff {surface : String} :
    index.get? surface = none ↔ surface ∉ index.surfaces :=
  OrderedMap.get?_eq_none_iff

/-- A reference keeps the string that it was resolved from. -/
theorem surface_of_resolve? {s : String} {target : Reference}
    (found : index.resolve? s = some target) : target.surface = s := by
  rw [resolve?] at found
  split at found
  · cases found
    rfl
  · rw [Option.bind_eq_some_iff] at found
    obtain ⟨name, -, named⟩ := found
    obtain ⟨b, -, rfl⟩ := Option.map_eq_some_iff.1 named
    rfl

theorem exists_get?_of_resolve? {s : String} {target : Reference}
    (found : index.resolve? s = some target) :
    ∃ surface, index.get? surface = some target.binding := by
  rw [resolve?] at found
  split at found
  · next b bound =>
      cases found
      exact ⟨s, bound⟩
  · rw [Option.bind_eq_some_iff] at found
    obtain ⟨name, -, named⟩ := found
    obtain ⟨b, bound, rfl⟩ := Option.map_eq_some_iff.1 named
    exact ⟨name, bound⟩

/-- A reference that a built index gives is bound to a declared field. -/
theorem declares_of_resolve? (built : build i policy = .ok index) {s : String}
    {target : Reference} (found : index.resolve? s = some target) :
    i.Declares target.binding := by
  obtain ⟨surface, bound⟩ := exists_get?_of_resolve? found
  exact declares_of_get? built bound

theorem cssVariableName?_var {name : String} (variableName : IsVariableName name) :
    cssVariableName? ("var(" ++ name ++ ")") = some name := by
  obtain ⟨rest, spelled, notEmpty, open_⟩ := variableName
  have noParenthesis : ∀ c ∈ rest, (c != ')') = true := by
    intro c member
    rw [bne_iff_ne]
    rintro rfl
    exact open_ member
  have chars : ("var(" ++ name ++ ")").toList =
      'v' :: 'a' :: 'r' :: '(' :: '-' :: '-' :: (rest ++ [')']) := by
    rw [String.toList_append, String.toList_append, spelled]
    rfl
  obtain ⟨c, more, rfl⟩ := List.exists_cons_of_ne_nil notEmpty
  have name_eq : name = String.ofList ('-' :: '-' :: c :: more) := by
    rw [← spelled, String.ofList_toList]
  simp only [cssVariableName?, chars]
  rw [List.takeWhile_append_of_pos noParenthesis, List.dropWhile_append_of_pos noParenthesis]
  simp [name_eq]

/-- A string that stands for nothing is no surface form and no use of a CSS variable that is
one. -/
theorem not_surface_of_resolve? {s : String} (missed : index.resolve? s = none) :
    s ∉ index.surfaces ∧
      ∀ name ∈ index.surfaces, IsVariableName name → s ≠ "var(" ++ name ++ ")" := by
  rw [resolve?] at missed
  split at missed
  · cases missed
  · next unbound =>
      refine ⟨get?_eq_none_iff.1 unbound, ?_⟩
      rintro name bound variableName rfl
      rw [cssVariableName?_var variableName, Option.bind_some, Option.map_eq_none_iff] at missed
      exact get?_eq_none_iff.1 missed bound

end PlaceholderIndex

end ComponentGen
