import ComponentGen.Naming
import ComponentGen.Proofs.Text.Ascii
/-!
# Component names

A component name is spelled with the characters of its file stem, some of them in upper case and
the separators left out, and it does not start with a small letter.
-/

namespace ComponentGen.Naming

/-- The characters of a name come from the stem, without its separators. -/
theorem exists_of_mem_capitaliseWords {atStart : Bool} {cs : List Char} {c : Char}
    (member : c ∈ capitaliseWords atStart cs) :
    ∃ d ∈ cs, isSeparator d = false ∧ (c = d ∨ c = d.toUpper) := by
  induction cs generalizing atStart with
  | nil => cases member
  | cons first rest ih =>
      rw [capitaliseWords] at member
      split at member
      · obtain ⟨d, inRest, same⟩ := ih member
        exact ⟨d, List.mem_cons_of_mem first inRest, same⟩
      · next kept =>
          rcases List.mem_cons.1 member with rfl | later
          · refine ⟨first, List.mem_cons_self, Bool.eq_false_iff.2 kept, ?_⟩
            cases atStart with
            | true => exact .inr rfl
            | false => exact .inl rfl
          · obtain ⟨d, inRest, same⟩ := ih later
            exact ⟨d, List.mem_cons_of_mem first inRest, same⟩

/-- What comes first is the first character that is no separator, capitalised. -/
theorem head?_capitaliseWords (cs : List Char) :
    (capitaliseWords true cs).head? = (cs.find? fun c => !isSeparator c).map Char.toUpper := by
  induction cs with
  | nil => rfl
  | cons c rest ih =>
      rw [capitaliseWords]
      split
      · next separator => rw [ih, List.find?_cons, separator]; rfl
      · next kept => rw [List.find?_cons, Bool.eq_false_iff.2 kept]; rfl

theorem isLower_head_capitaliseWords {cs : List Char} {c : Char}
    (first : (capitaliseWords true cs).head? = some c) : c.isLower = false := by
  rw [head?_capitaliseWords] at first
  obtain ⟨d, -, rfl⟩ := Option.map_eq_some_iff.1 first
  exact Text.isLower_toUpper d

theorem toList_componentName (stem : String) :
    (componentName stem).toList = capitaliseWords true stem.toList :=
  String.toList_ofList

theorem slash_not_mem_componentName {stem : String} (free : '/' ∉ stem.toList) :
    '/' ∉ (componentName stem).toList := by
  rw [toList_componentName]
  intro member
  obtain ⟨d, inStem, -, rfl | upper⟩ := exists_of_mem_capitaliseWords member
  · exact free inStem
  · exact free (Text.eq_slash_of_toUpper upper.symm ▸ inStem)

/-- A name that starts with a small letter is no component name. -/
theorem componentName_ne {name : String} {c : Char} (starts : name.toList.head? = some c)
    (small : c.isLower = true) (stem : String) : componentName stem ≠ name := by
  rintro rfl
  rw [toList_componentName] at starts
  rw [isLower_head_capitaliseWords starts] at small
  cases small

end ComponentGen.Naming
