import ComponentGen.Proofs.Composition.Registry
import ComponentGen.Proofs.Generated.ImportLines
import Mathlib.Data.List.Sort
import Mathlib.Data.String.Basic
/-!
# The renderer module and the set of components

Names in strictly ascending order are known from the set of them. The renderer module is written for
the names of the components in this order, so neither their order nor how often each is given makes a
difference.
-/

namespace ComponentGen.Generated

/-! ## Names in strictly ascending order -/

/-- Names are sorted, each once. -/
theorem ascending_sortedDistinct (names : List String) : (sortedDistinct names).Pairwise (· < ·) :=
  (pairwise_sortedDistinct names).imp₂ (fun _ _ => lt_of_le_of_ne)
    (OrderedMap.nodup_eraseDups _)

/-- There is one way to put a set of names in strictly ascending order. -/
theorem eq_sortedDistinct {names sorted : List String} (ascending : sorted.Pairwise (· < ·))
    (same : ∀ name, name ∈ sorted ↔ name ∈ names) : sorted = sortedDistinct names :=
  ascending.eq_of_mem_iff (ascending_sortedDistinct names) fun name =>
    (same name).trans mem_sortedDistinct.symm

namespace Renderer

/-- The module is written for the sorted names. -/
theorem text_eq_of_sortedDistinct_eq {names others : List String}
    (same : sortedDistinct names = sortedDistinct others) (hasStylesheet : Bool) :
    text names hasStylesheet = text others hasStylesheet := by
  have sameValues : values names hasStylesheet = values others hasStylesheet := by
    funext hole
    rw [values, values, imports, imports, registry, registry, same]
  rw [text, text, sameValues]

/-- Lists of names with the same elements have the same renderer module. Its imports are React, the
common stylesheet, if there is one, and every name once, and its registry has one entry for every
name, both in strictly ascending order of the names. -/
theorem text_of_same_names {names others : List String}
    (same : ∀ name, name ∈ names ↔ name ∈ others) (hasStylesheet : Bool) :
    text names hasStylesheet = text others hasStylesheet ∧
    ∃ sorted : List String, sorted.Pairwise (· < ·) ∧ (∀ name, name ∈ sorted ↔ name ∈ names) ∧
      OpensWith (text names hasStylesheet)
        ("import React from 'react';" ::
          ((if hasStylesheet then ["import './style.css';"] else []) ++
            sorted.map fun name => "import \x7b " ++ name ++ " \x7d from './" ++ name ++ "';"))
        (sorted.map fun name => registryLine (Text.lowerCase name, name)) ∧
      HoldsRegistry (text names hasStylesheet)
        (sorted.map fun name => (Text.lowerCase name, name)) := by
  have sameSorted : sortedDistinct names = sortedDistinct others :=
    eq_sortedDistinct (ascending_sortedDistinct names) fun name =>
      mem_sortedDistinct.trans (same name)
  refine ⟨text_eq_of_sortedDistinct_eq sameSorted hasStylesheet, sortedDistinct names,
    ascending_sortedDistinct names, fun _ => mem_sortedDistinct, ?_,
    holdsRegistry_text names hasStylesheet⟩
  have sheet : importLines (if hasStylesheet then [.stylesheet "./style.css"] else []) =
      if hasStylesheet then ["import './style.css';"] else [] := by
    cases hasStylesheet <;> rfl
  have sibling (name : String) : (Import.sibling name).line =
      "import \x7b " ++ name ++ " \x7d from './" ++ name ++ "';" := by
    have path : " \x7d from '" ++ "./" = " \x7d from './" := rfl
    rw [Import.sibling, Import.line, ← path]
    simp only [String.append_assoc]
  have opens := opensWith_text names hasStylesheet
  rw [imports, importLines, List.map_append, ← importLines, sheet, List.map_map, registry,
    List.map_map] at opens
  simpa only [Function.comp_def, sibling] using opens

/-- Two names in both orders, one of them twice. -/
theorem text_of_same_names_cardAndHero :
    text ["Hero", "Card", "Hero"] true = text ["Card", "Hero"] true ∧
    OpensWith (text ["Hero", "Card", "Hero"] true)
      ["import React from 'react';", "import './style.css';",
        "import \x7b Card \x7d from './Card';", "import \x7b Hero \x7d from './Hero';"]
      ["  \"card\": Card,", "  \"hero\": Hero,"] ∧
    HoldsRegistry (text ["Hero", "Card", "Hero"] true) [("card", "Card"), ("hero", "Hero")] := by
  have same (name : String) : name ∈ ["Hero", "Card", "Hero"] ↔ name ∈ ["Card", "Hero"] := by
    simp only [List.mem_cons, List.not_mem_nil, or_false]
    tauto
  obtain ⟨sameText, sorted, ascending, members, opens, holds⟩ := text_of_same_names same true
  obtain rfl : sorted = ["Card", "Hero"] :=
    ascending.eq_of_mem_iff (by decide) fun name => (members name).trans (same name)
  exact ⟨sameText, opens, holds⟩

end Renderer

end ComponentGen.Generated
