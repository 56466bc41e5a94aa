import ComponentGen.Composition.Dispatcher
import ComponentGen.Generated.Renderer
import ComponentGen.Proofs.JavaScript.Strings
import ComponentGen.Proofs.OrderedMap
/-!
# The registry at generation time and at run time

A composition is dispatched twice: at generation time by the dispatcher, and at run time by the
object literal of the renderer module, in which a later entry of a key counts in place of an earlier
one. Both know the same names. Where several names differ in case only, the dispatcher takes the
one that is given last, and the literal the one that is last in ascending order, so they agree
exactly if that is the same name.
-/

namespace ComponentGen

/-! ## Object literals -/

namespace JavaScript

/-- The value of a key in an object literal. A later entry of a key counts in place of an earlier
one. -/
def property? {α : Type} (entries : List (String × α)) (key : String) : Option α :=
  entries.reverse.lookup key

/-- The entry of an object literal that stands on a line: a key in quotes, a colon, a name as its
value and a comma. -/
def lineEntry? (line : String) : Option (String × String) :=
  match stringLiteral? (line.toList.dropWhile (· == ' ')) with
  | some (key, ':' :: ' ' :: value) =>
    if value.getLast? = some ',' then some (key, String.ofList value.dropLast) else none
  | _ => none

/-- A map that is built entry by entry holds what an object literal of the entries holds. -/
theorem get?_ofList {α : Type} (entries : List (String × α)) (key : String) :
    (OrderedMap.ofList entries).get? key = property? entries key :=
  OrderedMap.get?_ofList entries key

/-- Entries whose keys are made from their values. -/
theorem property?_map (keyOf : String → String) (values : List String) (key : String) :
    property? (values.map fun value => (keyOf value, value)) key =
      (values.filter fun value => keyOf value = key).getLast? := by
  have first (values : List String) :
      (values.map fun value => (keyOf value, value)).lookup key =
        values.find? fun value => keyOf value = key := by
    induction values with
    | nil => rfl
    | cons value rest ih =>
        rw [List.map_cons, List.lookup_cons, List.find?_cons, ih]
        by_cases same : keyOf value = key
        · rw [decide_eq_true same, beq_iff_eq.2 same.symm]
        · rw [decide_eq_false same, beq_false_of_ne (Ne.symm same)]
  rw [property?, ← List.map_reverse, first, List.getLast?_filter]

end JavaScript

/-! ## The renderer module -/

namespace Generated

theorem eraseDups_sublist (names : List String) : names.eraseDups.Sublist names := by
  match names with
  | [] => exact List.Sublist.refl []
  | name :: rest =>
      rw [List.eraseDups_cons]
      have shorter := List.length_filter_le (fun other => !other == name) rest
      exact ((eraseDups_sublist _).trans List.filter_sublist).cons_cons name
termination_by names.length
decreasing_by
  rw [List.length_cons]
  omega

/-- Sorted names are in ascending order. -/
theorem pairwise_sortedDistinct (names : List String) :
    (sortedDistinct names).Pairwise (· ≤ ·) := by
  apply List.Pairwise.sublist (eraseDups_sublist _)
  have transitive (a b c : String) (first : decide (a ≤ b) = true)
      (second : decide (b ≤ c) = true) : decide (a ≤ c) = true :=
    decide_eq_true (String.le_trans (of_decide_eq_true first) (of_decide_eq_true second))
  have total (a b : String) : (decide (a ≤ b) || decide (b ≤ a)) = true := by
    rw [Bool.or_eq_true, decide_eq_true_eq, decide_eq_true_eq]
    exact String.le_total a b
  exact (List.pairwise_mergeSort transitive total names).imp of_decide_eq_true

namespace Renderer

/-- The module holds the registry as an object literal with these entries, each on a line. -/
def HoldsRegistry (source : String) (entries : List (String × String)) : Prop :=
  ∃ (before after : String) (lines : List String),
    source = before ++ "const componentMap: Record<string, React.ComponentType<any>> = \x7b\n" ++
      "\n".intercalate lines ++ "\n\x7d;\n" ++ after ∧
    lines.map JavaScript.lineEntry? = entries.map some

/-- A line of the registry is read as its entry. -/
theorem lineEntry?_registryLine (entry : String × String) :
    JavaScript.lineEntry? (registryLine entry) = some entry := by
  obtain ⟨key, value⟩ := entry
  have line : (registryLine (key, value)).toList.dropWhile (· == ' ') =
      (JavaScript.quote key).toList ++ ':' :: ' ' :: (value.toList ++ [',']) := by
    simp [registryLine, JavaScript.quote, String.toList_append, List.dropWhile]
  rw [JavaScript.lineEntry?, line, JavaScript.stringLiteral?_quote]
  simp

theorem holdsRegistry_text (names : List String) (hasStylesheet : Bool) :
    HoldsRegistry (text names hasStylesheet) (registry names) := by
  obtain ⟨parts, shape⟩ : ∃ parts, template = [
      .text "import React from 'react';\n", .hole "imports",
      .text (String.join ["\n", "\n",
        "const componentMap: Record<string, React.ComponentType<any>> = \x7b\n"]),
      .hole "registry", .text (String.join ("\n" :: "\x7d;\n" :: parts))] := ⟨_, rfl⟩
  have closing : "\n\x7d;\n" = "\n" ++ "\x7d;\n" := rfl
  refine ⟨"import React from 'react';\n" ++ values names hasStylesheet "imports" ++ "\n" ++ "\n",
    String.join parts, (registry names).map registryLine, ?_, ?_⟩
  · rw [text, shape, closing]
    have lines : values names hasStylesheet "registry" =
        "\n".intercalate ((registry names).map registryLine) := if_neg (by decide)
    simp only [Template.expand, Template.Part.expand, lines, List.map_cons, List.map_nil,
      String.join_cons, String.join_nil, String.append_empty, String.append_assoc]
  · rw [List.map_map]
    apply List.map_congr_left
    intro entry _
    rw [Function.comp_apply, lineEntry?_registryLine]

end Renderer

end Generated

/-! ## Agreement -/

namespace Dispatcher

open Generated

/-- The names that are spelled like a query but for case. -/
def spelledAlike (query : String) (names : List String) : List String :=
  names.filter fun name => Text.lowerCase name = Text.lowerCase query

theorem mem_spelledAlike {query name : String} {names : List String} :
    name ∈ spelledAlike query names ↔
      name ∈ names ∧ Text.lowerCase name = Text.lowerCase query := by
  rw [spelledAlike, List.mem_filter, decide_eq_true_eq]

/-- The dispatcher takes the name that is given last. -/
theorem resolve?_eq_getLast? (names : List String) (query : String) :
    (ofNames names).resolve? query = (spelledAlike query names).getLast? := by
  rw [resolve?, ofNames, JavaScript.get?_ofList, JavaScript.property?_map, spelledAlike]

/-- The renderer module takes the name that is last in ascending order. -/
theorem property?_registry (names : List String) (query : String) :
    JavaScript.property? (Renderer.registry names) (Text.lowerCase query) =
      (spelledAlike query (sortedDistinct names)).getLast? := by
  rw [Renderer.registry, JavaScript.property?_map, spelledAlike]

/-- What the renderer module takes is a name of the query's spelling, and none is greater. -/
theorem greatest_of_property?_registry {names : List String} {query greatest : String}
    (found :
      JavaScript.property? (Renderer.registry names) (Text.lowerCase query) = some greatest) :
    greatest ∈ spelledAlike query names ∧ ∀ name ∈ spelledAlike query names, name ≤ greatest := by
  rw [property?_registry] at found
  have alike (name : String) : name ∈ spelledAlike query names ↔
      name ∈ spelledAlike query (sortedDistinct names) := by
    rw [mem_spelledAlike, mem_spelledAlike, mem_sortedDistinct]
  have ascending : (spelledAlike query (sortedDistinct names)).Pairwise (· ≤ ·) :=
    (pairwise_sortedDistinct names).filter _
  obtain ⟨front, split⟩ := List.getLast?_eq_some_iff.1 found
  rw [split, List.pairwise_append] at ascending
  constructor
  · rw [alike]
    exact List.mem_of_getLast? found
  · intro name member
    rw [alike, split, List.mem_append, List.mem_singleton] at member
    rcases member with inFront | rfl
    · exact ascending.2.2 name inFront greatest (List.mem_singleton_self greatest)
    · exact String.le_refl name

/-- The dispatcher and the registry of the renderer module know the same names, and agree on a query
exactly if the last of the given names of its spelling is the greatest of them. -/
theorem resolve?_eq_registry_iff (names : List String) (hasStylesheet : Bool) (query : String) :
    Renderer.HoldsRegistry (Renderer.text names hasStylesheet) (Renderer.registry names) ∧
    ((ofNames names).resolve? query = none ↔
      JavaScript.property? (Renderer.registry names) (Text.lowerCase query) = none) ∧
    ((ofNames names).resolve? query =
        JavaScript.property? (Renderer.registry names) (Text.lowerCase query) ↔
      ∀ last ∈ (spelledAlike query names).getLast?,
        ∀ name ∈ spelledAlike query names, name ≤ last) := by
  have known : (ofNames names).resolve? query = none ↔
      JavaScript.property? (Renderer.registry names) (Text.lowerCase query) = none := by
    rw [resolve?_eq_getLast?, property?_registry, List.getLast?_eq_none_iff,
      List.getLast?_eq_none_iff, List.eq_nil_iff_forall_not_mem, List.eq_nil_iff_forall_not_mem]
    simp only [mem_spelledAlike, mem_sortedDistinct]
  refine ⟨Renderer.holdsRegistry_text names hasStylesheet, known, ?_⟩
  cases found : JavaScript.property? (Renderer.registry names) (Text.lowerCase query) with
  | none =>
      have unknown := known.2 found
      rw [resolve?_eq_getLast?] at unknown ⊢
      rw [unknown]
      refine iff_of_true rfl ?_
      intro last isLast
      cases isLast
  | some greatest =>
      obtain ⟨member, upper⟩ := greatest_of_property?_registry found
      rw [resolve?_eq_getLast?]
      constructor
      · intro same last isLast
        rw [same] at isLast
        cases isLast
        exact upper
      · intro lastGreatest
        cases isLast : (spelledAlike query names).getLast? with
        | none =>
            rw [List.getLast?_eq_none_iff.1 isLast] at member
            cases member
        | some last =>
            have given := List.mem_of_getLast? isLast
            have bound := lastGreatest last isLast greatest member
            rw [String.le_antisymm (upper last given) bound]

/-- Two names that differ in case only, the greater one given first. -/
theorem not_resolve?_eq_registry :
    ¬ ∀ (names : List String) (query : String), (ofNames names).resolve? query =
      JavaScript.property? (Renderer.registry names) (Text.lowerCase query) := by
  intro everywhere
  have last : (ofNames ["TopNavbar", "TopNavBar"]).resolve? "topnavbar" = some "TopNavBar" := by
    decide +kernel
  have same := everywhere ["TopNavbar", "TopNavBar"] "topnavbar"
  rw [last] at same
  have upper := (greatest_of_property?_registry same.symm).2
  have bound : "TopNavbar" ≤ "TopNavBar" := upper "TopNavbar" (by decide +kernel)
  revert bound
  decide

end Dispatcher

end ComponentGen
