import ComponentGen.Proofs.Style.ClassNames
import Mathlib.Data.List.Flatten
import Mathlib.Data.List.Nodup
/-!
# Class tables and stylesheets

A class table names every node of its tree once, in the order of the visit, so looking a position up
gives a name exactly when the position leads to a node. The rules of a stylesheet are those of the
nodes with a declaration, and no two of them have a class name in common, within one component or
in several whose names differ.
-/

namespace ComponentGen.Style

/-! ## Looking positions up -/

namespace ClassTable

variable {table : ClassTable} {path : List Nat} {className : String}

/-- In a table that lists no position twice, the names found are the names listed. -/
theorem get?_eq_some_iff (distinct : (table.entries.map Prod.fst).Nodup) :
    table.get? path = some className ↔ (path, className) ∈ table.entries := by
  have listed {name : String} (found : table.get? path = some name) :
      (path, name) ∈ table.entries := Entries.mem_of_lookup found
  refine ⟨listed, fun member => ?_⟩
  cases found : table.get? path with
  | none =>
      have different := List.lookup_eq_none_iff.1 found _ member
      simp at different
  | some other =>
      have same := List.inj_on_of_nodup_map distinct (listed found) member rfl
      exact congrArg some (Prod.ext_iff.1 same).2

theorem isSome_get?_iff : (table.get? path).isSome ↔ path ∈ table.entries.map Prod.fst := by
  rw [get?, Option.isSome_iff_ne_none, ne_eq, List.lookup_eq_none_iff, List.mem_map]
  simp

end ClassTable

/-! ## The table of a component -/

theorem map_fst_classesFrom (path : List Nat) (className : String) (n : ResolvedNode) :
    (classesFrom path className n).map Prod.fst = (n.located path).map Prod.fst := by
  induction n using ResolvedNode.nested generalizing path className with
  | node n ih =>
      rw [classesFrom_eq_flatMap, ResolvedNode.located_eq_flatMap, List.map_cons, List.map_cons,
        List.map_flatMap, List.map_flatMap]
      refine congrArg _ (List.flatMap_congr ?_)
      rintro ⟨child, i⟩ inChildren
      exact ih child (List.fst_mem_of_mem_zipIdx inChildren) _ _

section Component

variable (component : String) (root : ResolvedNode)

/-- A class table lists the positions of all nodes, in the order of the visit. -/
theorem positions_assignClasses :
    (assignClasses component root).entries.map Prod.fst = (root.located []).map Prod.fst :=
  map_fst_classesFrom [] (rootClass component) root

/-- The positions come in strictly ascending lexicographic order. -/
theorem pairwise_positions_assignClasses :
    ((assignClasses component root).entries.map Prod.fst).Pairwise (· < ·) := by
  rw [positions_assignClasses]
  exact List.pairwise_map.2 (root.pairwise_position_lt)

theorem nodup_positions_assignClasses :
    ((assignClasses component root).entries.map Prod.fst).Nodup := by
  refine (pairwise_positions_assignClasses component root).imp ?_
  rintro path _ ascending rfl
  exact List.lt_irrefl path ascending

/-- No class name is given twice within one component. -/
theorem nodup_names_assignClasses : (assignClasses component root).names.Nodup :=
  List.pairwise_map.2 (pairwise_className_ne [] (rootClass component) root)

/-- A position has a class name exactly when it leads to a node. -/
theorem isSome_get?_assignClasses (path : List Nat) :
    ((assignClasses component root).get? path).isSome ↔ (root.nodeAt? path).isSome := by
  rw [ClassTable.isSome_get?_iff, positions_assignClasses, List.mem_map, Option.isSome_iff_exists]
  constructor
  · rintro ⟨⟨_, node⟩, member, rfl⟩
    exact ⟨node, ResolvedNode.mem_located_nil_iff.1 member⟩
  · rintro ⟨node, found⟩
    exact ⟨(path, node), ResolvedNode.mem_located_nil_iff.2 found, rfl⟩

variable {component root}

theorem isSome_get?_of_mem_located (component : String) {place : List Nat × ResolvedNode}
    (located : place ∈ root.located []) :
    ((assignClasses component root).get? place.1).isSome :=
  (isSome_get?_assignClasses component root place.1).2
    (Option.isSome_iff_exists.2 ⟨place.2, ResolvedNode.mem_located_nil_iff.1 located⟩)

/-- A class name belongs to one position only. -/
theorem get?_assignClasses_inj {path other : List Nat} {className : String}
    (first : (assignClasses component root).get? path = some className)
    (second : (assignClasses component root).get? other = some className) : path = other := by
  have distinct := nodup_positions_assignClasses component root
  have same := List.inj_on_of_nodup_map (nodup_names_assignClasses component root)
    ((ClassTable.get?_eq_some_iff distinct).1 first)
    ((ClassTable.get?_eq_some_iff distinct).1 second) rfl
  exact (Prod.ext_iff.1 same).1

/-- The class names of the nodes, looked up one by one. -/
theorem names_assignClasses :
    (assignClasses component root).names =
      (root.located []).filterMap fun place => (assignClasses component root).get? place.1 := by
  have distinct := nodup_positions_assignClasses component root
  calc (assignClasses component root).names
      = (assignClasses component root).entries.filterMap fun entry =>
          (assignClasses component root).get? entry.1 := by
        rw [ClassTable.names, ← List.filterMap_eq_map]
        refine List.filterMap_congr fun entry listed => ?_
        exact ((ClassTable.get?_eq_some_iff distinct).2 listed).symm
    _ = ((root.located []).map Prod.fst).filterMap (assignClasses component root).get? := by
        rw [← positions_assignClasses component, List.filterMap_map]
        rfl
    _ = _ := by
        rw [List.filterMap_map]
        rfl

end Component

/-! ## Rules -/

/-- The node has a style declaration. -/
def isStyled (node : ResolvedNode) : Bool :=
  !(declarations node.styleMap).isEmpty

theorem ruleOf?_eq {classes : ClassTable} {path : List Nat} {className : String}
    (named : classes.get? path = some className) (node : ResolvedNode) :
    ruleOf? classes path node =
      if isStyled node then some ⟨className, declarations node.styleMap⟩ else none := by
  rw [ruleOf?, named, isStyled]
  cases declarations node.styleMap <;> rfl

/-- The nodes with a declaration give one rule each, under their class names. -/
theorem rules_of_named {classes : ClassTable} {places : List (List Nat × ResolvedNode)}
    (named : ∀ place ∈ places, (classes.get? place.1).isSome) :
    (places.filterMap fun place => ruleOf? classes place.1 place.2).map
        (fun rule => (some rule.className, rule.declarations)) =
      (places.filter fun place => isStyled place.2).map fun place =>
        (classes.get? place.1, declarations place.2.styleMap) := by
  induction places with
  | nil => rfl
  | cons place rest ih =>
      obtain ⟨path, node⟩ := place
      obtain ⟨className, found⟩ := Option.isSome_iff_exists.1 (named _ List.mem_cons_self)
      have restNamed := fun other member => named other (List.mem_cons_of_mem _ member)
      rw [List.filterMap_cons, ruleOf?_eq found, List.filter_cons]
      cases isStyled node with
      | true =>
          rw [if_pos rfl, if_pos rfl, List.map_cons, List.map_cons, ih restNamed, found]
      | false => exact ih restNamed

/-- The stylesheet of a component has one rule for each node with a declaration, in the order of
the visit and under the class name of the node. -/
theorem rules_stylesheet (component : String) (root : ResolvedNode) :
    (stylesheet root (assignClasses component root)).rules.map
        (fun rule => (some rule.className, rule.declarations)) =
      ((root.located []).filter fun place => isStyled place.2).map fun place =>
        ((assignClasses component root).get? place.1, declarations place.2.styleMap) :=
  rules_of_named fun _ located => isSome_get?_of_mem_located component located

/-- The class names in a stylesheet, which its selectors are made of. -/
def Stylesheet.classNames (sheet : Stylesheet) : List String :=
  sheet.rules.map Rule.className

/-- The class names in the stylesheet of a component are class names of its nodes, each at most
once. -/
theorem classNames_stylesheet_sublist (component : String) (root : ResolvedNode) :
    (stylesheet root (assignClasses component root)).classNames.Sublist
      (assignClasses component root).names := by
  have found : (stylesheet root (assignClasses component root)).classNames =
      ((root.located []).filter fun place => isStyled place.2).filterMap fun place =>
        (assignClasses component root).get? place.1 := by
    have rules := congrArg (List.filterMap Prod.fst) (rules_stylesheet component root)
    rw [List.filterMap_map, List.filterMap_map] at rules
    rw [Stylesheet.classNames, ← List.filterMap_eq_map]
    exact rules
  rw [found, names_assignClasses]
  exact List.Sublist.filterMap _ List.filter_sublist

/-! ## Several components -/

theorem continues_of_mem_names {component className : String} {root : ResolvedNode}
    (member : className ∈ (assignClasses component root).names) :
    Continues (rootClass component) className := by
  obtain ⟨entry, listed, rfl⟩ := List.mem_map.1 member
  exact continues_of_mem_classesFrom listed

/-- No class name is given twice in components whose names are made of letters and digits and
differ in lower case. -/
theorem nodup_flatMap_names {components : List (String × ResolvedNode)}
    (alphanum : ∀ component ∈ components, ∀ c ∈ component.1.toList, c.isAlphanum = true)
    (distinct : (components.map fun component => Text.lowerCase component.1).Nodup) :
    (components.flatMap fun component => (assignClasses component.1 component.2).names).Nodup := by
  rw [List.nodup_flatMap]
  refine ⟨fun component _ => nodup_names_assignClasses component.1 component.2, ?_⟩
  refine (List.pairwise_map.1 distinct).imp_of_mem ?_
  intro first second isFirst isSecond different className inFirst inSecond
  apply different
  exact lowerCase_eq_of_continues_rootClass (hyphen_not_mem_lowerCase (alphanum first isFirst))
    (hyphen_not_mem_lowerCase (alphanum second isSecond)) (continues_of_mem_names inFirst)
    (continues_of_mem_names inSecond)

/-- The selectors of the stylesheets of several components are those of different nodes. -/
theorem nodup_flatMap_classNames {components : List (String × ResolvedNode)}
    (distinct :
      (components.flatMap fun component => (assignClasses component.1 component.2).names).Nodup) :
    (components.flatMap fun component =>
      (stylesheet component.2 (assignClasses component.1 component.2)).classNames).Nodup :=
  distinct.sublist (List.Sublist.flatMap_right components fun component _ =>
    classNames_stylesheet_sublist component.1 component.2)

end ComponentGen.Style
