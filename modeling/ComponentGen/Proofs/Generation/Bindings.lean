import ComponentGen.Proofs.Generated.RendererNames
import ComponentGen.Proofs.Generation.Imports
import ComponentGen.Proofs.Resolved.Preorder
/-!
# Names bound by a module

The import lines of a module and of a story bind names, and a module binds the name of its component
too. Component types are imported once each, whatever they are called, so a name is bound twice
exactly when a type, or the component, has a name that is bound anyway.
-/

namespace ComponentGen

open Generated

/-! ## Import lines and the names they bind -/

namespace Generated

/-- The line is an import that binds these names. -/
inductive ImportBinds : String → List String → Prop
  /-- The default export of a module. -/
  | whole {name : String} (isName : JavaScript.isIdentifier name = true) (source : String) :
      ImportBinds ("import " ++ name ++ " from " ++ source) [name]
  /-- Exports of a module. -/
  | named (names : List String) (source : String) :
      ImportBinds ("import \x7b " ++ ", ".intercalate names ++ " \x7d from " ++ source) names
  /-- Exported types of a module. -/
  | types (names : List String) (source : String) :
      ImportBinds ("import type \x7b " ++ ", ".intercalate names ++ " \x7d from " ++ source) names
  /-- A stylesheet. -/
  | stylesheet (path : String) : ImportBinds ("import '" ++ path ++ "';") []

/-- The imports that a text starts with bind these names, in this order. -/
def ImportsNames (text : String) (names : List String) : Prop :=
  ∃ (lines inserted : List String) (bound : List (List String)),
    OpensWith text lines inserted ∧ List.Forall₂ ImportBinds lines bound ∧ bound.flatten = names

/-- A line of the text opens the exported component of this name. -/
def Exports (text name : String) : Prop :=
  ∃ lines : List String, text = String.join (lines.map (· ++ "\n")) ∧
    ∃ rest, "export const " ++ name ++ " = (props: " ++ rest ∈ lines

theorem Import.binds_named (name path : String) :
    ImportBinds (Import.named name path).line [name] := by
  have line : (Import.named name path).line =
      "import \x7b " ++ ", ".intercalate [name] ++ " \x7d from " ++ ("'" ++ path ++ "';") := by
    have quoted : " \x7d from '" = " \x7d from " ++ "'" := rfl
    rw [Import.line, quoted, String.intercalate_singleton]
    simp only [String.append_assoc]
  rw [line]
  exact .named [name] _

namespace Target

/-- The names that the import of a target binds. -/
def boundNames : Target → List String
  | react | storyReact => ["React"]
  | storyTypes => ["Meta", "StoryObj"]
  | base type => [type]
  | sibling name => [name]
  | rendererData => ["ComponentData"]
  | stylesheet _ => []

theorem binds_line (folder : String) (target : Target) :
    ImportBinds (target.line folder) target.boundNames := by
  have isName : JavaScript.isIdentifier "React" = true := by decide
  cases target with
  | react => exact .whole isName "'react';"
  | storyReact => exact .whole isName "\"react\";"
  | storyTypes => exact .types ["Meta", "StoryObj"] "\"@storybook/react\";"
  | base type => exact Import.binds_named type _
  | sibling name => exact Import.binds_named name _
  | rendererData => exact .types ["ComponentData"] "'./Renderer';"
  | stylesheet stem => exact .stylesheet _

theorem flatMap_boundNames_base (types : List String) :
    (types.map base).flatMap boundNames = types := by
  rw [List.flatMap_map]
  exact List.flatMap_singleton' types

theorem flatMap_boundNames_stylesheet (stem : String) (added : Bool) :
    (if added then [stylesheet stem] else []).flatMap boundNames = [] := by
  cases added <;> rfl

end Target

/-! ## Distinct names -/

/-- Types are imported once each, so only a name in front of them can be bound twice. -/
theorem nodup_append_sortedDistinct {front types : List String} :
    (front ++ sortedDistinct types).Nodup ↔ front.Nodup ∧ ∀ name ∈ front, name ∉ types := by
  have distinct : (sortedDistinct types).Nodup := OrderedMap.nodup_eraseDups _
  rw [List.nodup_append', and_iff_right distinct]
  simp only [List.Disjoint, mem_sortedDistinct]

end Generated

/-! ## Modules and stories -/

namespace Generator

variable (g : Generator) (definitions : List Definition)

variable {g definitions} in
/-- The text of a module starts with imports of its targets. -/
theorem importsNames_file (m : GeneratedModule) :
    ImportsNames (g.file definitions m).content
      ((g.targets definitions m).flatMap Target.boundNames) := by
  refine ⟨_, _, (g.targets definitions m).map Target.boundNames, g.opensWith_file m, ?_, ?_⟩
  · rw [importLinesOf, List.forall₂_map_left_iff, List.forall₂_map_right_iff, List.forall₂_same]
    exact fun target _ => target.binds_line _
  · exact List.flatMap_def.symm

theorem sortedDistinct_instantiatedTypes (d : Definition) :
    sortedDistinct (instantiatedTypes (g.root d)) = sortedDistinct d.node.types := by
  have types : (g.root d).preorder.map (·.type) = d.node.preorder.map (·.type) := by
    rw [root, ResolvedNode.preorder_ofComponent, Node.preorder_eq, List.map_cons, List.map_cons,
      List.map_map]
    refine congrArg₂ _ ?_ (List.map_congr_left fun node _ => ?_)
    · rw [ResolvedNode.ofComponent, ResolvedNode.ofNode_eq]
    · rw [Function.comp_apply, ResolvedNode.ofNode_eq]
  refine eq_sortedDistinct (ascending_sortedDistinct _) fun type => ?_
  rw [mem_sortedDistinct, instantiatedTypes, types, Node.types, List.mem_eraseDups]

/-- The types whose children the story of a component shows. -/
def shownTypes (d : Definition) : List String :=
  if g.storyBody d = .children then d.node.merge.types else []

theorem boundNames_component (d : Definition) :
    (g.targets definitions (.component d)).flatMap Target.boundNames =
      "React" :: sortedDistinct d.node.types := by
  rw [targets, List.flatMap_append, List.flatMap_append, Target.flatMap_boundNames_base,
    Target.flatMap_boundNames_stylesheet, List.append_nil, sortedDistinct_instantiatedTypes]
  rfl

theorem boundNames_story (d : Definition) :
    (g.targets definitions (.story d)).flatMap Target.boundNames =
      ["React", "Meta", "StoryObj", d.name] ++ sortedDistinct (g.shownTypes d) := by
  rw [targets, List.flatMap_append, List.flatMap_append, Target.flatMap_boundNames_stylesheet,
    List.append_nil, shownTypes]
  have noTypes : sortedDistinct [] = [] := by rw [sortedDistinct, List.mergeSort_nil]; rfl
  refine congrArg₂ _ rfl ?_
  cases body : g.storyBody d with
  | children => exact Target.flatMap_boundNames_base _
  | arguments lines => rw [if_neg (by simp), noTypes]; rfl
  | empty => rw [if_neg (by simp), noTypes]; rfl

/-- The module of a component exports it. -/
theorem exports_component (d : Definition) : Exports (g.emitted d).source.code d.name := by
  obtain ⟨front, rest, head⟩ : ∃ front rest, moduleHead d.name (g.interfaces.getOrEmpty d.name)
      (hasInterfaceBlock (g.interfaces.getOrEmpty d.name) (g.root d) g.options) =
        front ++ ["export const " ++ d.name ++ " = (props: " ++ rest] := by
    rw [moduleHead]
    split
    · refine ⟨interfaceBlock d.name (g.interfaces.getOrEmpty d.name) ++ [""], d.name ++ ") => (", ?_⟩
      simp [String.append_assoc]
    · have opening : " = (props: \x7b children?: React.ReactNode \x7d) => (" =
          " = (props: " ++ "\x7b children?: React.ReactNode \x7d) => (" := rfl
      refine ⟨[], "\x7b children?: React.ReactNode \x7d) => (", ?_⟩
      rw [opening, List.nil_append, String.append_assoc, String.append_assoc, String.append_assoc]
  have nonempty : moduleLines d.name (g.interfaces.getOrEmpty d.name) (g.root d) g.options
      (g.hasStylesheet d) ≠ [] := by
    simp [moduleLines]
  rw [code_emitted g [d]]
  refine ⟨_, intercalate_append_lineFeed nonempty, rest, ?_⟩
  rw [moduleLines, head]
  simp

theorem importsNames_component (d : Definition) :
    ImportsNames (g.emitted d).source.code ("React" :: sortedDistinct d.node.types) := by
  rw [code_emitted g [d], ← boundNames_component g [d]]
  exact importsNames_file (.component d)

theorem importsNames_story {d : Definition} {story : String}
    (isStory : (g.emitted d).story = some story) :
    ImportsNames story
      (["React", "Meta", "StoryObj", d.name] ++ sortedDistinct (g.shownTypes d)) := by
  rw [story_emitted g [d]] at isStory
  split at isStory
  · obtain rfl := Option.some.inj isStory
    rw [← boundNames_story g [d]]
    exact importsNames_file (.story d)
  · cases isStory

variable {g} {d : Definition} {c : GeneratedComponent}

/-- A component whose root is a container with a text in it. -/
def containerOfText (name : String) : Definition :=
  .ofNode name { type := "Container", children := .single { type := "Text" } }

end Generator

end ComponentGen
