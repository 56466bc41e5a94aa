import ComponentGen.Generated.Renderer
import ComponentGen.Generated.RendererStory
import ComponentGen.Generated.Story
import Mathlib.Data.List.Basic
/-!
# Import lines

Every generated module is written line by line: its imports come first, and no other line starts
like an import. Lines are counted as they are written; a name or a type that is put into one may
hold line breaks of its own.
-/

namespace ComponentGen.Generated

/-! ## Lines -/

/-- A line with its line feed that does not start like an import. It has no other line feed, unless
something with a line feed was inserted. -/
structure IsOtherLine (inserted : List String) (line : String) : Prop where
  ends : line.toList.getLast? = some '\n'
  notImport : ¬ "import".toList <+: line.toList
  single : line.toList.count '\n' = 1 ∨
    ∃ s ∈ inserted, '\n' ∈ s.toList ∧ s.toList <:+: line.toList

/-- The text starts with these import lines and goes on, line by line, without another one. -/
def OpensWith (text : String) (imports inserted : List String) : Prop :=
  ∃ others : List String, (∀ line ∈ others, IsOtherLine inserted line) ∧
    text = String.join (imports.map (· ++ "\n") ++ others)

/-- The characters of a line in which nothing was inserted. -/
def IsFixedLine (chars : List Char) : Prop :=
  chars.getLast? = some '\n' ∧ ¬ "import".toList <+: chars ∧ chars.count '\n' = 1

instance (chars : List Char) : Decidable (IsFixedLine chars) :=
  inferInstanceAs (Decidable (_ ∧ _))

theorem IsFixedLine.isOtherLine {chars : List Char} (isFixed : IsFixedLine chars)
    {inserted : List String} : IsOtherLine inserted (String.ofList chars) := by
  have same : (String.ofList chars).toList = chars := String.toList_ofList
  exact ⟨same.symm ▸ isFixed.1, same.symm ▸ isFixed.2.1, .inl (same.symm ▸ isFixed.2.2)⟩

/-- An indentation starts with a blank. -/
theorem blanks_succ (width : Nat) :
    String.ofList (List.replicate (width + 1) ' ') =
      " " ++ String.ofList (List.replicate width ' ') := by
  rw [List.replicate_succ, ← List.singleton_append, String.ofList_append]

/-- However the text goes on, it does not start with the word. -/
def Apart (word front : String) : Prop :=
  ¬ word.toList <+: front.toList ∧ ¬ front.toList <+: word.toList

instance (word front : String) : Decidable (Apart word front) :=
  inferInstanceAs (Decidable (_ ∧ _))

namespace Apart

theorem append {word front : String} (apart : Apart word front) (back : String) :
    Apart word (front ++ back) := by
  rw [Apart, String.toList_append]
  constructor
  · intro starts
    rcases List.prefix_or_prefix_of_prefix starts (List.prefix_append _ _) with inFront | inWord
    · exact apart.1 inFront
    · exact apart.2 inWord
  · intro starts
    exact apart.2 ((List.prefix_append _ _).trans starts)

variable {front : String} (apart : Apart "import" front)

include apart

/-- A line with something inserted between its ends. -/
theorem isOtherLine {inserted : List String} {s back : String} (isInserted : s ∈ inserted)
    (free : '\n' ∉ front.toList) (ends : back.toList.getLast? = some '\n')
    (single : back.toList.count '\n' = 1) : IsOtherLine inserted (front ++ s ++ back) where
  ends := by rw [String.toList_append, List.getLast?_append, ends, Option.some_or]
  notImport := ((apart.append s).append back).1
  single := by
    by_cases broken : '\n' ∈ s.toList
    · refine .inr ⟨s, isInserted, broken, ?_⟩
      rw [String.toList_append, String.toList_append]
      exact List.infix_append _ _ _
    · left
      rw [String.toList_append, String.toList_append, List.count_append, List.count_append,
        List.count_eq_zero.2 free, List.count_eq_zero.2 broken, single]

/-- A line that is inserted as a whole. -/
theorem isOtherLine_of_mem {inserted : List String} (isInserted : front ∈ inserted) :
    IsOtherLine inserted (front ++ "\n") where
  ends := by simp
  notImport := (apart.append "\n").1
  single := by
    by_cases broken : '\n' ∈ front.toList
    · refine .inr ⟨front, isInserted, broken, ?_⟩
      rw [String.toList_append]
      exact (List.prefix_append _ _).isInfix
    · left
      rw [String.toList_append, List.count_append, List.count_eq_zero.2 broken]
      rfl

/-- Blanks in front of a text keep it apart. -/
theorem indent (width : Nat) :
    Apart "import" (String.ofList (List.replicate width ' ') ++ front) := by
  cases width with
  | zero => simpa using apart
  | succ width =>
      have blank : Apart "import" " " := by decide
      rw [blanks_succ, String.append_assoc]
      exact blank.append _

end Apart

theorem isOtherLine_blank {inserted : List String} : IsOtherLine inserted "\n" :=
  IsFixedLine.isOtherLine (by decide)

/-- Lines with line feeds between them and one behind them. -/
theorem intercalate_append_lineFeed {lines : List String} (nonempty : lines ≠ []) :
    "\n".intercalate lines ++ "\n" = String.join (lines.map (· ++ "\n")) := by
  induction lines with
  | nil => exact absurd rfl nonempty
  | cons first rest ih =>
      cases rest with
      | nil => simp
      | cons second more =>
          rw [String.intercalate_cons_cons, String.append_assoc, ih (List.cons_ne_nil _ _)]
          exact String.join_cons.symm

theorem intercalate_importLines {imports : List Import} (nonempty : imports ≠ []) :
    "\n".intercalate (importLines imports) ++ "\n" =
      String.join ((importLines imports).map (· ++ "\n")) :=
  intercalate_append_lineFeed (mt List.map_eq_nil_iff.1 nonempty)

/-- Lines with line feeds between them and one behind them; no lines at all make one blank line. -/
theorem exists_blankLines (lines : List String) :
    ∃ blanks : List String, (∀ line ∈ blanks, line = "\n") ∧
      "\n".intercalate lines ++ "\n" = String.join (lines.map (· ++ "\n") ++ blanks) := by
  by_cases empty : lines = []
  · subst empty
    exact ⟨["\n"], fun line => List.mem_singleton.1, rfl⟩
  · refine ⟨[], fun line absent => absurd absent List.not_mem_nil, ?_⟩
    rw [List.append_nil, intercalate_append_lineFeed empty]

/-- Inserted lines, each of which goes on without an import. -/
theorem exists_otherLines {lines inserted : List String}
    (apart : ∀ line ∈ lines, Apart "import" line) (areInserted : lines ⊆ inserted) :
    ∃ others : List String, (∀ line ∈ others, IsOtherLine inserted line) ∧
      "\n".intercalate lines ++ "\n" = String.join others := by
  obtain ⟨blanks, areBlank, joined⟩ := exists_blankLines lines
  refine ⟨lines.map (· ++ "\n") ++ blanks, ?_, joined⟩
  rw [List.forall_mem_append, List.forall_mem_map]
  exact ⟨fun line member => (apart line member).isOtherLine_of_mem (areInserted member),
    fun line isBlank => areBlank line isBlank ▸ isOtherLine_blank⟩

/-! ## Component modules -/

theorem apart_of_mem_fieldLines {block : String} {writeName : String → String}
    {fields : Option (OrderedMap String)} {line : String}
    (member : line ∈ fieldLines block writeName fields) : Apart "import" line := by
  have blanks : Apart "import" "  " := by decide
  have moreBlanks : Apart "import" "    " := by decide
  unfold fieldLines at member
  split at member
  · cases member
  · rw [List.mem_append, List.mem_append, List.mem_singleton, List.mem_singleton] at member
    rcases member with (rfl | inFields) | rfl
    · exact (blanks.append block).append _
    · obtain ⟨⟨name, type⟩, -, rfl⟩ := List.mem_map.1 inFields
      exact (((moreBlanks.append _).append _).append _).append _
    · decide

theorem apart_of_mem_moduleHead {name : String} {i : Interface} {withInterface : Bool}
    {line : String} (member : line ∈ moduleHead name i withInterface) :
    Apart "import" line ∨ line = "" := by
  have opening : Apart "import" "interface " := by decide
  have exporting : Apart "import" "export const " := by decide
  unfold moduleHead at member
  split at member
  · rw [interfaceBlock] at member
    simp only [List.mem_append, List.mem_cons, List.not_mem_nil, or_false] at member
    rcases member with (((rfl | inStyle) | inData) | rfl | rfl) | rfl | rfl
    · exact .inl ((opening.append name).append _)
    · exact .inl (apart_of_mem_fieldLines inStyle)
    · exact .inl (apart_of_mem_fieldLines inData)
    · exact .inl (by decide)
    · exact .inl (by decide)
    · exact .inr rfl
    · exact .inl ((((exporting.append name).append _).append name).append _)
  · obtain rfl := List.mem_singleton.1 member
    exact .inl ((exporting.append name).append _)

/-- The lines of a component module that are not the same in every module. -/
def insertedLines (name : String) (i : Interface) (root : ResolvedNode) (options : Options) :
    List String :=
  moduleHead name i (hasInterfaceBlock i root options) ++
    ["  " ++ (rootMarkup name root options.styleMode).render .paired]

theorem opensWith_moduleText (name : String) (i : Interface) (root : ResolvedNode)
    (options : Options) (hasStylesheet : Bool) :
    OpensWith (moduleText name i root options hasStylesheet)
      (importLines (moduleImports name root options hasStylesheet))
      (insertedLines name i root options) := by
  have blanks : Apart "import" "  " := by decide
  refine ⟨(("" :: insertedLines name i root options) ++ [");"]).map (· ++ "\n"), ?_, ?_⟩
  · rw [List.forall_mem_map, List.forall_mem_append, List.forall_mem_cons]
    refine ⟨⟨isOtherLine_blank, fun line isInserted => ?_⟩, ?_⟩
    · have kind : Apart "import" line ∨ line = "" := by
        rcases List.mem_append.1 isInserted with inHead | isMarkup
        · exact apart_of_mem_moduleHead inHead
        · rw [List.mem_singleton.1 isMarkup]
          exact .inl (blanks.append _)
      rcases kind with apart | rfl
      · exact apart.isOtherLine_of_mem isInserted
      · exact isOtherLine_blank
    · have closing : IsOtherLine (insertedLines name i root options) ");\n" :=
        IsFixedLine.isOtherLine (by decide)
      exact List.forall_mem_singleton.2 closing
  · have nonempty : moduleLines name i root options hasStylesheet ≠ [] := by
      simp [moduleLines]
    rw [moduleText, intercalate_append_lineFeed nonempty, moduleLines, insertedLines,
      ← List.map_append]
    simp

/-! ## Stories -/

namespace Story

/-- What every story imports from libraries. -/
def libraryLines : List String :=
  ["import React from \"react\";",
    "import type \x7b Meta, StoryObj \x7d from \"@storybook/react\";"]

theorem apart_of_mem_blockLine {block : String} {samples : List (String × Json)} {line : String}
    (member : line ∈ blockLine block samples) : Apart "import" line := by
  have blanks : Apart "import" "    " := by decide
  unfold blockLine at member
  split at member
  · cases member
  · obtain rfl := List.mem_singleton.1 member
    exact (((blanks.append block).append _).append _).append _

theorem apart_of_mem_lines {i : Interface} {samples : Samples} {merged : Node} {options : Options}
    {name line : String}
    (member : line ∈ (chooseBody i samples merged options).lines name merged) :
    Apart "import" line := by
  have opening : Apart "import" "    <" := by decide
  have closing : Apart "import" "    </" := by decide
  have blanks : Apart "import" "      " := by decide
  unfold chooseBody at member
  split at member
  · next lines areArguments =>
      unfold arguments? at areArguments
      split at areArguments
      · cases areArguments
      · cases areArguments
        simp only [Body.lines, List.mem_append, List.mem_singleton] at member
        rcases member with ((rfl | inStyle) | inData) | rfl
        · decide
        · exact apart_of_mem_blockLine inStyle
        · exact apart_of_mem_blockLine inData
        · decide
  · split at member
    · simp only [Body.lines, renderBody, List.mem_append, List.mem_cons, List.not_mem_nil,
        or_false] at member
      rcases member with ((rfl | rfl) | inChildren) | rfl | rfl
      · decide
      · exact (opening.append name).append _
      · obtain ⟨child, -, rfl⟩ := List.mem_map.1 inChildren
        exact blanks.append _
      · exact (closing.append name).append _
      · decide
    · obtain rfl := List.mem_singleton.1 member
      decide

theorem opensWith_expand (name : String) {imports : List Import} {body : List String}
    (nonempty : imports ≠ []) (apart : ∀ line ∈ body, Apart "import" line) :
    OpensWith (template.expand (values name imports body))
      (libraryLines ++ importLines imports) (name :: body) := by
  obtain ⟨others, areOther, joined⟩ := exists_otherLines apart (List.subset_cons_self name body)
  refine ⟨["\n", "const meta: Meta<typeof " ++ name ++ "> = \x7b\n",
    "  title: \"Generated/" ++ name ++ "\",\n", "  component: " ++ name ++ ",\n",
    "  tags: [\"autodocs\"],\n", "\x7d;\n", "export default meta;\n", "\n",
    "type Story = StoryObj<typeof " ++ name ++ ">;\n", "\n",
    "export const Default: Story = \x7b\n"] ++ others ++ ["\x7d;\n"], ?_, ?_⟩
  · have fixed {chars : List Char} (isFixed : IsFixedLine chars) :
        IsOtherLine (name :: body) (String.ofList chars) := isFixed.isOtherLine
    have named {front back : String} (apart : Apart "import" front ∧ '\n' ∉ front.toList)
        (ends : back.toList.getLast? = some '\n' ∧ back.toList.count '\n' = 1) :
        IsOtherLine (name :: body) (front ++ name ++ back) :=
      apart.1.isOtherLine List.mem_cons_self apart.2 ends.1 ends.2
    simp only [List.forall_mem_append, List.forall_mem_cons, List.not_mem_nil, IsEmpty.forall_iff,
      implies_true, and_true]
    exact ⟨⟨⟨isOtherLine_blank, named (by decide) (by decide), named (by decide) (by decide),
      named (by decide) (by decide), fixed (by decide +kernel), fixed (by decide +kernel),
      fixed (by decide +kernel), isOtherLine_blank, named (by decide) (by decide),
      isOtherLine_blank, fixed (by decide +kernel)⟩, areOther⟩, fixed (by decide +kernel)⟩
  · have lines := intercalate_importLines nonempty
    have libraries : libraryLines.map (· ++ "\n") = ["import React from \"react\";\n",
      "import type \x7b Meta, StoryObj \x7d from \"@storybook/react\";\n"] := rfl
    have holeName : values name imports body "name" = name := if_pos rfl
    have holeImports : values name imports body "imports" =
        "\n".intercalate (importLines imports) := rfl
    have holeBody : values name imports body "body" = "\n".intercalate body := rfl
    simp only [Template.expand, template, Template.Part.expand, List.map_cons, List.map_nil,
      List.map_append, String.join_append, String.join_cons, String.join_nil, String.append_empty,
      String.append_assoc, holeName, holeImports, holeBody, libraries, ← lines, ← joined]

/-- The body that is chosen for the story of a component. -/
def bodyOf (n : Node) (i : Interface) (index : PlaceholderIndex) (options : Options) : Body :=
  chooseBody i (Samples.find n n.merge index) n.merge options

theorem opensWith_text (name : String) (n : Node) (i : Interface) (index : PlaceholderIndex)
    (hasStylesheet : Bool) (options : Options) :
    OpensWith (text name n i index hasStylesheet options)
      (libraryLines ++
        importLines (imports name n.merge (bodyOf n i index options) hasStylesheet options))
      (name :: (bodyOf n i index options).lines name n.merge) :=
  opensWith_expand name (by simp [imports]) fun _ member => apart_of_mem_lines member

end Story

/-! ## The renderer module and its story -/

namespace Renderer

theorem opensWith_text (components : List String) (hasStylesheet : Bool) :
    OpensWith (text components hasStylesheet)
      ("import React from 'react';" :: importLines (imports components hasStylesheet))
      ((registry components).map registryLine) := by
  obtain ⟨parts, shape, partsAreOther⟩ : ∃ parts, template = [
      .text "import React from 'react';\n", .hole "imports",
      .text (String.join ["\n", "\n",
        "const componentMap: Record<string, React.ComponentType<any>> = \x7b\n"]),
      .hole "registry", .text (String.join ("\n" :: parts))] ∧
      ∀ line ∈ parts, IsOtherLine ((registry components).map registryLine) line := by
    -- The template fixes the parts; each is checked by its characters.
    refine ⟨_, rfl, ?_⟩
    simp only [List.forall_mem_cons, List.not_mem_nil, IsEmpty.forall_iff, implies_true, and_true]
    and_intros <;> exact IsFixedLine.isOtherLine (by decide +kernel)
  have blanks : Apart "import" "  " := by decide
  have apart : ∀ line ∈ (registry components).map registryLine, Apart "import" line := by
    intro line member
    obtain ⟨entry, -, rfl⟩ := List.mem_map.1 member
    exact (((blanks.append _).append _).append _).append _
  obtain ⟨others, areOther, joined⟩ := exists_otherLines apart (List.Subset.refl _)
  obtain ⟨blanks, areBlank, joinedImports⟩ :=
    exists_blankLines (importLines (imports components hasStylesheet))
  refine ⟨blanks ++
    ["\n", "const componentMap: Record<string, React.ComponentType<any>> = \x7b\n"] ++ others ++
    parts, ?_, ?_⟩
  · rw [List.forall_mem_append, List.forall_mem_append, List.forall_mem_append, List.forall_mem_cons,
      List.forall_mem_singleton]
    exact ⟨⟨⟨fun line isBlank => areBlank line isBlank ▸ isOtherLine_blank, isOtherLine_blank,
      IsFixedLine.isOtherLine (by decide +kernel)⟩, areOther⟩, partsAreOther⟩
  · have lines (rest : String) :
        "\n".intercalate (importLines (imports components hasStylesheet)) ++ ("\n" ++ rest) =
          String.join ((importLines (imports components hasStylesheet)).map (· ++ "\n")) ++
            (String.join blanks ++ rest) := by
      rw [← String.append_assoc, joinedImports, String.join_append, String.append_assoc]
    have react : "import React from 'react';" ++ "\n" = "import React from 'react';\n" := rfl
    have holeImports : values components hasStylesheet "imports" =
        "\n".intercalate (importLines (imports components hasStylesheet)) := if_pos rfl
    have holeRegistry : values components hasStylesheet "registry" =
        "\n".intercalate ((registry components).map registryLine) := rfl
    rw [text, shape]
    simp only [Template.expand, Template.Part.expand, List.map_cons, List.map_nil,
      String.join_append, String.join_cons, String.join_nil, String.append_empty,
      String.append_assoc, holeImports, holeRegistry, react, lines, ← joined]

end Renderer

namespace RendererStory

theorem apart_of_mem_blockLine {width : Nat} {block : String} {m : Option (OrderedMap Json)}
    {line : String}
    (member : line ∈ blockLine (String.ofList (List.replicate width ' ')) block m) :
    Apart "import" line := by
  have blanks : Apart "import" "  " := by decide
  cases m with
  | none => cases member
  | some values =>
      obtain rfl := List.mem_singleton.1 member
      exact ((((blanks.indent width).append _).append _).append _).append _

mutual

theorem apart_of_mem_recordLines {line : String} : ∀ {width : Nat} (r : Record),
    line ∈ recordLines width r → Apart "import" line
  | width, ⟨component, styleMap, data, children⟩, member => by
    have opening : Apart "import" "\x7b" := by decide
    have named : Apart "import" "  component: " := by decide
    have closing : Apart "import" "\x7d," := by decide
    simp only [recordLines, List.mem_append, List.mem_cons, List.not_mem_nil, or_false] at member
    rcases member with ((((rfl | rfl) | inStyle) | inData) | inNested) | rfl
    · exact opening.indent width
    · exact ((named.indent width).append _).append _
    · exact apart_of_mem_blockLine inStyle
    · exact apart_of_mem_blockLine inData
    · exact apart_of_mem_nestedLines children inNested
    · exact closing.indent width

theorem apart_of_mem_nestedLines {line : String} :
    ∀ {width : Nat} (children : Option (List Record)),
    line ∈ nestedLines width children → Apart "import" line
  | _, none, member => by cases member
  | width, some records, member => by
    have opening : Apart "import" "  children: [" := by decide
    have closing : Apart "import" "  ]," := by decide
    simp only [nestedLines, List.mem_append, List.mem_singleton] at member
    rcases member with (rfl | inRecords) | rfl
    · exact opening.indent width
    · exact apart_of_mem_listLines records inRecords
    · exact closing.indent width

theorem apart_of_mem_listLines {line : String} : ∀ {width : Nat} (records : List Record),
    line ∈ listLines width records → Apart "import" line
  | _, [], member => by cases member
  | _, record :: rest, member => by
    rw [listLines, List.mem_append] at member
    exact member.elim (apart_of_mem_recordLines record) (apart_of_mem_listLines rest)

end

/-- What the story of the renderer imports. -/
def openingLines : List String :=
  Story.libraryLines ++ [(Import.sibling "Renderer").line,
    "import type \x7b ComponentData \x7d from './Renderer';"]

theorem opensWith_text (records : List Record) :
    OpensWith (text records) openingLines (listLines 6 records) := by
  obtain ⟨front, back, shape, partsAreOther⟩ : ∃ front back, template = [
      .text (String.join (openingLines.map (· ++ "\n") ++ front)), .hole "records",
      .text (String.join ("\n" :: back))] ∧
      ∀ line ∈ front ++ back, IsOtherLine (listLines 6 records) line := by
    refine ⟨_, _, rfl, ?_⟩
    simp only [List.forall_mem_append, List.forall_mem_cons, List.not_mem_nil, IsEmpty.forall_iff,
      implies_true, and_true]
    and_intros <;> exact IsFixedLine.isOtherLine (by decide +kernel)
  obtain ⟨others, areOther, joined⟩ := exists_otherLines
    (fun line (member : line ∈ listLines 6 records) => apart_of_mem_listLines records member)
    (List.Subset.refl _)
  rw [List.forall_mem_append] at partsAreOther
  refine ⟨front ++ others ++ back, ?_, ?_⟩
  · rw [List.forall_mem_append, List.forall_mem_append]
    exact ⟨⟨partsAreOther.1, areOther⟩, partsAreOther.2⟩
  · rw [text, shape]
    simp only [Template.expand, Template.Part.expand, List.map_cons, List.map_nil,
      String.join_append, String.join_cons, String.join_nil, String.append_empty,
      String.append_assoc, ← joined]

end RendererStory

end ComponentGen.Generated
