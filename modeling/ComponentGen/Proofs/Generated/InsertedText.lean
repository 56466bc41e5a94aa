import ComponentGen.Proofs.Generated.ImportLines
import ComponentGen.Proofs.Text.Pieces
/-!
# What is inserted in generated modules

Every generated module is made of what is inserted in it and of text of its own, which is the same in
all modules of a kind. Names, paths, types, values and the markup of nodes are inserted. The elements
that are no nodes, which are the one around the children in a story and those that the renderer is
written with, are text of the module's own but for the name of the component, and none of that text
has a class name.
-/

namespace ComponentGen.Generated

open Text (Avoids MadeOf)

/-- The text is made of these pieces and of text without class names. -/
abbrev Inserts (pieces : List String) (text : String) : Prop :=
  MadeOf (Avoids "className") id pieces text

/-- The lines are made of these pieces and of text without class names. -/
abbrev InsertsLines (pieces lines : List String) : Prop :=
  Inserts pieces ("\n".intercalate lines)

theorem avoids_empty : Avoids "className" "" :=
  .of_chars (by decide)

theorem avoids_lineFeed : Avoids "className" "\n" :=
  .of_chars (by decide)

/-- The blocks are called in front of what they hold, in interfaces, arguments and records. -/
theorem avoids_styleBlock : Avoids "className" ("styleMap" ++ ": ") := by
  have joined : "styleMap" ++ ": " = "styleMap: " := rfl
  rw [joined]
  exact .of_chars (by decide)

theorem avoids_dataBlock : Avoids "className" ("data" ++ ": ") := by
  have joined : "data" ++ ": " = "data: " := rfl
  rw [joined]
  exact .of_chars (by decide)

theorem inserts_piece (piece : String) : Inserts [piece] piece :=
  .item piece

namespace InsertsLines

variable {α : Type} {pieces more lines others : List String}

theorem append (front : InsertsLines pieces lines) (back : InsertsLines more others) :
    InsertsLines (pieces ++ more) (lines ++ others) :=
  MadeOf.intercalate_append avoids_lineFeed front back

theorem single {line : String} (inserts : Inserts pieces line) : InsertsLines pieces [line] := by
  rwa [InsertsLines, String.intercalate_singleton]

/-- A line of the module's own. -/
theorem own {line : String} (avoids : Avoids "className" line) : InsertsLines [] [line] :=
  single (.other avoids)

theorem map {items : List α} {piecesOf : α → List String} {line : α → String}
    (all : ∀ item ∈ items, Inserts (piecesOf item) (line item)) :
    InsertsLines (items.flatMap piecesOf) (items.map line) :=
  MadeOf.intercalate avoids_lineFeed avoids_empty all

end InsertsLines

/-! ## Imports -/

/-- What is inserted in the line of an import. -/
def Import.pieces : Import → List String
  | whole name path => [name, path]
  | named name path => [name, path]
  | stylesheet path => [path]

theorem inserts_importLine (i : Import) : Inserts i.pieces i.line := by
  have opening : Avoids "className" "import " := .of_chars (by decide)
  have openingBrace : Avoids "className" "import \x7b " := .of_chars (by decide)
  have openingQuote : Avoids "className" "import '" := .of_chars (by decide)
  have origin : Avoids "className" " from '" := .of_chars (by decide)
  have originBrace : Avoids "className" " \x7d from '" := .of_chars (by decide)
  have closing : Avoids "className" "';" := .of_chars (by decide)
  cases i with
  | whole name path =>
      have front := ((inserts_piece name).prepend opening).followedBy origin
      exact (front.append (inserts_piece path)).followedBy closing
  | named name path =>
      have front := ((inserts_piece name).prepend openingBrace).followedBy originBrace
      exact (front.append (inserts_piece path)).followedBy closing
  | stylesheet path => exact ((inserts_piece path).prepend openingQuote).followedBy closing

theorem inserts_importLines (imports : List Import) :
    InsertsLines (imports.flatMap Import.pieces) (importLines imports) :=
  .map fun i _ => inserts_importLine i

/-! ## Component modules -/

/-- What is inserted in a block of fields: the names and the types. -/
def fieldPieces (writeName : String → String) (fields : Option (OrderedMap String)) :
    List String :=
  (fields.getD .empty).entries.flatMap fun (name, type) => [writeName name, type]

theorem inserts_fieldLines {block : String} (avoids : Avoids "className" (block ++ ": "))
    (writeName : String → String) (fields : Option (OrderedMap String)) :
    InsertsLines (fieldPieces writeName fields) (fieldLines block writeName fields) := by
  have blanks : Avoids "className" "  " := .of_chars (by decide)
  have moreBlanks : Avoids "className" "    " := .of_chars (by decide)
  have colon : Avoids "className" ": " := .of_chars (by decide)
  have semicolon : Avoids "className" ";" := .of_chars (by decide)
  have opens : Avoids "className" "\x7b" := .of_chars (by decide)
  have closes : Avoids "className" "  \x7d;" := .of_chars (by decide)
  have split : "  " ++ block ++ ": \x7b" = "  " ++ (block ++ ": ") ++ "\x7b" := by
    rw [String.append_assoc, String.append_assoc, String.append_assoc]
    rfl
  have opening : InsertsLines [] ["  " ++ block ++ ": \x7b"] := by
    rw [split]
    exact .own ((blanks.append avoids).append opens)
  have fieldLine (field : String × String) : Inserts [writeName field.1, field.2]
      ("    " ++ writeName field.1 ++ ": " ++ field.2 ++ ";") := by
    have front := ((inserts_piece (writeName field.1)).prepend moreBlanks).followedBy colon
    exact (front.append (inserts_piece field.2)).followedBy semicolon
  have inside : InsertsLines (fieldPieces writeName fields)
      ((fields.getD .empty).entries.map fun (name, type) =>
        "    " ++ writeName name ++ ": " ++ type ++ ";") :=
    .map fun field _ => fieldLine field
  have whole := (opening.append inside).append (.own closes)
  rw [List.nil_append, List.append_nil] at whole
  rw [fieldLines]
  split
  · next none_here =>
      rw [fieldPieces, none_here]
      exact .other avoids_empty
  · exact whole

/-- What is inserted in the lines that open a component: its name and its fields. -/
def headPieces (name : String) (i : Interface) (withInterface : Bool) : List String :=
  if withInterface then
    [name] ++ fieldPieces JavaScript.quote i.styleFields ++
      fieldPieces JavaScript.propertyKey i.dataFields ++ [name, name]
  else [name]

theorem inserts_moduleHead (name : String) (i : Interface) (withInterface : Bool) :
    InsertsLines (headPieces name i withInterface) (moduleHead name i withInterface) := by
  have isInterface : Avoids "className" "interface " := .of_chars (by decide)
  have opens : Avoids "className" " \x7b" := .of_chars (by decide)
  have content : Avoids "className" "  children?: React.ReactNode;" := .of_chars (by decide)
  have closes : Avoids "className" "\x7d" := .of_chars (by decide)
  have exports : Avoids "className" "export const " := .of_chars (by decide)
  have takes : Avoids "className" " = (props: " := .of_chars (by decide)
  have returns : Avoids "className" ") => (" := .of_chars (by decide)
  have takesContent : Avoids "className"
      " = (props: \x7b children?: React.ReactNode \x7d) => (" := .of_chars (by decide)
  have opening : InsertsLines [name] ["interface " ++ name ++ " \x7b"] :=
    .single (((inserts_piece name).prepend isInterface).followedBy opens)
  have exporting := (inserts_piece name).prepend exports
  have withProps : InsertsLines [name, name]
      ["export const " ++ name ++ " = (props: " ++ name ++ ") => ("] :=
    .single (((exporting.followedBy takes).append (inserts_piece name)).followedBy returns)
  have withoutProps : InsertsLines [name]
      ["export const " ++ name ++ " = (props: \x7b children?: React.ReactNode \x7d) => ("] :=
    .single (exporting.followedBy takesContent)
  have closing : InsertsLines [] ["  children?: React.ReactNode;", "\x7d"] :=
    (InsertsLines.own content).append (.own closes)
  have blank : InsertsLines [] [""] := .own avoids_empty
  have fields := (opening.append (inserts_fieldLines avoids_styleBlock JavaScript.quote
    i.styleFields)).append (inserts_fieldLines avoids_dataBlock JavaScript.propertyKey i.dataFields)
  have whole := (fields.append closing).append (blank.append withProps)
  rw [List.append_nil] at whole
  rw [headPieces, moduleHead]
  split
  · exact whole
  · exact withoutProps

/-- What is inserted in a component module: its imports, its name and fields, and the markup. -/
def modulePieces (name : String) (i : Interface) (root : ResolvedNode) (options : Options)
    (hasStylesheet : Bool) : List String :=
  (moduleImports name root options hasStylesheet).flatMap Import.pieces ++
    headPieces name i (hasInterfaceBlock i root options) ++
    [(rootMarkup name root options.styleMode).render .paired]

theorem inserts_moduleText (name : String) (i : Interface) (root : ResolvedNode)
    (options : Options) (hasStylesheet : Bool) :
    Inserts (modulePieces name i root options hasStylesheet)
      (moduleText name i root options hasStylesheet) := by
  have blanks : Avoids "className" "  " := .of_chars (by decide)
  have closes : Avoids "className" ");" := .of_chars (by decide)
  have imports := inserts_importLines (moduleImports name root options hasStylesheet)
  have blank : InsertsLines [] [""] := .own avoids_empty
  have head := inserts_moduleHead name i (hasInterfaceBlock i root options)
  have markup : InsertsLines [(rootMarkup name root options.styleMode).render .paired]
      ["  " ++ (rootMarkup name root options.styleMode).render .paired] :=
    .single ((inserts_piece _).prepend blanks)
  have whole := ((imports.append blank).append head).append (markup.append (.own closes))
  rw [List.append_nil, List.append_nil] at whole
  exact whole.followedBy avoids_lineFeed

/-! ## Stories -/

namespace Story

/-- What is inserted in the line of a block: its samples. -/
def blockPieces (samples : List (String × Json)) : List String :=
  if samples.isEmpty then [] else [JavaScript.objectText (JavaScript.literalEntries samples)]

theorem inserts_blockLine {block : String} (avoids : Avoids "className" (block ++ ": "))
    (samples : List (String × Json)) :
    InsertsLines (blockPieces samples) (blockLine block samples) := by
  have blanks : Avoids "className" "    " := .of_chars (by decide)
  have comma : Avoids "className" "," := .of_chars (by decide)
  have front := blanks.append avoids
  rw [← String.append_assoc] at front
  rw [blockPieces, blockLine]
  split
  · exact .other avoids_empty
  · exact .single (((inserts_piece _).prepend front).followedBy comma)

/-- What is inserted in the body of a story: the samples, or the name of the component around the
markup of the children. -/
def bodyPieces (name : String) (i : Interface) (samples : Samples) (merged : Node) :
    Body → List String
  | .arguments _ =>
    blockPieces (Samples.declared i.styleFieldNames samples.style) ++
      blockPieces (Samples.declared i.dataFieldNames samples.data)
  | .children =>
    [name] ++ merged.childNodes.map (fun child => (plainMarkup child).render .compact) ++ [name]
  | .empty => []

/-- The element around the children has no attributes. -/
theorem inserts_renderBody (name : String) (merged : Node) :
    InsertsLines
      ([name] ++ merged.childNodes.map (fun child => (plainMarkup child).render .compact) ++ [name])
      (renderBody name merged) := by
  have less : Avoids "className" "    <" := .of_chars (by decide)
  have lessSlash : Avoids "className" "    </" := .of_chars (by decide)
  have greater : Avoids "className" ">" := .of_chars (by decide)
  have blanks : Avoids "className" "      " := .of_chars (by decide)
  have start : Avoids "className" "  render: () => (" := .of_chars (by decide)
  have stop : Avoids "className" "  )," := .of_chars (by decide)
  have openingTag : InsertsLines [name] ["    <" ++ name ++ ">"] :=
    .single (((inserts_piece name).prepend less).followedBy greater)
  have closingTag : InsertsLines [name] ["    </" ++ name ++ ">"] :=
    .single (((inserts_piece name).prepend lessSlash).followedBy greater)
  have children : InsertsLines
      (merged.childNodes.flatMap fun child => [(plainMarkup child).render .compact])
      (merged.childNodes.map fun child => "      " ++ (plainMarkup child).render .compact) :=
    .map fun child _ => (inserts_piece _).prepend blanks
  rw [← List.map_eq_flatMap] at children
  have opening := (InsertsLines.own start).append openingTag
  exact (opening.append children).append (closingTag.append (.own stop))

theorem inserts_arguments {i : Interface} {samples : Samples} {lines : List String}
    (given : arguments? i samples = some lines) :
    InsertsLines (blockPieces (Samples.declared i.styleFieldNames samples.style) ++
      blockPieces (Samples.declared i.dataFieldNames samples.data)) lines := by
  have opens : Avoids "className" "  args: \x7b" := .of_chars (by decide)
  have closes : Avoids "className" "  \x7d," := .of_chars (by decide)
  have styles := inserts_blockLine avoids_styleBlock (Samples.declared i.styleFieldNames samples.style)
  have data := inserts_blockLine avoids_dataBlock (Samples.declared i.dataFieldNames samples.data)
  have whole := (((InsertsLines.own opens).append styles).append data).append (.own closes)
  rw [List.append_nil, List.nil_append] at whole
  unfold arguments? at given
  split at given
  · cases given
  · cases given
    exact whole

theorem inserts_body (name : String) (i : Interface) (samples : Samples) (merged : Node)
    (options : Options) :
    InsertsLines (bodyPieces name i samples merged (chooseBody i samples merged options))
      ((chooseBody i samples merged options).lines name merged) := by
  have noArguments : Avoids "className" "  args: \x7b\x7d," := .of_chars (by decide)
  rw [chooseBody]
  split
  · next lines given => exact inserts_arguments given
  · split
    · exact inserts_renderBody name merged
    · exact .own noArguments

/-- What is inserted in a story: its imports, the name of the component, and the body. -/
def pieces (name : String) (imports : List Import) (body : List String) : List String :=
  imports.flatMap Import.pieces ++ [name, name, name, name] ++ body

theorem inserts_expand (name : String) (imports : List Import) {body bodyPieces : List String}
    (inserted : InsertsLines bodyPieces body) :
    Inserts (pieces name imports bodyPieces) (template.expand (values name imports body)) := by
  have texts : ∀ s ∈ template.texts, Avoids "className" s := by
    simp only [template, Template.texts, List.forall_mem_cons, List.not_mem_nil,
      IsEmpty.forall_iff, implies_true, and_true]
    and_intros <;> refine .join avoids_empty ?_ <;>
      simp only [List.forall_mem_cons, List.not_mem_nil, IsEmpty.forall_iff, implies_true,
        and_true] <;>
      and_intros <;> exact .of_chars (by decide +kernel)
  have whole : Inserts (template.holes.flatMap fun hole =>
      if hole = "name" then [name]
      else if hole = "imports" then imports.flatMap Import.pieces else bodyPieces)
      (template.expand (values name imports body)) := by
    refine MadeOf.expand avoids_empty texts fun hole => ?_
    rw [values]
    split
    · exact inserts_piece name
    · split
      · exact inserts_importLines imports
      · exact inserted
  have holes : template.holes = ["imports", "name", "name", "name", "name", "body"] := rfl
  rw [holes] at whole
  simpa [pieces] using whole

end Story

/-! ## The renderer module and its story -/

namespace Renderer

/-- What is inserted in the renderer: its imports and its registry. -/
def pieces (components : List String) (hasStylesheet : Bool) : List String :=
  (imports components hasStylesheet).flatMap Import.pieces ++
    (registry components).flatMap fun entry => [JavaScript.quote entry.1, entry.2]

theorem inserts_registryLine (entry : String × String) :
    Inserts [JavaScript.quote entry.1, entry.2] (registryLine entry) := by
  have blanks : Avoids "className" "  " := .of_chars (by decide)
  have colon : Avoids "className" ": " := .of_chars (by decide)
  have comma : Avoids "className" "," := .of_chars (by decide)
  have front := ((inserts_piece (JavaScript.quote entry.1)).prepend blanks).followedBy colon
  exact (front.append (inserts_piece entry.2)).followedBy comma

theorem inserts_text (components : List String) (hasStylesheet : Bool) :
    Inserts (pieces components hasStylesheet) (text components hasStylesheet) := by
  have texts : ∀ s ∈ template.texts, Avoids "className" s := by
    simp only [template, Template.texts, List.forall_mem_cons, List.not_mem_nil,
      IsEmpty.forall_iff, implies_true, and_true]
    refine ⟨.of_chars (by decide), .join avoids_empty ?_, .join avoids_empty ?_⟩ <;>
      simp only [List.forall_mem_cons, List.not_mem_nil, IsEmpty.forall_iff, implies_true,
        and_true] <;>
      and_intros <;> exact .of_chars (by decide +kernel)
  have whole : Inserts (template.holes.flatMap fun hole =>
      if hole = "imports" then (imports components hasStylesheet).flatMap Import.pieces
      else (registry components).flatMap fun entry => [JavaScript.quote entry.1, entry.2])
      (text components hasStylesheet) := by
    refine MadeOf.expand avoids_empty texts fun hole => ?_
    rw [values]
    split
    · exact inserts_importLines _
    · exact InsertsLines.map fun entry _ => inserts_registryLine entry
  have holes : template.holes = ["imports", "registry"] := rfl
  rw [holes] at whole
  simpa [pieces] using whole

end Renderer

namespace RendererStory

/-- What is inserted in the line of a block of a record, if the block is there. -/
def blockPieces (m : Option (OrderedMap Json)) : List String :=
  (m.map JavaScript.mapText).toList

mutual

/-- What is inserted in the lines of a record: the name of its component and its values. -/
def recordPieces : Record → List String
  | ⟨component, styleMap, data, children⟩ =>
    [JavaScript.quote component] ++ blockPieces styleMap ++ blockPieces data ++
      nestedPieces children

/-- What is inserted in the lines of the records nested in a record. -/
def nestedPieces : Option (List Record) → List String
  | none => []
  | some records => listPieces records

/-- What is inserted in the lines of several records. -/
def listPieces : List Record → List String
  | [] => []
  | record :: rest => recordPieces record ++ listPieces rest

end

theorem avoids_blanks (width : Nat) :
    Avoids "className" (String.ofList (List.replicate width ' ')) := by
  have blank : Avoids "className" " " := .of_chars (by decide)
  induction width with
  | zero => exact avoids_empty
  | succ width ih =>
      rw [blanks_succ]
      exact blank.append ih

theorem inserts_blockLine {pad block : String} (isPad : Avoids "className" pad)
    (avoids : Avoids "className" (block ++ ": ")) (m : Option (OrderedMap Json)) :
    InsertsLines (blockPieces m) (blockLine pad block m) := by
  have blanks : Avoids "className" "  " := .of_chars (by decide)
  have comma : Avoids "className" "," := .of_chars (by decide)
  cases m with
  | none => exact .other avoids_empty
  | some values =>
      have front := (isPad.append blanks).append avoids
      rw [← String.append_assoc] at front
      exact .single (((inserts_piece (JavaScript.mapText values)).prepend front).followedBy comma)

mutual

theorem inserts_recordLines (width : Nat) : ∀ r : Record,
    InsertsLines (recordPieces r) (recordLines width r)
  | ⟨component, styleMap, data, children⟩ => by
      have opens : Avoids "className" "\x7b" := .of_chars (by decide)
      have closes : Avoids "className" "\x7d," := .of_chars (by decide)
      have named : Avoids "className" "  component: " := .of_chars (by decide)
      have comma : Avoids "className" "," := .of_chars (by decide)
      have pad := avoids_blanks width
      have opening := InsertsLines.own (pad.append opens)
      have nameLine := InsertsLines.single
        (((inserts_piece (JavaScript.quote component)).prepend (pad.append named)).followedBy comma)
      have styles := inserts_blockLine pad avoids_styleBlock styleMap
      have values := inserts_blockLine pad avoids_dataBlock data
      have whole := ((((opening.append nameLine).append styles).append values).append
        (inserts_nestedLines width children)).append (.own (pad.append closes))
      rw [List.append_nil] at whole
      rw [recordPieces, recordLines]
      exact whole

theorem inserts_nestedLines (width : Nat) : ∀ children : Option (List Record),
    InsertsLines (nestedPieces children) (nestedLines width children)
  | none => .other avoids_empty
  | some records => by
      have opens : Avoids "className" "  children: [" := .of_chars (by decide)
      have closes : Avoids "className" "  ]," := .of_chars (by decide)
      have pad := avoids_blanks width
      have opening := InsertsLines.own (pad.append opens)
      have whole := (opening.append (inserts_listLines (width + 4) records)).append
        (.own (pad.append closes))
      rw [List.append_nil] at whole
      rw [nestedPieces, nestedLines]
      exact whole

theorem inserts_listLines (width : Nat) : ∀ records : List Record,
    InsertsLines (listPieces records) (listLines width records)
  | [] => .other avoids_empty
  | record :: rest => by
      rw [listPieces, listLines]
      exact (inserts_recordLines width record).append (inserts_listLines width rest)

end

theorem inserts_text (records : List Record) : Inserts (listPieces records) (text records) := by
  have texts : ∀ s ∈ template.texts, Avoids "className" s := by
    simp only [template, Template.texts, List.forall_mem_cons, List.not_mem_nil,
      IsEmpty.forall_iff, implies_true, and_true]
    refine ⟨.join avoids_empty ?_, .join avoids_empty ?_⟩ <;>
      simp only [List.forall_mem_cons, List.not_mem_nil, IsEmpty.forall_iff, implies_true,
        and_true] <;>
      and_intros <;> exact .of_chars (by decide +kernel)
  have whole : Inserts (template.holes.flatMap fun _ => listPieces records) (text records) :=
    MadeOf.expand avoids_empty texts fun _ => inserts_listLines 6 records
  have holes : template.holes = ["records"] := rfl
  rwa [holes, List.flatMap_singleton] at whole

end RendererStory

end ComponentGen.Generated
