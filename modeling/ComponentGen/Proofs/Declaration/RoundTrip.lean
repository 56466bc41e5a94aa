import ComponentGen.Generated.ComponentModule
import ComponentGen.Proofs.Declaration.Members
import ComponentGen.Proofs.Declaration.Reading
import ComponentGen.Proofs.OrderedMap
/-!
# Reading back a generated interface

The interface block of a generated module is read back as the interface that it was written for.
The text is cut into tokens piece by piece: each line begins with a line feed, so nothing in front
of it reaches into it. On the tokens, each field is a member that shows its own end, each block of
fields is one more such member, and the whole body is balanced.
-/

namespace ComponentGen.Declaration

/-- What the text of a type must be like to be read back from the place where it is written. -/
structure ReadableType (text : String) : Prop where
  nonempty : (tokenize text).tokens ≠ []
  starts : ∀ first ∈ (tokenize text).tokens.head?, first.gap = ""
  ends : (tokenize text).tail = ""
  settled : Settled (tokenize text).tokens
  balance : BracesBalance (tokenize text).tokens
  shape : IsObjectType (tokenize text).tokens ∨ IsPlainType (tokenize text).tokens

instance (text : String) : Decidable (ReadableType text) :=
  decidable_of_iff
    ((tokenize text).tokens ≠ [] ∧ (∀ first ∈ (tokenize text).tokens.head?, first.gap = "") ∧
      (tokenize text).tail = "" ∧ Settled (tokenize text).tokens ∧
      BracesBalance (tokenize text).tokens ∧
      (IsObjectType (tokenize text).tokens ∨ IsPlainType (tokenize text).tokens))
    ⟨fun ⟨nonempty, starts, ends, settled, balance, shape⟩ =>
        ⟨nonempty, starts, ends, settled, balance, shape⟩,
      fun h => ⟨h.nonempty, h.starts, h.ends, h.settled, h.balance, h.shape⟩⟩

/-- The names of the fields are quoted as they are, and their types can be read back. -/
def ReadableFields (entries : List (String × String)) : Prop :=
  ∀ entry ∈ entries, QuotesPlainly entry.1 ∧ ReadableType entry.2

instance (entries : List (String × String)) : Decidable (ReadableFields entries) :=
  inferInstanceAs (Decidable (∀ entry ∈ entries, _ ∧ _))

/-- The fields of a block that is written only when it has any. -/
def declaredFields (block : Option (OrderedMap String)) : Option (OrderedMap String) :=
  block.filter fun m => !m.isEmpty

/-- Each line behind a line feed. -/
def lineText (lines : List String) : List Char :=
  lines.flatMap fun line => '\n' :: line.toList

/-! ## Lines -/

theorem toList_intercalate_newline (first : String) (lines : List String) :
    ("\n".intercalate (first :: lines)).toList = first.toList ++ lineText lines := by
  induction lines generalizing first with
  | nil =>
      rw [String.intercalate_singleton]
      exact (List.append_nil _).symm
  | cons second lines ih =>
      rw [String.intercalate_cons_cons, String.toList_append, String.toList_append, ih,
        List.append_assoc]
      rfl

theorem lineText_append (first second : List String) :
    lineText (first ++ second) = lineText first ++ lineText second :=
  List.flatMap_append

theorem breaks_lineText (lines : List String) : Breaks (lineText lines) := by
  cases lines with
  | nil => exact breaks_nil
  | cons line lines => exact breaks_cons (by decide)

namespace ReadableType

variable {type : String} (readable : ReadableType type)

include readable

theorem tokensOf_eq : tokensOf type.toList = ((tokenize type).tokens, []) := by
  have ends : (tokensOf type.toList).2 = [] := String.ofList_eq_empty_iff.1 readable.ends
  exact Prod.ext rfl ends

/-- The tokens of the type behind a blank. -/
theorem reads_behind_blank :
    Reads (' ' :: type.toList) (pushGap [' '] (tokensOf type.toList)).1 := by
  have reads : Reads type.toList (tokenize type).tokens := ⟨readable.tokensOf_eq, readable.settled⟩
  rw [readable.tokensOf_eq]
  show Reads ([' '] ++ type.toList) _
  exact reads.blank (by decide) readable.nonempty

theorem tokens_ne_nil : (pushGap [' '] (tokensOf type.toList)).1 ≠ [] := by
  rw [readable.tokensOf_eq]
  cases tokens : (tokenize type).tokens with
  | nil => exact absurd tokens readable.nonempty
  | cons first rest => exact List.cons_ne_nil _ _

theorem shape_behind_blank :
    IsObjectType (pushGap [' '] (tokensOf type.toList)).1 ∨
      IsPlainType (pushGap [' '] (tokensOf type.toList)).1 :=
  readable.shape.imp isObjectType_pushGap.2 isPlainType_pushGap.2

theorem sourceText_eq :
    Token.sourceText (pushGap [' '] (tokensOf type.toList)).1 = type := by
  have whole := text_tokenize type
  rw [sourceText_pushGap]
  show Token.sourceText (tokenize type).tokens = type
  cases tokens : (tokenize type).tokens with
  | nil => exact absurd tokens readable.nonempty
  | cons first rest =>
      have noGap : first.gap = "" := readable.starts first (by rw [tokens]; rfl)
      rw [TokenStream.text, tokens, readable.ends, List.map_cons, String.join_cons, noGap,
        String.empty_append, String.append_empty] at whole
      exact whole

end ReadableType

/-- Every line begins with a line feed, so none reaches into the next one. -/
theorem Reads.lines {first second : List String} {front back : List Token}
    (reads : Reads (lineText first) front) (more : Reads (lineText second) back) :
    Reads (lineText (first ++ second)) (front ++ back) := by
  rw [lineText_append]
  exact reads.append more (breaks_lineText second)

/-- A field is read as a member whose type is the type of the field. -/
theorem reads_field {writeName : String → String} {name type : String} {key : TokenKind}
    {before : String} (blanks : before.toList.all isBlank = true)
    (written : Reads (writeName name).toList [⟨"", key⟩]) (readable : ReadableType type) :
    Reads (before ++ writeName name ++ ": " ++ type ++ ";").toList
      (memberTokens ⟨before, key⟩ (pushGap [' '] (tokensOf type.toList)).1) := by
  have colon : Reads [':'] [⟨"", .punct ':'⟩] := .punct rfl rfl (by decide) (by decide)
  have semicolon : Reads [';'] [⟨"", .punct ';'⟩] := .punct rfl rfl (by decide) (by decide)
  have keyPiece : Reads (before.toList ++ (writeName name).toList) [⟨before, key⟩] := by
    have piece := written.blank blanks (List.cons_ne_nil _ _)
    rw [pushGap, String.ofList_toList, String.append_empty] at piece
    exact piece
  have typePiece := readable.reads_behind_blank.append semicolon (breaks_cons (by decide))
  have whole := keyPiece.append (colon.append typePiece (breaks_cons (by decide)))
    (breaks_cons (by decide))
  have pieces : (before ++ writeName name ++ ": " ++ type ++ ";").toList =
      before.toList ++ (writeName name).toList ++ ([':'] ++ (' ' :: type.toList ++ [';'])) := by
    simp [String.toList_append]
  rw [pieces]
  exact whole

/-- The way of writing names keeps a plain name readable. -/
def WritesNames (writeName : String → String) : Prop :=
  ∀ name, QuotesPlainly name →
    ∃ kind : TokenKind, kind.name? = some name ∧ Reads (writeName name).toList [⟨"", kind⟩]

theorem writesNames_quote : WritesNames JavaScript.quote :=
  fun name plain => ⟨.quoted '"' name, rfl, .quoted plain⟩

theorem writesNames_propertyKey : WritesNames JavaScript.propertyKey :=
  fun _ plain => Reads.propertyKey plain

theorem rise_of_name? {gap name : String} {kind : TokenKind} (named : kind.name? = some name) :
    (Token.mk gap kind).rise = 0 := by
  cases kind with
  | word text => rfl
  | quoted mark contents => rfl
  | punct c => cases named

/-- Fields with the same white space in front of each of them. -/
def fieldText (before : String) (writeName : String → String) (entries : List (String × String)) :
    List Char :=
  entries.flatMap fun (name, type) =>
    (before ++ writeName name ++ ": " ++ type ++ ";").toList

theorem breaks_fieldText {before : String} (some_blank : before ≠ "")
    (blanks : before.toList.all isBlank = true) (writeName : String → String)
    (entries : List (String × String)) : Breaks (fieldText before writeName entries) := by
  cases entries with
  | nil => exact breaks_nil
  | cons entry rest =>
      rw [fieldText, List.flatMap_cons]
      simp only [String.toList_append, List.append_assoc]
      cases chars : before.toList with
      | nil => exact absurd (String.toList_eq_nil_iff.1 chars) some_blank
      | cons c more =>
          rw [chars, List.all_cons, Bool.and_eq_true] at blanks
          exact breaks_cons (isWordChar_of_isBlank blanks.1)

/-- Fields are read one after the other. -/
theorem reads_fieldText {before : String} (some_blank : before ≠ "")
    (blanks : before.toList.all isBlank = true) {writeName : String → String}
    {entries : List (String × String)}
    (names : ∀ entry ∈ entries, ∃ kind : TokenKind, kind.name? = some entry.1 ∧
      Reads (writeName entry.1).toList [⟨"", kind⟩])
    (types : ∀ entry ∈ entries, ReadableType entry.2) :
    ∃ tokens, Reads (fieldText before writeName entries) tokens ∧ BracesBalance tokens ∧
      (members tokens).map Member.field? = entries.map some := by
  induction entries with
  | nil =>
      refine ⟨[], .nil, .nil, ?_⟩
      rw [members]
      rfl
  | cons entry more ih =>
      obtain ⟨name, type⟩ := entry
      have readable := types _ List.mem_cons_self
      obtain ⟨kind, named, written⟩ := names _ List.mem_cons_self
      obtain ⟨tokens, reads, balance, read⟩ :=
        ih (fun other member => names other (List.mem_cons_of_mem _ member))
          (fun other member => types other (List.mem_cons_of_mem _ member))
      have line := reads_field blanks written readable
      have keyNamed : (Token.mk before kind).name? = some name := named
      obtain ⟨m, first, isField⟩ := members_field keyNamed readable.tokens_ne_nil
        readable.shape_behind_blank tokens
      refine ⟨_, line.append reads (breaks_fieldText some_blank blanks _ _), ?_, ?_⟩
      · refine (balance_memberTokens (rise_of_name? named) ?_).append balance
        exact readable.balance.pushGap [' ']
      · rw [first, List.map_cons, List.map_cons, isField, readable.sourceText_eq, read]

theorem filterMap_field? {read : List Member} {entries : List (String × String)}
    (fields : read.map Member.field? = entries.map some) :
    read.filterMap Member.field? = entries := by
  calc read.filterMap Member.field?
      = (read.map Member.field?).filterMap id := by rw [List.filterMap_map, Function.id_comp]
    _ = (entries.map some).filterMap id := by rw [fields]
    _ = entries := by rw [List.filterMap_map, Function.id_comp, List.filterMap_some]

/-- The lines of the fields of a block are read as these fields. -/
theorem reads_fields {writeName : String → String} (writes : WritesNames writeName)
    {entries : List (String × String)} (readable : ReadableFields entries) :
    ∃ tokens, Reads (lineText (entries.map fun (name, type) =>
        "    " ++ writeName name ++ ": " ++ type ++ ";")) tokens ∧
      BracesBalance tokens ∧ (members tokens).filterMap Member.field? = entries := by
  have blanks : "\n    ".toList.all isBlank = true := by decide
  obtain ⟨tokens, reads, balance, read⟩ :=
    reads_fieldText (by decide) blanks (fun entry member => writes _ (readable entry member).1)
      (fun entry member => (readable entry member).2)
  have pieces : lineText (entries.map fun (name, type) =>
      "    " ++ writeName name ++ ": " ++ type ++ ";") = fieldText "\n    " writeName entries := by
    rw [lineText, fieldText, List.flatMap_map]
    apply List.flatMap_congr
    intro entry _
    simp [String.toList_append]
  rw [pieces]
  exact ⟨tokens, reads, balance, filterMap_field? read⟩

/-! ## Blocks -/

/-- The interface in which these fields of a category are declared. -/
def withFields (category : Category) (declared : Option (OrderedMap String)) (i : Interface) :
    Interface :=
  match category with
  | .style => { i with styleFields := declared }
  | .data => { i with dataFields := declared }

/-- The tokens are a block that declares these fields; where none are declared there is no block. -/
inductive IsBlock (block : String) : Option (OrderedMap String) → List Token → Prop
  | absent : IsBlock block none []
  | present {key opening closing : Token} {body : List Token} (named : key.name? = some block)
      (opens : opening.isPunct '{' = true) (closes : closing.isPunct '}' = true)
      (balance : BracesBalance body) :
      IsBlock block (some (fields body)) (memberTokens key (opening :: (body ++ [closing])))

namespace IsBlock

variable {block : String} {declared : Option (OrderedMap String)} {tokens : List Token}

theorem bracesBalance (isBlock : IsBlock block declared tokens) : BracesBalance tokens := by
  cases isBlock with
  | absent => exact .nil
  | present named opens closes balance =>
      exact balance_memberTokens (rise_of_name? named) (balance.wrap opens closes)

/-- A block declares the fields of its category. -/
theorem foldl_addMember (category : Category) (isBlock : IsBlock category.block declared tokens)
    {i : Interface} (fresh : withFields category none i = i) (rest : List Token) :
    (members (tokens ++ rest)).foldl addMember i =
      (members rest).foldl addMember (withFields category declared i) := by
  cases isBlock with
  | absent => rw [fresh, List.nil_append]
  | present named opens closes balance =>
      rw [members_object named opens closes balance]
      cases category <;> rfl

end IsBlock

theorem reads_opening {block : String} (word : IsWord block) :
    Reads ('\n' :: ("  " ++ block ++ ": \x7b").toList)
      [⟨"\n  ", .word block⟩, ⟨"", .punct ':'⟩, ⟨" ", .punct '{'⟩] := by
  have key : Reads ("\n  ".toList ++ block.toList) [⟨"\n  ", .word block⟩] :=
    (Reads.word word).blank (by decide) (List.cons_ne_nil _ _)
  have opening : Reads ": \x7b".toList [⟨"", .punct ':'⟩, ⟨" ", .punct '{'⟩] :=
    ⟨by decide +kernel, by decide +kernel⟩
  have pieces : '\n' :: ("  " ++ block ++ ": \x7b").toList =
      "\n  ".toList ++ block.toList ++ ": \x7b".toList := by
    simp [String.toList_append]
  rw [pieces]
  exact key.append opening (breaks_cons (by decide))

/-- The lines of a block are read as a block with its fields. -/
theorem reads_block {block : String} {writeName : String → String} {m : OrderedMap String}
    (word : IsWord block) (writes : WritesNames writeName) (readable : ReadableFields m.entries) :
    ∃ tokens, Reads (lineText (["  " ++ block ++ ": \x7b"] ++
        m.entries.map (fun (name, type) => "    " ++ writeName name ++ ": " ++ type ++ ";") ++
        ["  \x7d;"])) tokens ∧ IsBlock block (some m) tokens := by
  obtain ⟨body, reads, balance, read⟩ := reads_fields writes readable
  have closing : Reads ('\n' :: "  \x7d;".toList) [⟨"\n  ", .punct '}'⟩, ⟨"", .punct ';'⟩] :=
    ⟨by decide +kernel, by decide +kernel⟩
  have whole := ((reads_opening word).append reads (breaks_lineText _)).append closing
    (breaks_cons (by decide))
  have declares : fields body = m := by
    rw [fields, read]
    exact m.ofList_entries
  refine ⟨memberTokens ⟨"\n  ", .word block⟩
    (⟨" ", .punct '{'⟩ :: (body ++ [⟨"\n  ", .punct '}'⟩])), ?_, ?_⟩
  · rw [lineText_append, lineText_append]
    simpa [lineText, memberTokens] using whole
  · rw [← declares]
    exact .present rfl rfl rfl balance

/-- A block without fields is not written at all. -/
theorem reads_fieldLines (block : String) {writeName : String → String}
    {declared : Option (OrderedMap String)} (word : IsWord block) (writes : WritesNames writeName)
    (readable : ReadableFields (declared.getD .empty).entries) :
    ∃ tokens, Reads (lineText (Generated.fieldLines block writeName declared)) tokens ∧
      IsBlock block (declaredFields declared) tokens := by
  cases declared with
  | none => exact ⟨[], .nil, .absent⟩
  | some m =>
      rw [Generated.fieldLines, declaredFields, Option.filter]
      rw [Option.getD_some] at readable ⊢
      split
      · next none_here =>
          rw [OrderedMap.isEmpty, none_here]
          exact ⟨[], .nil, .absent⟩
      · next some_here =>
          have notEmpty : m.isEmpty = false := by
            rw [OrderedMap.isEmpty, List.isEmpty_eq_false_iff]
            exact some_here
          rw [notEmpty]
          exact reads_block word writes readable

/-! ## The interface -/

/-- The member that takes nested content. -/
def childrenTokens : List Token :=
  [⟨"\n  ", .word "children"⟩, ⟨"", .punct '?'⟩, ⟨"", .punct ':'⟩, ⟨" ", .word "React"⟩,
    ⟨"", .punct '.'⟩, ⟨"", .word "ReactNode"⟩, ⟨"", .punct ';'⟩]

/-- The tokens that open an interface. -/
def headerTokens (name : String) : List Token :=
  [⟨"", .word "interface"⟩, ⟨" ", .word name⟩, ⟨" ", .punct '{'⟩]

theorem reads_ending :
    Reads (lineText ["  children?: React.ReactNode;", "\x7d"])
      (childrenTokens ++ [⟨"\n", .punct '}'⟩]) where
  cut := by decide +kernel
  settled := by decide +kernel

theorem reads_header {name : String} (word : IsWord name) :
    Reads ("interface " ++ name ++ " \x7b").toList (headerTokens name) := by
  have keyword : Reads "interface".toList [⟨"", .word "interface"⟩] :=
    ⟨by decide +kernel, by decide +kernel⟩
  have named : Reads (" ".toList ++ name.toList) [⟨" ", .word name⟩] :=
    (Reads.word word).blank (by decide) (List.cons_ne_nil _ _)
  have opening : Reads " \x7b".toList [⟨" ", .punct '{'⟩] :=
    ⟨by decide +kernel, by decide +kernel⟩
  have pieces : ("interface " ++ name ++ " \x7b").toList =
      "interface".toList ++ (" ".toList ++ name.toList ++ " \x7b".toList) := by
    simp [String.toList_append]
  rw [pieces]
  exact keyword.append (named.append opening (breaks_cons (by decide))) (breaks_cons (by decide))

theorem members_childrenTokens :
    members childrenTokens =
      [⟨"children", .text [⟨" ", .word "React"⟩, ⟨"", .punct '.'⟩, ⟨"", .word "ReactNode"⟩]⟩] := by
  decide +kernel

/-- A balanced body between the header and the closing brace is the body of the only interface. -/
theorem bodies_single {name : String} {body : List Token} {close : Token}
    (balance : BracesBalance body) (closes : close.isPunct '}' = true) :
    bodies (headerTokens name ++ (body ++ [close])) = [(name, body)] := by
  have found : header? (headerTokens name ++ (body ++ [close])) = some (name, body ++ [close]) :=
    rfl
  rw [bodies_of_closed found (splitClose?_of_balance balance closes), bodies]

/-- An interface block is read as the interface with the fields that it lists. -/
theorem extract_interfaceBlock {i : Interface} (word : IsWord i.name)
    (style : ReadableFields (i.styleFields.getD .empty).entries)
    (data : ReadableFields (i.dataFields.getD .empty).entries) :
    extract ("\n".intercalate (Generated.interfaceBlock i.name i)) =
      .ofList [{ i with
        styleFields := declaredFields i.styleFields
        dataFields := declaredFields i.dataFields
        acceptsChildren := true }] := by
  obtain ⟨styleTokens, styleReads, styleBlock⟩ :=
    reads_fieldLines "styleMap" (by decide) writesNames_quote style
  obtain ⟨dataTokens, dataReads, dataBlock⟩ :=
    reads_fieldLines "data" (by decide) writesNames_propertyKey data
  have balance : BracesBalance (styleTokens ++ (dataTokens ++ childrenTokens)) :=
    styleBlock.bracesBalance.append (dataBlock.bracesBalance.append (by decide +kernel))
  have whole := (reads_header word).append
    (styleReads.lines (dataReads.lines reads_ending)) (breaks_lineText _)
  have tokens : (tokenize ("\n".intercalate (Generated.interfaceBlock i.name i))).tokens =
      headerTokens i.name ++
        (styleTokens ++ (dataTokens ++ childrenTokens) ++ [⟨"\n", .punct '}'⟩]) := by
    have lines : Generated.interfaceBlock i.name i = ("interface " ++ i.name ++ " \x7b") ::
        (Generated.fieldLines "styleMap" JavaScript.quote i.styleFields ++
          (Generated.fieldLines "data" JavaScript.propertyKey i.dataFields ++
            ["  children?: React.ReactNode;", "\x7d"])) := by
      simp [Generated.interfaceBlock]
    rw [tokenize, lines, toList_intercalate_newline, whole.cut]
    simp only [List.append_assoc]
  have read : interfaceOf i.name (styleTokens ++ (dataTokens ++ childrenTokens)) =
      { i with
        styleFields := declaredFields i.styleFields
        dataFields := declaredFields i.dataFields
        acceptsChildren := true } := by
    rw [interfaceOf, styleBlock.foldl_addMember .style rfl, dataBlock.foldl_addMember .data rfl,
      members_childrenTokens]
    rfl
  rw [extract, tokens, bodies_single balance rfl, List.map_singleton]
  dsimp only
  rw [read]

/-- An interface with a quoted name, an object type and a separator between brackets. -/
def galleryInterface : Interface where
  name := "Gallery"
  styleFields := some (.ofList [("--gallery gap", "string")])
  dataFields := some (.ofList
    [("head-line", "\x7b title: string; \x7d"), ("items", "Map<string, \x7b id: number; \x7d>")])

theorem extract_interfaceBlock_gallery :
    extract ("\n".intercalate (Generated.interfaceBlock "Gallery" galleryInterface)) =
      .ofList [{ galleryInterface with acceptsChildren := true }] :=
  extract_interfaceBlock (i := galleryInterface) (by decide) (by decide +kernel)
    (by decide +kernel)

end ComponentGen.Declaration
