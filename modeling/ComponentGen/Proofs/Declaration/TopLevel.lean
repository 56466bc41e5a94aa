import ComponentGen.Proofs.Declaration.RoundTrip
import ComponentGen.Proofs.Declaration.TypeExpr
/-!
# Members at the top level

A declaration with a block of data fields and further members is read as written: the fields are
those of the block, in order and with the text of their types, and nested content is accepted if a
member of the body itself asks for it, whatever stands inside the types. This needs that every type
is read up to its end. It is so for the types whose commas all stand between more brackets than
arrows have taken off the count, and for no others.
-/

namespace ComponentGen.Declaration

/-- A type as it stands in a text, with at most one blank between two of its tokens. -/
structure WrittenType where
  expr : TypeExpr
  tokens : List Token
  spells : tokens.map (·.kind) = expr.kinds
  starts : ∀ first ∈ tokens.head?, first.gap = ""
  blanks : ∀ token ∈ tokens, token.gap = "" ∨ token.gap = " "

namespace WrittenType

def text (written : WrittenType) : String :=
  joined written.tokens

theorem isSpelling (written : WrittenType) : IsSpelling (written.tokens.map (·.kind)) := by
  rw [written.spells, ← List.append_nil written.expr.kinds]
  exact written.expr.isSpelling_kinds rfl .nil

theorem reads (written : WrittenType) : Reads written.text.toList written.tokens := by
  apply written.isSpelling.reads
  intro token member
  rcases written.blanks token member with none_here | one_blank
  · rw [none_here]
    rfl
  · rw [one_blank]
    decide

theorem tokenize_text (written : WrittenType) :
    tokenize written.text = ⟨written.tokens, ""⟩ := by
  rw [tokenize, written.reads.cut, String.ofList_nil]

theorem closesBrackets_tokens (written : WrittenType) :
    closesBrackets 0 written.tokens = written.expr.fits 0 := by
  have count := written.expr.closesBrackets_kinds 0 []
  rw [List.append_nil, ← written.spells, closesBrackets_ofKinds, Nat.zero_sub] at count
  rw [count]
  exact Bool.and_true _

theorem readableType {written : WrittenType} (fits : written.expr.fits 0 = true) :
    ReadableType written.text where
  nonempty := by
    rw [written.tokenize_text]
    intro isEmpty
    exact written.expr.kinds_ne_nil (written.spells.symm.trans (congrArg _ isEmpty))
  starts := by
    rw [written.tokenize_text]
    exact written.starts
  ends := by rw [written.tokenize_text]
  settled := by
    rw [written.tokenize_text]
    exact written.reads.settled
  balance := by
    rw [written.tokenize_text]
    exact written.isSpelling.bracesBalance
  shape := by
    rw [written.tokenize_text]
    exact .inr ⟨written.isSpelling.head_ne_brace, written.closesBrackets_tokens.trans fits⟩

end WrittenType

/-- A member with a plain type. -/
structure WrittenMember where
  name : Identifier
  type : WrittenType

namespace WrittenMember

/-- The name and the text of the type. -/
def entry (m : WrittenMember) : String × String :=
  (m.name.text, m.type.text)

def text (m : WrittenMember) : String :=
  " " ++ m.name.text ++ ": " ++ m.type.text ++ ";"

end WrittenMember

/-- A declaration of an interface with data fields and further members. -/
def declarationText (name : Identifier) (fields others : List WrittenMember) : String :=
  String.join ["interface ", name.text, " \x7b data: \x7b", String.join (fields.map (·.text)),
    " \x7d;", String.join (others.map (·.text)), " \x7d"]

/-! ## Reading -/

theorem fieldText_entries (written : List WrittenMember) :
    fieldText " " id (written.map (·.entry)) = (String.join (written.map (·.text))).toList := by
  induction written with
  | nil => rfl
  | cons m rest ih =>
      rw [List.map_cons, List.map_cons, String.join_cons, String.toList_append, ← ih]
      rfl

theorem breaks_writtenMembers (written : List WrittenMember) :
    Breaks (String.join (written.map (·.text))).toList := by
  rw [← fieldText_entries]
  exact breaks_fieldText (by decide) (by decide) id _

/-- Members with types that fit are read one after the other. -/
theorem reads_writtenMembers {written : List WrittenMember}
    (fit : ∀ m ∈ written, m.type.expr.fits 0 = true) :
    ∃ tokens, Reads (String.join (written.map (·.text))).toList tokens ∧ BracesBalance tokens ∧
      (members tokens).map Member.field? = (written.map (·.entry)).map some := by
  have names : ∀ entry ∈ written.map (·.entry), ∃ kind : TokenKind,
      kind.name? = some entry.1 ∧ Reads (id entry.1).toList [⟨"", kind⟩] := by
    intro entry member
    obtain ⟨m, -, rfl⟩ := List.mem_map.1 member
    exact ⟨.word m.name.text, rfl, .word m.name.isWord⟩
  have types : ∀ entry ∈ written.map (·.entry), ReadableType entry.2 := by
    intro entry member
    obtain ⟨m, inWritten, rfl⟩ := List.mem_map.1 member
    exact WrittenType.readableType (fit m inWritten)
  have blanks : " ".toList.all isBlank = true := by decide
  obtain ⟨tokens, reads, balance, read⟩ := reads_fieldText (by decide) blanks names types
  rw [fieldText_entries] at reads
  exact ⟨tokens, reads, balance, read⟩

theorem name_of_field? {m : Member} {name type : String}
    (isField : m.field? = some (name, type)) : m.name = name := by
  obtain ⟨own, written⟩ := m
  cases written with
  | text tokens => exact congrArg Prod.fst (Option.some.inj isField)
  | block opening body closing => exact congrArg Prod.fst (Option.some.inj isField)
  | unclosed => cases isField

/-- Members that are no blocks of fields change nothing but whether nested content is accepted. -/
theorem foldl_addMember_others {read : List Member} {written : List WrittenMember}
    (fields : read.map Member.field? = (written.map (·.entry)).map some)
    (others : ∀ m ∈ written, m.name.text ≠ "data" ∧ m.name.text ≠ "styleMap") (i : Interface) :
    read.foldl addMember i =
      { i with acceptsChildren :=
          i.acceptsChildren || written.any fun m => m.name.text == "children" } := by
  induction read generalizing i written with
  | nil =>
      cases written with
      | nil => simp
      | cons m rest => cases fields
  | cons first more ih =>
      cases written with
      | nil => cases fields
      | cons m rest =>
          rw [List.map_cons, List.map_cons, List.map_cons, List.cons.injEq] at fields
          obtain ⟨notData, notStyle⟩ := others m List.mem_cons_self
          have named : first.name = m.name.text := name_of_field? fields.1
          have othersLater := fun m' member => others m' (List.mem_cons_of_mem m member)
          rw [List.foldl_cons, ih fields.2 othersLater, addMember, named, if_neg notStyle,
            if_neg notData, List.any_cons]
          split
          · next isChildren => simp [isChildren]
          · next notChildren => rw [beq_false_of_ne notChildren, Bool.false_or]

/-- The tokens of the block of data fields. -/
def dataTokens (fieldTokens : List Token) : List Token :=
  memberTokens ⟨" ", .word "data"⟩ (⟨" ", .punct '{'⟩ :: (fieldTokens ++ [⟨" ", .punct '}'⟩]))

theorem reads_declarationText (name : Identifier) {fields others : List WrittenMember}
    {fieldTokens otherTokens : List Token}
    (fieldsRead : Reads (String.join (fields.map (·.text))).toList fieldTokens)
    (othersRead : Reads (String.join (others.map (·.text))).toList otherTokens) :
    Reads (declarationText name fields others).toList (headerTokens name.text ++
      (dataTokens fieldTokens ++ otherTokens ++ [⟨" ", .punct '}'⟩])) := by
  have opening : Reads " data: \x7b".toList
      [⟨" ", .word "data"⟩, ⟨"", .punct ':'⟩, ⟨" ", .punct '{'⟩] :=
    ⟨by decide +kernel, by decide +kernel⟩
  have closing : Reads " \x7d;".toList [⟨" ", .punct '}'⟩, ⟨"", .punct ';'⟩] :=
    ⟨by decide +kernel, by decide +kernel⟩
  have ending : Reads " \x7d".toList [⟨" ", .punct '}'⟩] :=
    ⟨by decide +kernel, by decide +kernel⟩
  have whole := (((((reads_header name.isWord).append opening (breaks_cons (by decide))).append
    fieldsRead (breaks_writtenMembers fields)).append closing (breaks_cons (by decide))).append
    othersRead (breaks_writtenMembers others)).append ending (breaks_cons (by decide))
  have pieces : (declarationText name fields others).toList =
      ("interface " ++ name.text ++ " \x7b").toList ++ " data: \x7b".toList ++
        (String.join (fields.map (·.text))).toList ++ " \x7d;".toList ++
        (String.join (others.map (·.text))).toList ++ " \x7d".toList := by
    simp [declarationText, String.toList_append]
  have tokens : headerTokens name.text ++
        (dataTokens fieldTokens ++ otherTokens ++ [⟨" ", .punct '}'⟩]) =
      headerTokens name.text ++ [⟨" ", .word "data"⟩, ⟨"", .punct ':'⟩, ⟨" ", .punct '{'⟩] ++
        fieldTokens ++ [⟨" ", .punct '}'⟩, ⟨"", .punct ';'⟩] ++ otherTokens ++
        [⟨" ", .punct '}'⟩] := by
    simp [dataTokens, memberTokens]
  rw [pieces, tokens]
  exact whole

/-- The fields of the block are its members, and the members behind it are those of the body. -/
theorem interfaceOf_dataTokens (name : String) {fields others : List WrittenMember}
    {fieldTokens otherTokens : List Token} (balance : BracesBalance fieldTokens)
    (fieldMembers :
      (members fieldTokens).map Member.field? = (fields.map (·.entry)).map some)
    (otherMembers :
      (members otherTokens).map Member.field? = (others.map (·.entry)).map some)
    (noBlocks : ∀ m ∈ others, m.name.text ≠ "data" ∧ m.name.text ≠ "styleMap") :
    interfaceOf name (dataTokens fieldTokens ++ otherTokens) =
      { Interface.empty name with
        dataFields := some (.ofList (fields.map (·.entry)))
        acceptsChildren := others.any fun m => m.name.text == "children" } := by
  rw [interfaceOf, dataTokens, members_object rfl rfl rfl balance, List.foldl_cons,
    foldl_addMember_others otherMembers noBlocks, ← filterMap_field? fieldMembers]
  rfl

/-- Each field keeps its place and the text of its type, and nested content is accepted exactly if a
member of the body is called `children`. -/
theorem extract_declarationText (name : Identifier) {fields others : List WrittenMember}
    (distinct : (fields.map (·.name.text)).Nodup)
    (noBlocks : ∀ m ∈ others, m.name.text ≠ "data" ∧ m.name.text ≠ "styleMap")
    (fit : ∀ m ∈ fields ++ others, m.type.expr.fits 0 = true) :
    ∃ i : Interface, extract (declarationText name fields others) = .ofList [i] ∧
      i.name = name.text ∧
      i.dataFields.map (·.entries) = some (fields.map fun m => (m.name.text, m.type.text)) ∧
      (i.acceptsChildren = true ↔ ∃ m ∈ others, m.name.text = "children") := by
  obtain ⟨fieldTokens, fieldsRead, fieldsBalance, fieldMembers⟩ :=
    reads_writtenMembers fun m member => fit m (List.mem_append_left _ member)
  obtain ⟨otherTokens, othersRead, othersBalance, otherMembers⟩ :=
    reads_writtenMembers fun m member => fit m (List.mem_append_right _ member)
  have reads := reads_declarationText name fieldsRead othersRead
  have dataBalance : BracesBalance (dataTokens fieldTokens) :=
    balance_memberTokens rfl (fieldsBalance.wrap rfl rfl)
  have tokens : (tokenize (declarationText name fields others)).tokens =
      headerTokens name.text ++
        (dataTokens fieldTokens ++ otherTokens ++ [⟨" ", .punct '}'⟩]) := by
    rw [tokenize, reads.cut]
  have entries : (OrderedMap.ofList (fields.map (·.entry))).entries = fields.map (·.entry) := by
    apply OrderedMap.entries_ofList
    rw [List.map_map]
    exact distinct
  rw [extract, tokens, bodies_single (dataBalance.append othersBalance) rfl, List.map_singleton]
  refine ⟨interfaceOf name.text (dataTokens fieldTokens ++ otherTokens), rfl, ?_⟩
  rw [interfaceOf_dataTokens name.text fieldsBalance fieldMembers otherMembers noBlocks]
  refine ⟨rfl, congrArg some entries, ?_⟩
  rw [List.any_eq_true]
  simp only [beq_iff_eq]

def listField : WrittenMember where
  name := ⟨"items", by decide⟩
  type := {
    expr := .generic ⟨"Map", by decide⟩ (.name ⟨"string", by decide⟩)
      [.function ⟨"item", by decide⟩ (.array (.name ⟨"Item", by decide⟩)) []
        (.name ⟨"void", by decide⟩)]
    tokens := (tokenize "Map<string, (item: Item[]) => void>").tokens
    spells := by decide +kernel
    starts := by decide +kernel
    blanks := by decide +kernel }

def contentMember : WrittenMember where
  name := ⟨"children", by decide⟩
  type := {
    expr := .union (.name ⟨"Node", by decide⟩) (.name ⟨"string", by decide⟩)
    tokens := (tokenize "Node | string").tokens
    spells := by decide +kernel
    starts := by decide +kernel
    blanks := by decide +kernel }

theorem extract_declarationText_list :
    ∃ i : Interface, extract (declarationText ⟨"List", by decide⟩ [listField] [contentMember]) =
        .ofList [i] ∧ i.name = "List" ∧
      i.dataFields.map (·.entries) =
        some ([listField].map fun m => (m.name.text, m.type.text)) ∧
      (i.acceptsChildren = true ↔ ∃ m ∈ [contentMember], m.name.text = "children") :=
  extract_declarationText ⟨"List", by decide⟩ (by decide) (by decide) (by decide)

/-- A field whose type has a comma behind an arrow. -/
def pairField : WrittenMember where
  name := ⟨"pair", by decide⟩
  type := {
    expr := .generic ⟨"Pair", by decide⟩ (.thunk (.name ⟨"Left", by decide⟩))
      [.name ⟨"Right", by decide⟩]
    tokens := (tokenize "Pair<() => Left, Right>").tokens
    spells := by decide +kernel
    starts := by decide +kernel
    blanks := by decide +kernel }

/-- Behind an arrow a comma between brackets ends a type. -/
theorem not_extract_every_declarationText :
    ¬ ∀ (name : Identifier) (fields others : List WrittenMember),
      (fields.map (·.name.text)).Nodup →
      (∀ m ∈ others, m.name.text ≠ "data" ∧ m.name.text ≠ "styleMap") →
      ∃ i : Interface, extract (declarationText name fields others) = .ofList [i] ∧
        i.name = name.text ∧
        i.dataFields.map (·.entries) = some (fields.map fun m => (m.name.text, m.type.text)) ∧
        (i.acceptsChildren = true ↔ ∃ m ∈ others, m.name.text = "children") := by
  intro everywhere
  obtain ⟨i, same, -, fields, -⟩ := everywhere ⟨"Card", by decide⟩ [pairField] []
    (by decide) (by decide)
  have found : (extract (declarationText ⟨"Card", by decide⟩ [pairField] [])).toList.map
      (fun i => i.dataFields.map (·.entries)) = [some [("pair", "Pair<() => Left")]] := by
    decide +kernel
  have cut : [i.dataFields.map (·.entries)] = [some [("pair", "Pair<() => Left")]] := by
    rw [same] at found
    exact found
  rw [fields] at cut
  revert cut
  decide +kernel

end ComponentGen.Declaration
