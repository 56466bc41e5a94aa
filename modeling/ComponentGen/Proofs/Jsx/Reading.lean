import ComponentGen.Proofs.JavaScript.Identifiers
import ComponentGen.Proofs.Jsx.Grammar
/-!
# Reading markup

A reader that goes over a text character by character and keeps the elements that are open. Whatever
derivation a text has, the reader finds the tags of that derivation; so all derivations of a text
meet the same tags, and a text stands for one tree at most.
-/

namespace ComponentGen.Jsx

open JavaScript (isIdentifierPart)

namespace Reader

/-! ## The reader -/

/-- An element whose end has not been read, with the elements that it holds so far. -/
structure OpenElement where
  tag : String
  children : List TagTree

/-- Where an expression is inserted: between items, or between the attributes of a start tag. -/
inductive Around where
  | items
  | attributes (tag : List Char)

/-- What the characters before the next one belong to. -/
inductive Mode where
  | around (place : Around)
  /-- The start of a tag. -/
  | angle
  | startTag (tag : List Char)
  | endTag
  | classText (tag : List Char)
  /-- An inserted expression, with the number of its open brackets. -/
  | braces (place : Around) (depth : Nat)
  | string (place : Around) (depth : Nat)
  /-- Behind a backslash of a string. -/
  | escape (place : Around) (depth : Nat)

/-- The open elements, innermost first, and the mode. -/
structure State where
  opened : List OpenElement
  mode : Mode

/-- Finish the innermost element. -/
def close : List OpenElement → List OpenElement
  | inner :: outer :: rest =>
    { outer with children := outer.children ++ [.element inner.tag inner.children] } :: rest
  | opened => opened

/-- The mode behind a character of an inserted expression. -/
def stepBraces (place : Around) (depth : Nat) (c : Char) : Mode :=
  if c = '"' then .string place depth
  else if brackets.any (c == ·.1) then .braces place (depth + 1)
  else if brackets.any (c == ·.2) then
    match depth with
    | 0 => .around place
    | depth + 1 => .braces place depth
  else .braces place depth

/-- The state behind a character of a start tag that is outside of all attribute values. -/
def stepTag (opened : List OpenElement) (tag : List Char) (onward : Mode) (c : Char) : State :=
  if c = '>' then ⟨⟨String.ofList tag, []⟩ :: opened, .around .items⟩
  else if c = ' ' then ⟨opened, .around (.attributes tag)⟩
  else ⟨opened, onward⟩

/-- Read one character. -/
def step : State → Char → State
  | ⟨opened, .around .items⟩, c =>
    ⟨opened, if c = '<' then .angle else if c = '{' then .braces .items 0 else .around .items⟩
  | ⟨opened, .angle⟩, c => ⟨opened, if c = '/' then .endTag else .startTag [c]⟩
  | ⟨opened, .startTag tag⟩, c => stepTag opened tag (.startTag (tag ++ [c])) c
  | ⟨opened, .around (.attributes tag)⟩, c =>
    stepTag opened tag (if c = '"' then .classText tag
      else if c = '{' then .braces (.attributes tag) 0 else .around (.attributes tag)) c
  | ⟨opened, .endTag⟩, c => if c = '>' then ⟨close opened, .around .items⟩ else ⟨opened, .endTag⟩
  | ⟨opened, .classText tag⟩, c =>
    ⟨opened, if c = '"' then .around (.attributes tag) else .classText tag⟩
  | ⟨opened, .braces place depth⟩, c => ⟨opened, stepBraces place depth c⟩
  | ⟨opened, .string place depth⟩, c =>
    ⟨opened, if c = '"' then .braces place depth
      else if c = '\\' then .escape place depth else .string place depth⟩
  | ⟨opened, .escape place depth⟩, _ => ⟨opened, .string place depth⟩

/-- Read a text. -/
def read (state : State) (text : List Char) : State :=
  text.foldl step state

theorem read_cons (state : State) (c : Char) (rest : List Char) :
    read state (c :: rest) = read (step state c) rest := rfl

theorem read_append (state : State) (front back : List Char) :
    read state (front ++ back) = read (read state front) back :=
  List.foldl_append

/-- Characters that each leave the state alone. -/
theorem read_of_stays {state : State} {text : List Char} (stays : ∀ c ∈ text, step state c = state) :
    read state text = state := by
  induction text with
  | nil => rfl
  | cons c rest ih =>
      rw [read_cons, stays c List.mem_cons_self]
      exact ih fun later member => stays later (List.mem_cons_of_mem c member)

/-! ## Expressions -/

variable {opened : List OpenElement}

theorem read_stringBody {body : List Char} (isBody : IsStringBody body) (place : Around)
    (depth : Nat) :
    read ⟨opened, .string place depth⟩ body = ⟨opened, .string place depth⟩ := by
  induction isBody with
  | nil => rfl
  | plain notQuote notBackslash _ ih =>
      rw [read_cons, step, if_neg notQuote, if_neg notBackslash]
      exact ih
  | escape c _ ih => exact ih

theorem stepBraces_of_isPlain {c : Char} (plain : isPlain c = true) (place : Around)
    (depth : Nat) : stepBraces place depth c = .braces place depth := by
  obtain ⟨notQuote, noBracket⟩ := isPlain_iff.1 plain
  have notOpening : brackets.any (c == ·.1) = false := by
    rw [List.any_eq_false]
    exact fun pair member => mt beq_iff_eq.1 (noBracket pair member).1
  have notClosing : brackets.any (c == ·.2) = false := by
    rw [List.any_eq_false]
    exact fun pair member => mt beq_iff_eq.1 (noBracket pair member).2
  simp only [stepBraces, if_neg notQuote, notOpening, notClosing, Bool.false_eq_true, if_false]

/-- A pair of brackets counts up and down. -/
theorem stepBraces_of_pair {pair : Char × Char} (matching : pair ∈ brackets) (place : Around)
    (depth : Nat) :
    stepBraces place depth pair.1 = .braces place (depth + 1) ∧
      stepBraces place (depth + 1) pair.2 = .braces place depth := by
  revert pair
  rw [brackets, List.forall_mem_cons, List.forall_mem_cons, List.forall_mem_singleton]
  exact ⟨⟨rfl, rfl⟩, ⟨rfl, rfl⟩, ⟨rfl, rfl⟩⟩

/-- Whatever nests properly leaves the number of open brackets as it is. -/
theorem read_nested {text : List Char} (nested : Nested text) (place : Around) (depth : Nat) :
    read ⟨opened, .braces place depth⟩ text = ⟨opened, .braces place depth⟩ := by
  induction nested generalizing depth with
  | nil => rfl
  | plain isPlain _ ih =>
      rw [read_cons, step, stepBraces_of_isPlain isPlain]
      exact ih depth
  | string isBody _ ih =>
      have opens : stepBraces place depth '"' = .string place depth := rfl
      rw [read_cons, step, opens, read_append, read_stringBody isBody]
      exact ih depth
  | group pair matching _ _ ihInside ih =>
      obtain ⟨opens, closes⟩ := stepBraces_of_pair matching place depth
      rw [read_cons, step, opens, read_append, ihInside, read_cons, step, closes]
      exact ih depth

/-- An inserted expression ends at the brace that closes it. -/
theorem read_braced {text : List Char} (nested : Nested text) (place : Around) :
    read ⟨opened, .braces place 0⟩ (text ++ ['}']) = ⟨opened, .around place⟩ := by
  rw [read_append, read_nested nested]
  rfl

/-! ## Tags -/

/-- The mode is that of a start tag, outside of all attribute values. -/
def InTag (tag : List Char) (mode : Mode) : Prop :=
  mode = .startTag tag ∨ mode = .around (.attributes tag)

/-- A space in a start tag begins an attribute. -/
theorem step_space {tag : List Char} {mode : Mode} (inTag : InTag tag mode) :
    step ⟨opened, mode⟩ ' ' = ⟨opened, .around (.attributes tag)⟩ := by
  rcases inTag with rfl | rfl <;> rfl

theorem step_tagEnd {tag : List Char} {mode : Mode} (inTag : InTag tag mode) :
    step ⟨opened, mode⟩ '>' = ⟨⟨String.ofList tag, []⟩ :: opened, .around .items⟩ := by
  rcases inTag with rfl | rfl <;> rfl

theorem read_attributeName {name : String} (isName : JavaScript.isIdentifier name = true)
    (tag : List Char) :
    read ⟨opened, .around (.attributes tag)⟩ name.toList =
      ⟨opened, .around (.attributes tag)⟩ := by
  refine read_of_stays fun c member => ?_
  have part := JavaScript.isIdentifierPart_of_mem isName member
  rw [step, stepTag, if_neg (Text.ne_of_kind part (by decide)),
    if_neg (Text.ne_of_kind part (by decide)),
    if_neg (Text.ne_of_kind part (by decide)),
    if_neg (Text.ne_of_kind part (by decide))]

theorem read_attribute {a : List Char} (isAttribute : IsAttribute a) {tag : List Char} {mode : Mode}
    (inTag : InTag tag mode) :
    read ⟨opened, mode⟩ a = ⟨opened, .around (.attributes tag)⟩ := by
  cases isAttribute with
  | flag isName =>
      rw [read_cons, step_space inTag]
      exact read_attributeName isName tag
  | @plain name text isName free =>
      have inClass : read ⟨opened, .classText tag⟩ text = ⟨opened, .classText tag⟩ :=
        read_of_stays fun c member => by rw [step, if_neg (free c member).1]
      rw [read_cons, step_space inTag, read_append, read_attributeName isName, read_cons, read_cons,
        read_append]
      exact congrArg (fun state => read state ['"']) inClass
  | value isName nested =>
      rw [read_cons, step_space inTag, read_append, read_attributeName isName, read_cons, read_cons]
      exact read_braced nested (.attributes tag)

theorem read_attributes {attributes : List (List Char)} (all : ∀ a ∈ attributes, IsAttribute a)
    {tag : List Char} {mode : Mode} (inTag : InTag tag mode) :
    ∃ onward, InTag tag onward ∧
      read ⟨opened, mode⟩ attributes.flatten = ⟨opened, onward⟩ := by
  induction attributes generalizing mode with
  | nil => exact ⟨mode, inTag, rfl⟩
  | cons a rest ih =>
      rw [List.flatten_cons, read_append, read_attribute (all a List.mem_cons_self) inTag]
      exact ih (fun later member => all later (List.mem_cons_of_mem a member)) (.inr rfl)

theorem read_tagName {name rest : List Char} (parts : ∀ c ∈ rest, isIdentifierPart c = true) :
    read ⟨opened, .startTag name⟩ rest = ⟨opened, .startTag (name ++ rest)⟩ := by
  induction rest generalizing name with
  | nil => rw [List.append_nil]; rfl
  | cons c rest ih =>
      have part := parts c List.mem_cons_self
      rw [read_cons, step, stepTag, if_neg (Text.ne_of_kind part (by decide)),
        if_neg (Text.ne_of_kind part (by decide)),
        ih fun later member => parts later (List.mem_cons_of_mem c member), List.append_assoc,
        List.singleton_append]

/-- A name behind an angle bracket starts an element. -/
theorem read_startTag {tag : String} (isName : JavaScript.isIdentifier tag = true) :
    read ⟨opened, .angle⟩ tag.toList = ⟨opened, .startTag tag.toList⟩ := by
  have parts (c : Char) (member : c ∈ tag.toList) : isIdentifierPart c = true :=
    JavaScript.isIdentifierPart_of_mem isName member
  cases chars : tag.toList with
  | nil =>
      rw [JavaScript.isIdentifier, chars] at isName
      cases isName
  | cons c rest =>
      rw [chars] at parts
      have notSlash := Text.ne_of_kind (parts c List.mem_cons_self) (d := '/') (by decide)
      rw [read_cons, step, if_neg notSlash]
      exact read_tagName fun later member => parts later (List.mem_cons_of_mem c member)

/-- The end of an element is read up to its bracket. -/
theorem read_endTag {tag : String} (isName : JavaScript.isIdentifier tag = true) :
    read ⟨opened, .endTag⟩ (tag.toList ++ ['>']) = ⟨close opened, .around .items⟩ := by
  have inside : read ⟨opened, .endTag⟩ tag.toList = ⟨opened, .endTag⟩ :=
    read_of_stays fun c member => by
      have part := JavaScript.isIdentifierPart_of_mem isName member
      rw [step, if_neg (Text.ne_of_kind part (by decide))]
  rw [read_append, inside]
  rfl

/-! ## Derivations -/

/-- The reader takes up the tags of a derivation in the innermost open element. -/
theorem read_derives {symbol : Symbol} {trees : List TagTree} {text : List Char}
    (derives : Derives symbol trees text) (inner : OpenElement) (opened : List OpenElement) :
    read ⟨inner :: opened, .around .items⟩ text =
      ⟨{ inner with children := inner.children ++ trees } :: opened, .around .items⟩ := by
  induction derives generalizing inner opened with
  | @element tag attributes children content isName areAttributes _ ih =>
      obtain ⟨mode, inTag, attributesRead⟩ : ∃ mode, InTag tag.toList mode ∧
          read ⟨inner :: opened, .startTag tag.toList⟩ attributes.flatten =
            ⟨inner :: opened, mode⟩ := read_attributes areAttributes (.inl rfl)
      have angle : step ⟨inner :: opened, .around .items⟩ '<' = ⟨inner :: opened, .angle⟩ := rfl
      rw [read_cons, angle, read_append, read_append, read_startTag isName, attributesRead, read_cons,
        step_tagEnd inTag, read_append, ih, read_cons, read_cons]
      refine (read_endTag isName).trans ?_
      rw [String.ofList_toList, List.nil_append]
      rfl
  | nil =>
      rw [List.append_nil]
      rfl
  | nested _ _ ih ihLater =>
      rw [read_append, ih, ihLater, List.append_assoc]
  | insert nested _ ih =>
      have brace : step ⟨inner :: opened, .around .items⟩ '{' =
          ⟨inner :: opened, .braces .items 0⟩ := rfl
      rw [read_cons, brace, List.append_cons, read_append, read_braced nested]
      exact ih inner opened
  | @text trees text rest free _ ih =>
      have stays : read ⟨inner :: opened, .around .items⟩ text =
          ⟨inner :: opened, .around .items⟩ := by
        refine read_of_stays fun c member => ?_
        have notMarkup := free c member
        simp only [isMarkup, Bool.or_eq_false_iff, beq_eq_false_iff_ne] at notMarkup
        rw [step, if_neg notMarkup.1.2, if_neg notMarkup.1.1.1]
      rw [read_append, stays]
      exact ih inner opened

end Reader

/-- All derivations of a text meet the same tags. -/
theorem Derives.trees_unique {symbol other : Symbol} {trees more : List TagTree}
    {text : List Char} (first : Derives symbol trees text) (second : Derives other more text) :
    trees = more := by
  have same := (Reader.read_derives first ⟨"", []⟩ []).symm.trans
    (Reader.read_derives second ⟨"", []⟩ [])
  simpa using same

end ComponentGen.Jsx
