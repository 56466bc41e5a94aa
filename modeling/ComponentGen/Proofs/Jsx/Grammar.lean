import ComponentGen.Jsx.Markup
import Mathlib.Data.List.Basic
/-!
# A grammar of markup

What generated markup has to look like, without any look at how it is printed: elements with the
same name in front and behind, attributes, and items between them. Of an inserted expression only
its brackets count. They must nest properly, and string literals are passed over.

A derivation names the tags that it meets, so it says what tree a text stands for.
-/

namespace ComponentGen.Jsx

/-! ## Brackets -/

/-- The opening brackets, each with the bracket that closes it. -/
def brackets : List (Char × Char) :=
  [('(', ')'), ('[', ']'), ('{', '}')]

/-- The character is no bracket and no double quote. -/
def isPlain (c : Char) : Bool :=
  !(brackets.any fun pair => c == pair.1 || c == pair.2) && c != '"'

theorem isPlain_iff {c : Char} :
    isPlain c = true ↔ c ≠ '"' ∧ ∀ pair ∈ brackets, c ≠ pair.1 ∧ c ≠ pair.2 := by
  rw [isPlain, Bool.and_eq_true, Bool.not_eq_true', List.any_eq_false, bne_iff_ne, and_comm]
  simp only [Bool.or_eq_true, beq_iff_eq, not_or]

/-- What stands between the quotes of a string literal: a backslash goes with the character behind
it, and no other quote or backslash occurs. -/
inductive IsStringBody : List Char → Prop where
  | nil : IsStringBody []
  | plain {c : Char} {rest : List Char} (notQuote : c ≠ '"') (notBackslash : c ≠ '\\')
      (later : IsStringBody rest) : IsStringBody (c :: rest)
  | escape (c : Char) {rest : List Char} (later : IsStringBody rest) :
      IsStringBody ('\\' :: c :: rest)

/-- The brackets of a text nest properly once its string literals are passed over. -/
inductive Nested : List Char → Prop where
  | nil : Nested []
  | plain {c : Char} {rest : List Char} (isPlain : isPlain c = true) (later : Nested rest) :
      Nested (c :: rest)
  | string {body rest : List Char} (isBody : IsStringBody body) (later : Nested rest) :
      Nested ('"' :: (body ++ '"' :: rest))
  | group (pair : Char × Char) {inside rest : List Char} (matching : pair ∈ brackets)
      (isInside : Nested inside) (later : Nested rest) :
      Nested (pair.1 :: (inside ++ pair.2 :: rest))

namespace IsStringBody

theorem append {front back : List Char} (first : IsStringBody front)
    (second : IsStringBody back) : IsStringBody (front ++ back) := by
  induction first with
  | nil => exact second
  | plain notQuote notBackslash _ ih => exact .plain notQuote notBackslash ih
  | escape c _ ih => exact .escape c ih

theorem flatMap {α : Type} {items : List α} {write : α → List Char}
    (all : ∀ item ∈ items, IsStringBody (write item)) : IsStringBody (items.flatMap write) := by
  induction items with
  | nil => exact .nil
  | cons item rest ih =>
      rw [List.flatMap_cons]
      exact (all item List.mem_cons_self).append
        (ih fun later member => all later (List.mem_cons_of_mem item member))

end IsStringBody

namespace Nested

theorem append {front back : List Char} (first : Nested front) (second : Nested back) :
    Nested (front ++ back) := by
  induction first with
  | nil => exact second
  | plain isPlain _ ih => exact .plain isPlain ih
  | string isBody _ ih =>
      rw [List.cons_append, List.append_assoc, List.cons_append]
      exact .string isBody ih
  | group pair matching isInside _ _ ih =>
      rw [List.cons_append, List.append_assoc, List.cons_append]
      exact .group pair matching isInside ih

theorem of_plain {cs : List Char} (allPlain : cs.all isPlain = true) : Nested cs := by
  induction cs with
  | nil => exact .nil
  | cons c rest ih =>
      rw [List.all_cons, Bool.and_eq_true] at allPlain
      exact .plain allPlain.1 (ih allPlain.2)

theorem of_append {first second : String} (front : Nested first.toList)
    (back : Nested second.toList) : Nested (first ++ second).toList := by
  rw [String.toList_append]
  exact front.append back

/-- Pieces with plain text between them. -/
theorem intercalate {separator : String} (isPlain : Nested separator.toList) {pieces : List String}
    (all : ∀ piece ∈ pieces, Nested piece.toList) :
    Nested (separator.intercalate pieces).toList := by
  induction pieces with
  | nil => exact .nil
  | cons first rest ih =>
      cases rest with
      | nil =>
          rw [String.intercalate_singleton]
          exact all first List.mem_cons_self
      | cons second more =>
          rw [String.intercalate_cons_cons]
          exact of_append (of_append (all first List.mem_cons_self) isPlain)
            (ih fun later member => all later (List.mem_cons_of_mem first member))

end Nested

/-- A text in brackets of one kind, with brackets that nest properly between them. -/
def IsGroup (pair : Char × Char) (text : List Char) : Prop :=
  ∃ inside, Nested inside ∧ text = pair.1 :: (inside ++ [pair.2])

theorem IsGroup.nested {pair : Char × Char} {text : List Char} (group : IsGroup pair text)
    (matching : pair ∈ brackets) : Nested text := by
  obtain ⟨inside, isInside, rfl⟩ := group
  exact .group pair matching isInside .nil

/-! ## Elements -/

/-- A tree of tag names. -/
inductive TagTree where
  | element (tag : String) (children : List TagTree)

/-- An attribute with the space in front of it. -/
inductive IsAttribute : List Char → Prop where
  | flag {name : String} (isName : JavaScript.isIdentifier name = true) :
      IsAttribute (' ' :: name.toList)
  | plain {name : String} {text : List Char} (isName : JavaScript.isIdentifier name = true)
      (free : ∀ c ∈ text, c ≠ '"' ∧ c ≠ '{' ∧ c ≠ '}') :
      IsAttribute (' ' :: (name.toList ++ '=' :: '"' :: (text ++ ['"'])))
  | value {name : String} {text : List Char} (isName : JavaScript.isIdentifier name = true)
      (nested : Nested text) :
      IsAttribute (' ' :: (name.toList ++ '=' :: '{' :: (text ++ ['}'])))

/-- What a derivation derives: an element, or items in a row. -/
inductive Symbol where
  | element
  | items

/-- Derivations of markup, with the trees of the tags that they meet in order. -/
inductive Derives : Symbol → List TagTree → List Char → Prop where
  | element {tag : String} {attributes : List (List Char)} {children : List TagTree}
      {content : List Char} (isName : JavaScript.isIdentifier tag = true)
      (areAttributes : ∀ a ∈ attributes, IsAttribute a) (inside : Derives .items children content) :
      Derives .element [.element tag children]
        ('<' :: (tag.toList ++ attributes.flatten ++
          '>' :: (content ++ '<' :: '/' :: (tag.toList ++ ['>']))))
  | nil : Derives .items [] []
  | nested {trees more : List TagTree} {text rest : List Char} (first : Derives .element trees text)
      (later : Derives .items more rest) : Derives .items (trees ++ more) (text ++ rest)
  | insert {trees : List TagTree} {text rest : List Char} (nested : Nested text)
      (later : Derives .items trees rest) : Derives .items trees ('{' :: (text ++ '}' :: rest))
  | text {trees : List TagTree} {text rest : List Char} (free : ∀ c ∈ text, isMarkup c = false)
      (later : Derives .items trees rest) : Derives .items trees (text ++ rest)

/-- The text is an element whose tags are those of the tree. -/
def IsElement (tree : TagTree) (text : String) : Prop :=
  Derives .element [tree] text.toList

namespace Derives

theorem append {trees more : List TagTree} {front back : List Char}
    (first : Derives .items trees front) (second : Derives .items more back) :
    Derives .items (trees ++ more) (front ++ back) := by
  generalize isItems : Symbol.items = symbol at first
  induction first with
  | element => cases isItems
  | nil => exact second
  | nested element _ _ ih =>
      rw [List.append_assoc, List.append_assoc]
      exact .nested element (ih rfl)
  | insert nested _ ih =>
      rw [List.cons_append, List.append_assoc, List.cons_append]
      exact .insert nested (ih rfl)
  | text free _ ih =>
      rw [List.append_assoc]
      exact .text free (ih rfl)

theorem of_element {trees : List TagTree} {text : List Char}
    (element : Derives .element trees text) : Derives .items trees text := by
  have whole := Derives.nested element .nil
  rwa [List.append_nil, List.append_nil] at whole

end Derives

end ComponentGen.Jsx
