import ComponentGen.Proofs.Generated.Reads
import ComponentGen.Proofs.JavaScript.Brackets
import ComponentGen.Proofs.Text.Pieces
/-!
# Reads in printed markup

Where generated markup reads a field of the component's input, an optional member of a block of the
props is printed. Apart from that there are names and plain text, which are printed as they are given,
and strings in quotes; the rest has neither a question mark nor a quote. So the reads in the text of
some markup are the reads that the tree of the markup has, one by one and in order.
-/

namespace ComponentGen

open JavaScript (Expr)
open Jsx (Attribute Markup)
open Text (MadeOf)

/-- How a field of the component's input is read. -/
def Binding.readText (b : Binding) : String :=
  JavaScript.optionalMember ("props." ++ b.category.block) b.key

/-! ## Expressions -/

namespace JavaScript

/-- The text has no question mark and no quote, or it is a string in quotes. -/
def ReadsNothing (s : String) : Prop :=
  ('?' ∉ s.toList ∧ '"' ∉ s.toList) ∨ ∃ content, s = quote content

theorem readsNothing_of_kind {isKind : Char → Bool} {s : String}
    (all : ∀ c ∈ s.toList, isKind c = true) (noMark : isKind '?' = false)
    (noQuote : isKind '"' = false) : ReadsNothing s :=
  .inl ⟨fun member => Text.ne_of_kind (all _ member) noMark rfl,
    fun member => Text.ne_of_kind (all _ member) noQuote rfl⟩

theorem readsNothing_propertyKey (key : String) : ReadsNothing (propertyKey key) := by
  rw [propertyKey]
  split
  · next bare =>
      exact readsNothing_of_kind (fun _ => isIdentifierPart_of_mem bare) (by decide) (by decide)
  · exact .inr ⟨key, rfl⟩

theorem readsNothing_numberText (n : Json.Number) : ReadsNothing (numberText n) :=
  readsNothing_of_kind (fun _ => isNumberChar_of_mem_numberText) (by decide) (by decide)

section Nested

variable {α : Type} (itemsOf : α → List Binding) (text : α → String)

theorem madeOf_arrayText {items : List α}
    (all : ∀ item ∈ items, MadeOf ReadsNothing Binding.readText (itemsOf item) (text item)) :
    MadeOf ReadsNothing Binding.readText (items.flatMap itemsOf) (arrayText (items.map text)) := by
  have comma : ReadsNothing ", " := .inl (by decide)
  have inside := MadeOf.intercalate comma (.inl (by decide)) all
  rw [arrayText]
  exact (inside.prepend (.inl (by decide))).followedBy (.inl (by decide))

theorem madeOf_objectText {entries : List (String × α)}
    (all : ∀ entry ∈ entries,
      MadeOf ReadsNothing Binding.readText (itemsOf entry.2) (text entry.2)) :
    MadeOf ReadsNothing Binding.readText (entries.flatMap fun entry => itemsOf entry.2)
      (objectText (entries.map fun entry => (entry.1, text entry.2))) := by
  have comma : ReadsNothing ", " := .inl (by decide)
  have colon : ReadsNothing ": " := .inl (by decide)
  have each : ∀ entry ∈ entries, MadeOf ReadsNothing Binding.readText (itemsOf entry.2)
      (entryText (entry.1, text entry.2)) := by
    intro entry member
    rw [entryText, String.append_assoc]
    exact ((all entry member).prepend colon).prepend (readsNothing_propertyKey entry.1)
  have inside := MadeOf.intercalate comma (.inl (by decide)) each
  rw [objectText, List.map_map]
  split
  · next isEmpty =>
      rw [List.isEmpty_map, List.isEmpty_iff] at isEmpty
      rw [isEmpty]
      exact .other (.inl (by decide))
  · exact (inside.prepend (.inl (by decide))).followedBy (.inl (by decide))

end Nested

/-- A literal reads nothing. -/
theorem madeOf_literal (value : Json) :
    MadeOf ReadsNothing Binding.readText [] (literal value) := by
  have nothing {α : Type} (items : List α) : (items.flatMap fun _ => ([] : List Binding)) = [] :=
    List.flatMap_eq_nil_iff.2 fun _ _ => rfl
  induction value using Json.nested with
  | null => exact .other (.inl (by decide))
  | bool b => cases b <;> exact .other (.inl (by decide))
  | number n => exact .other (readsNothing_numberText n)
  | string s => exact .other (.inr ⟨s, rfl⟩)
  | array items ih =>
      have whole := madeOf_arrayText (fun _ => []) literal ih
      rwa [nothing, ← literals_eq_map] at whole
  | object members ih =>
      have whole := madeOf_objectText (fun _ => []) literal ih
      rwa [nothing, ← literalEntries_eq_map] at whole

/-- The text of an expression reads the fields that the expression reads, and nothing else. -/
theorem Expr.madeOf_text (expr : Expr) :
    MadeOf ReadsNothing Binding.readText expr.inputs expr.text := by
  induction expr using Expr.nestedInduction with
  | literal value => exact madeOf_literal value
  | input category key => exact .item (⟨category, key⟩ : Binding)
  | nested => exact .other (.inl (by decide))
  | array items ih =>
      rw [Expr.inputs, Expr.itemInputs_eq_flatMap, Expr.text, Expr.texts_eq_map]
      exact madeOf_arrayText inputs text ih
  | object entries ih =>
      rw [Expr.inputs, Expr.entryInputs_eq_flatMap, Expr.text, Expr.entryTexts_eq_map]
      exact madeOf_objectText inputs text ih

end JavaScript

/-! ## Markup -/

/-- What markup prints besides its brackets, quoted strings and numbers. -/
inductive Printed where
  | read (field : Binding)
  | given (text : String)

namespace Printed

def text : Printed → String
  | read field => field.readText
  | given text => text

def read? : Printed → Option Binding
  | read field => some field
  | given _ => none

theorem filterMap_read?_map (fields : List Binding) :
    (fields.map read).filterMap read? = fields := by
  rw [List.filterMap_map]
  exact List.filterMap_some

end Printed

namespace Jsx

open JavaScript (ReadsNothing)

/-- What an attribute prints: its name, and a text or the reads of its value. -/
def Attribute.printed : Attribute → List Printed
  | flag name => [.given name]
  | plain name text => [.given name, .given ("\"" ++ text ++ "\"")]
  | value name expr => .given name :: expr.inputs.map .read

namespace Markup

mutual

/-- What a piece of markup prints, in order. -/
def printed : Markup → List Printed
  | text s => [.given s]
  | insert expr => expr.inputs.map .read
  | element tag attributes content =>
    .given tag :: attributes.flatMap Attribute.printed ++ (contentPrinted content ++ [.given tag])

/-- What several pieces of markup print. -/
def contentPrinted : List Markup → List Printed
  | [] => []
  | piece :: rest => printed piece ++ contentPrinted rest

end

end Markup

theorem Attribute.reads_printed (a : Attribute) : a.printed.filterMap Printed.read? = a.inputs := by
  cases a with
  | flag name => rfl
  | plain name text => rfl
  | value name expr => exact Printed.filterMap_read?_map expr.inputs

namespace Markup

mutual

/-- The reads that are printed are those of the markup. -/
theorem reads_printed : ∀ m : Markup, m.printed.filterMap Printed.read? = m.inputs
  | text s => rfl
  | insert expr => Printed.filterMap_read?_map expr.inputs
  | element tag attributes content => by
      have own : (attributes.flatMap Attribute.printed).filterMap Printed.read? =
          attributes.flatMap Attribute.inputs := by
        rw [List.filterMap_flatMap]
        exact List.flatMap_congr fun a _ => a.reads_printed
      rw [printed, inputs, List.cons_append, List.filterMap_cons_none rfl, List.filterMap_append,
        List.filterMap_append, own, reads_contentPrinted content, List.filterMap_cons_none rfl,
        List.filterMap_nil, List.append_nil]

theorem reads_contentPrinted : ∀ pieces : List Markup,
    (contentPrinted pieces).filterMap Printed.read? = contentInputs pieces
  | [] => rfl
  | piece :: rest => by
      rw [contentPrinted, contentInputs, List.filterMap_append, reads_printed piece,
        reads_contentPrinted rest]

end

end Markup

/-! ### The text of markup -/

theorem madeOf_braced (expr : Expr) :
    MadeOf ReadsNothing Printed.text (expr.inputs.map .read) (braced expr) := by
  have inside : MadeOf ReadsNothing Printed.text (expr.inputs.map .read) expr.text :=
    expr.madeOf_text.map fun _ => rfl
  exact (inside.prepend (.inl (by decide))).followedBy (.inl (by decide))

theorem madeOf_given (s : String) : MadeOf ReadsNothing Printed.text [.given s] s :=
  .item (Printed.given s)

theorem Attribute.madeOf_text (a : Attribute) :
    MadeOf ReadsNothing Printed.text a.printed a.text := by
  cases a with
  | flag name => exact madeOf_given name
  | plain name text =>
      have split : (plain name text).text = name ++ "=" ++ ("\"" ++ text ++ "\"") := by
        have opening : "=\"" = "=" ++ "\"" := rfl
        rw [Attribute.text, opening]
        simp only [String.append_assoc]
      rw [split]
      exact ((madeOf_given name).followedBy (.inl (by decide))).append (madeOf_given _)
  | value name expr =>
      exact ((madeOf_given name).followedBy (.inl (by decide))).append (madeOf_braced expr)

theorem madeOf_tagText (tag : String) (attributes : List Attribute) :
    MadeOf ReadsNothing Printed.text
      (.given tag :: attributes.flatMap Attribute.printed) (tagText tag attributes) := by
  have each := MadeOf.join (.inl (by decide)) fun a (_ : a ∈ attributes) =>
    a.madeOf_text.prepend (.inl (by decide) : ReadsNothing " ")
  exact (madeOf_given tag).append each

namespace Markup

mutual

/-- The text of a piece of markup is made of what the markup prints. -/
theorem madeOf_render : ∀ m : Markup,
    MadeOf ReadsNothing Printed.text m.printed (m.render .paired)
  | text s => by
      rw [render]
      exact madeOf_given s
  | insert expr => by
      rw [render]
      exact madeOf_braced expr
  | element tag attributes content => by
      have less : ReadsNothing "<" := .inl (by decide)
      have greater : ReadsNothing ">" := .inl (by decide)
      have lessSlash : ReadsNothing "</" := .inl (by decide)
      have opening := ((madeOf_tagText tag attributes).prepend less).followedBy greater
      have inside := (opening.append (madeOf_renderAll content)).followedBy lessSlash
      have whole := (inside.append (madeOf_given tag)).followedBy greater
      rwa [List.append_assoc, ← render_element] at whole

/-- Several pieces of markup print what each of them prints. -/
theorem madeOf_renderAll : ∀ pieces : List Markup,
    MadeOf ReadsNothing Printed.text (contentPrinted pieces) (renderAll .paired pieces)
  | [] => .other (.inl (by decide))
  | piece :: rest => by
      rw [renderAll, contentPrinted]
      exact (madeOf_render piece).append (madeOf_renderAll rest)

end

end Markup

end Jsx

end ComponentGen
