import ComponentGen.Template.Basic
import Mathlib.Data.List.Infix
/-!
# What a text is made of

A text that a generator writes is a row of pieces: items, each in the one way in which it is written,
and texts of another kind around them. Such a row is put together along the appends, the separators
and the templates that the text is written with.
-/

namespace ComponentGen

namespace Template

variable {ν : Type}

/-- The texts of a template, in order. -/
def texts : Template ν → List String
  | [] => []
  | .text s :: rest => s :: texts rest
  | .hole _ :: rest => texts rest

/-- The variables in the holes of a template, in order. -/
def holes : Template ν → List ν
  | [] => []
  | .text _ :: rest => holes rest
  | .hole v :: rest => v :: holes rest

end Template

namespace Text

/-- The text is a row in which the items come in order, each written in the given way. Whatever
stands around them is of another kind. -/
inductive MadeOf {α : Type} (other : String → Prop) (write : α → String) :
    List α → String → Prop where
  | other {s : String} (isOther : other s) : MadeOf other write [] s
  | item (a : α) : MadeOf other write [a] (write a)
  | append {first second : List α} {s t : String} (front : MadeOf other write first s)
      (back : MadeOf other write second t) : MadeOf other write (first ++ second) (s ++ t)

/-- The items are written in the text, in order, with anything around them. -/
abbrev Mentions {α : Type} (write : α → String) : List α → String → Prop :=
  MadeOf (fun _ => True) write

namespace MadeOf

variable {α β : Type} {other : String → Prop} {write : α → String} {items : List α} {s t : String}

theorem prepend (isOther : other s) (back : MadeOf other write items t) :
    MadeOf other write items (s ++ t) :=
  MadeOf.append (.other isOther) back

theorem followedBy (front : MadeOf other write items s) (isOther : other t) :
    MadeOf other write items (s ++ t) := by
  have whole := front.append (.other isOther)
  rwa [List.append_nil] at whole

/-- The items may be made into others that are written in the same way. -/
theorem map {write' : β → String} {f : α → β} (same : ∀ a, write' (f a) = write a)
    (made : MadeOf other write items s) : MadeOf other write' (items.map f) s := by
  induction made with
  | other isOther => exact .other isOther
  | item a =>
      rw [← same a]
      exact .item (f a)
  | append _ _ front back =>
      rw [List.map_append]
      exact front.append back

/-! ### Rows with separators -/

section Separated

variable {separator : String} (isSeparator : other separator)

include isSeparator

theorem intercalate_append {first second : List α} {texts more : List String}
    (front : MadeOf other write first (separator.intercalate texts))
    (back : MadeOf other write second (separator.intercalate more)) :
    MadeOf other write (first ++ second) (separator.intercalate (texts ++ more)) := by
  have whole := front.append back
  cases texts with
  | nil => rwa [String.intercalate_nil, String.empty_append] at whole
  | cons text rest =>
      cases more with
      | nil =>
          rw [String.intercalate_nil, String.append_empty] at whole
          rwa [List.append_nil]
      | cons next later =>
          rw [String.intercalate_append_of_ne_nil (List.cons_ne_nil _ _) (List.cons_ne_nil _ _)]
          exact (front.followedBy isSeparator).append back

variable (empty : other "") {pieces : List β} {itemsOf : β → List α}

include empty

/-- Pieces, some of which are not written at all. -/
theorem intercalate_filterMap {text? : β → Option String}
    (all : ∀ piece ∈ pieces, MadeOf other write (itemsOf piece) ((text? piece).getD "")) :
    MadeOf other write (pieces.flatMap itemsOf)
      (separator.intercalate (pieces.filterMap text?)) := by
  induction pieces with
  | nil => exact .other empty
  | cons piece rest ih =>
      rw [List.forall_mem_cons] at all
      have split : (piece :: rest).filterMap text? =
          (text? piece).toList ++ rest.filterMap text? := by
        cases written : text? piece with
        | none => rw [List.filterMap_cons_none written]; rfl
        | some text => rw [List.filterMap_cons_some written]; rfl
      have first : MadeOf other write (itemsOf piece)
          (separator.intercalate (text? piece).toList) := by
        cases written : text? piece with
        | none => simpa [written] using all.1
        | some text => simpa [written] using all.1
      rw [List.flatMap_cons, split]
      exact intercalate_append isSeparator first (ih all.2)

theorem intercalate {text : β → String}
    (all : ∀ piece ∈ pieces, MadeOf other write (itemsOf piece) (text piece)) :
    MadeOf other write (pieces.flatMap itemsOf) (separator.intercalate (pieces.map text)) := by
  rw [← List.filterMap_eq_map]
  exact intercalate_filterMap isSeparator empty all

end Separated

/-! ### Rows without separators -/

variable (empty : other "") {pieces : List β} {itemsOf : β → List α}

include empty

theorem join_filterMap {text? : β → Option String}
    (all : ∀ piece ∈ pieces, MadeOf other write (itemsOf piece) ((text? piece).getD "")) :
    MadeOf other write (pieces.flatMap itemsOf) (String.join (pieces.filterMap text?)) := by
  induction pieces with
  | nil => exact .other empty
  | cons piece rest ih =>
      rw [List.forall_mem_cons] at all
      have whole := all.1.append (ih all.2)
      rw [List.flatMap_cons, List.filterMap_cons]
      cases written : text? piece with
      | none => rwa [written, Option.getD_none, String.empty_append] at whole
      | some text => rwa [written, Option.getD_some, ← String.join_cons] at whole

theorem join {text : β → String}
    (all : ∀ piece ∈ pieces, MadeOf other write (itemsOf piece) (text piece)) :
    MadeOf other write (pieces.flatMap itemsOf) (String.join (pieces.map text)) := by
  rw [← List.filterMap_eq_map]
  exact join_filterMap empty all

/-- A template is made of its texts and of what is put into its holes. -/
theorem expand {ν : Type} {template : Template ν} {value : ν → String} {itemsOf : ν → List α}
    (texts : ∀ s ∈ template.texts, other s)
    (holes : ∀ v, MadeOf other write (itemsOf v) (value v)) :
    MadeOf other write (template.holes.flatMap itemsOf) (template.expand value) := by
  induction template with
  | nil => exact .other empty
  | cons part rest ih =>
      rw [Template.expand, List.map_cons, String.join_cons]
      cases part with
      | text s =>
          have both := List.forall_mem_cons.1 texts
          exact (ih both.2).prepend both.1
      | hole v =>
          rw [Template.holes, List.flatMap_cons]
          exact (holes v).append (ih texts)

end MadeOf

/-! ## Texts around pieces -/

/-- The pieces stand in the text in order, and whatever stands in front of one of them or behind the
last is of the given kind. -/
inductive Between (other : String → Prop) : List String → String → Prop where
  | last {own : String} (isOther : other own) : Between other [] own
  | next {own : String} (piece : String) {pieces : List String} {text : String}
      (isOther : other own) (rest : Between other pieces text) :
      Between other (piece :: pieces) (own ++ (piece ++ text))

namespace Between

variable {other : String → Prop} {pieces more : List String} {s t : String}

section

variable (closed : ∀ {s t : String}, other s → other t → other (s ++ t))

include closed

theorem prepend (isOther : other s) (back : Between other pieces t) :
    Between other pieces (s ++ t) := by
  cases back with
  | last isLast => exact .last (closed isOther isLast)
  | next piece isOwn rest =>
      rw [← String.append_assoc]
      exact .next piece (closed isOther isOwn) rest

theorem append (front : Between other pieces s) (back : Between other more t) :
    Between other (pieces ++ more) (s ++ t) := by
  induction front with
  | last isOther => exact back.prepend closed isOther
  | next piece isOther _ ih =>
      rw [String.append_assoc, String.append_assoc]
      exact .next piece isOther ih

end

end Between

/-- A row of pieces, where texts of the other kind may be put together. -/
theorem MadeOf.between {other : String → Prop} {pieces : List String} {text : String}
    (made : MadeOf other id pieces text) (empty : other "")
    (closed : ∀ {s t : String}, other s → other t → other (s ++ t)) :
    Between other pieces text := by
  induction made with
  | other isOther => exact .last isOther
  | item piece =>
      have alone := Between.next piece empty (.last empty)
      rwa [String.empty_append, String.append_empty] at alone
  | append _ _ front back => exact front.append closed back

/-! ### Texts without a word -/

/-- The word is not in the text, and cannot begin at its end, as no letter of the word comes last. -/
structure AvoidsChars (word text : List Char) : Prop where
  absent : ¬ word <:+: text
  last : text.getLast?.any word.contains = false

theorem not_infix_iff_tails {word text : List Char} :
    ¬ word <:+: text ↔ ∀ rest ∈ text.tails, ¬ word <+: rest := by
  simp only [List.infix_iff_prefix_suffix, List.mem_tails, not_exists, not_and]
  exact forall_congr' fun rest => ⟨fun h suffix pre => h pre suffix, fun h pre suffix => h suffix pre⟩

instance (word text : List Char) : Decidable (AvoidsChars word text) :=
  decidable_of_iff
    ((∀ rest ∈ text.tails, ¬ word <+: rest) ∧ text.getLast?.any word.contains = false)
    ⟨fun avoids => ⟨not_infix_iff_tails.2 avoids.1, avoids.2⟩,
      fun avoids => ⟨not_infix_iff_tails.1 avoids.absent, avoids.last⟩⟩

theorem AvoidsChars.not_mem_word {word text : List Char} {c : Char} (avoids : AvoidsChars word text)
    (isLast : text.getLast? = some c) : c ∉ word := by
  intro inWord
  have last := avoids.last
  rw [isLast, Option.any_some, List.contains_iff_mem.2 inWord] at last
  cases last

/-- The word is not in the text and cannot begin at its end, whatever the text goes on with. -/
def Avoids (word text : String) : Prop :=
  AvoidsChars word.toList text.toList

namespace Avoids

variable {word s t : String}

/-- Whether a text avoids a word is found out from the characters of both. -/
theorem of_chars {word text : List Char} (avoids : AvoidsChars word text) :
    Avoids (String.ofList word) (String.ofList text) := by
  rwa [Avoids, String.toList_ofList, String.toList_ofList]

/-- A word that is in neither of two texts is not in the two together, as it would go across the end
of the first. -/
theorem append (front : Avoids word s) (back : Avoids word t) : Avoids word (s ++ t) := by
  rw [Avoids, String.toList_append]
  constructor
  · intro within
    rcases List.infix_append_iff.1 within with inFront | inBack | ⟨start, rest, same, isEnd, isStart⟩
    · exact front.absent inFront
    · exact back.absent inBack
    · cases last : start.getLast? with
      | none =>
          rw [List.getLast?_eq_none_iff.1 last, List.nil_append] at same
          exact back.absent (same ▸ isStart.isInfix)
      | some c =>
          have isLast : s.toList.getLast? = some c := by
            obtain ⟨before, split⟩ := isEnd
            rw [← split, List.getLast?_append, last]
            rfl
          have inWord : c ∈ word.toList := by
            rw [same]
            exact List.mem_append_left _ (List.mem_of_getLast? last)
          exact front.not_mem_word isLast inWord
  · rw [List.getLast?_append]
    cases last : t.toList.getLast? with
    | none => exact front.last
    | some c =>
        have ofBack := back.last
        rwa [last] at ofBack

theorem join (empty : Avoids word "") {texts : List String} (all : ∀ s ∈ texts, Avoids word s) :
    Avoids word (String.join texts) := by
  induction texts with
  | nil => exact empty
  | cons first rest ih =>
      rw [List.forall_mem_cons] at all
      rw [String.join_cons]
      exact all.1.append (ih all.2)

end Avoids

end Text

end ComponentGen
