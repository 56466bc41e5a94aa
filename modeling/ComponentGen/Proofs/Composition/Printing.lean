import ComponentGen.Proofs.Composition.Pruning
import ComponentGen.Proofs.JavaScript.UniqueReading
/-!
# Printed compositions

The text of a rendered composition is read in one way. A tag ends in front of a blank or an angle
bracket, what stands in braces ends where its literal ends, and the elements nested in an element end
where its own name is closed. Whatever the strings in styles and data are, they break no line, so the
lines of the text are the texts of the top-level elements.
-/

namespace ComponentGen

open JavaScript (IsVisible isIdentifier isIdentifierPart isVisible_of_all
  isVisible_of_mem_identifier writeValue)
open Text (Delimits EndsRun ReadsOnlyAs endsRun_cons)

/-- All numbers in the styles and the data are integers. -/
def Label.WholeNumbers (l : Label) : Prop :=
  (∀ m ∈ l.styleMap, (Json.ofMap m).WholeNumbers) ∧ ∀ m ∈ l.data, (Json.ofMap m).WholeNumbers

namespace Record

/-- All numbers of the record and of the records nested in it are integers. -/
def WholeNumbers (r : Record) : Prop :=
  r.Everywhere fun other => other.label.WholeNumbers

theorem everywhere_of_forall {property : Record → Prop} (all : ∀ r, property r) (r : Record) :
    r.Everywhere property := by
  induction r using nestedInduction with
  | record r ih => exact .intro (all r) ih

end Record

namespace Element

/-- The property holds of an element and of all elements nested in it, at every depth. -/
inductive Everywhere (property : Element → Prop) : Element → Prop
  | intro {e : Element} (here : property e)
      (below : ∀ child ∈ e.children, Everywhere property child) : Everywhere property e

/-- The text of an element. -/
def text (e : Element) : String :=
  e.markup.render .compact

/-! ## The parts of an element -/

/-- The attribute for a map of values, if there is one, with the blank in front of it. -/
def writeBlock (name : String) : Option (OrderedMap Json) → List Char
  | none => []
  | some m => ' ' :: (name.toList ++ '=' :: '{' :: (writeValue (Json.ofMap m) ++ ['}']))

/-- What follows the attributes of an element. -/
def writeEnd (component : String) (children : List Element) : List Char :=
  if children = [] then [' ', '/', '>']
  else
    '>' :: (children.flatMap (fun child => child.text.toList) ++
      (['<', '/'] ++ (component.toList ++ ['>'])))

theorem listMarkup_eq_map (elements : List Element) : listMarkup elements = elements.map markup := by
  induction elements with
  | nil => rfl
  | cons e rest ih => rw [listMarkup, ih, List.map_cons]

theorem toList_blockText (name : String) (m : Option (OrderedMap Json)) :
    (String.join ((mapAttribute name m).map fun a => " " ++ a.text)).toList = writeBlock name m := by
  cases m with
  | none => rfl
  | some values =>
      simp [mapAttribute, Jsx.Attribute.text, Jsx.braced, JavaScript.Expr.text, writeBlock, writeValue]

theorem toList_text (e : Element) :
    e.text.toList = '<' :: (e.component.toList ++ (writeBlock "styleMap" e.styleMap ++
      (writeBlock "data" e.data ++ writeEnd e.component e.children))) := by
  obtain ⟨component, styleMap, data, children⟩ := e
  have tag : (Jsx.tagText component
      (mapAttribute "styleMap" styleMap ++ mapAttribute "data" data)).toList =
        component.toList ++ (writeBlock "styleMap" styleMap ++ writeBlock "data" data) := by
    rw [Jsx.tagText, List.map_append, String.join_append, String.toList_append,
      String.toList_append, toList_blockText, toList_blockText]
  cases children with
  | nil =>
      rw [text, markup, listMarkup, Jsx.Markup.render]
      simp [tag, writeEnd]
  | cons first rest =>
      rw [text, markup, listMarkup, Jsx.Markup.render, Jsx.Markup.renderAll_eq_join,
        listMarkup_eq_map]
      simp [tag, writeEnd, text, List.flatMap_map]

/-! ## Elements -/

/-- The element has a name for its component and integers as its only numbers. -/
def Readable (e : Element) : Prop :=
  isIdentifier e.component = true ∧ e.label.WholeNumbers

/-- What is left of an element behind its name goes on with a blank or an angle bracket. -/
theorem endsRun_writeEnd (component : String) (children : List Element) (behind : List Char) :
    EndsRun isIdentifierPart (writeEnd component children ++ behind) := by
  rw [writeEnd]
  split
  · exact endsRun_cons rfl _
  · exact endsRun_cons rfl _

theorem endsRun_writeBlock (name : String) (m : Option (OrderedMap Json)) {behind : List Char}
    (ends : EndsRun isIdentifierPart behind) :
    EndsRun isIdentifierPart (writeBlock name m ++ behind) := by
  cases m with
  | none => exact ends
  | some values => exact endsRun_cons rfl _

/-- What is left of an element behind its attributes is no further attribute. -/
theorem writeEnd_ne_attribute (component : String) (children : List Element) (behind : List Char)
    {c : Char} (letter : c ≠ '/') (later : List Char) :
    writeEnd component children ++ behind ≠ ' ' :: c :: later := by
  rw [writeEnd]
  split
  · intro same
    exact letter (List.cons.inj (List.cons.inj same).2).1.symm
  · intro same
    exact absurd (List.cons.inj same).1 (by decide)

/-- An attribute is read where it can be seen whether it is there. -/
theorem writeBlock_append_inj {name : String} {m other : Option (OrderedMap Json)}
    {behind otherBehind : List Char} (whole : ∀ values ∈ m, (Json.ofMap values).WholeNumbers)
    (otherWhole : ∀ values ∈ other, (Json.ofMap values).WholeNumbers)
    (absent : ∀ later, behind ≠ ' ' :: (name.toList ++ later))
    (otherAbsent : ∀ later, otherBehind ≠ ' ' :: (name.toList ++ later))
    (same : writeBlock name m ++ behind = writeBlock name other ++ otherBehind) :
    m = other ∧ behind = otherBehind := by
  cases m with
  | none =>
      cases other with
      | none => exact ⟨rfl, same⟩
      | some others =>
          rw [writeBlock, writeBlock, List.nil_append, List.cons_append, List.append_assoc] at same
          exact absurd same (absent _)
  | some values =>
      cases other with
      | none =>
          rw [writeBlock, writeBlock, List.nil_append, List.cons_append, List.append_assoc] at same
          exact absurd same.symm (otherAbsent _)
      | some others =>
          simp only [writeBlock, List.cons_append, List.append_assoc, List.nil_append,
            List.cons.injEq, true_and, List.append_cancel_left_eq] at same
          obtain ⟨sameValues, closed⟩ := JavaScript.value_readsOnlyAs (whole values rfl)
            (Json.ofMap others) (otherWhole others rfl) _ _ (endsRun_cons rfl _)
            (endsRun_cons rfl _) same
          have sameEntries : values.entries = others.entries := Json.object.inj sameValues
          exact ⟨congrArg some (OrderedMap.ext sameEntries), (List.cons.inj closed).2⟩

/-- Nested elements are told from the closing tag behind them, and lines of elements from it too. -/
theorem delimits_elements {separator : List Char}
    (apart : ∀ behind later, separator ++ behind = '<' :: '/' :: later → separator = []) :
    Delimits (fun e => e.text.toList) (Everywhere Readable) (fun _ => True) separator
      ['<', '/'] := by
  have item_ne (e : Element) (readable : e.Everywhere Readable) (behind later : List Char) :
      e.text.toList ++ behind ≠ '<' :: '/' :: later := by
    obtain ⟨⟨isName, -⟩, -⟩ := readable
    obtain ⟨c, rest, chars, part⟩ := JavaScript.identifier_eq_cons isName
    rw [toList_text, chars]
    intro same
    obtain rfl := (List.cons.inj (List.cons.inj same).2).1
    cases part
  exact {
    item_ne
    separator_ne := fun e readable behind later same => by
      obtain rfl := apart _ _ same
      exact item_ne e readable behind later same
    ends_separator := fun _ _ _ => trivial
    ends_closing := fun _ => trivial }

theorem writeEnd_append_inj {component : String} {children others : List Element}
    {behind otherBehind : List Char}
    (each : ∀ child ∈ children,
      ReadsOnlyAs (fun e => e.text.toList) (Everywhere Readable) (fun _ => True) child)
    (readable : ∀ child ∈ children, child.Everywhere Readable)
    (otherReadable : ∀ child ∈ others, child.Everywhere Readable)
    (same : writeEnd component children ++ behind = writeEnd component others ++ otherBehind) :
    children = others ∧ behind = otherBehind := by
  rw [writeEnd, writeEnd] at same
  by_cases empty : children = []
  · by_cases otherEmpty : others = []
    · rw [if_pos empty, if_pos otherEmpty] at same
      exact ⟨empty.trans otherEmpty.symm, List.append_cancel_left same⟩
    · rw [if_pos empty, if_neg otherEmpty] at same
      exact absurd (List.cons.inj same).1 (by decide)
  · by_cases otherEmpty : others = []
    · rw [if_neg empty, if_pos otherEmpty] at same
      exact absurd (List.cons.inj same).1 (by decide)
    · simp only [if_neg empty, if_neg otherEmpty, List.cons_append, List.append_assoc,
        List.nil_append, List.cons.injEq, true_and] at same
      have delimits : Delimits (fun e => e.text.toList) (Everywhere Readable) (fun _ => True) []
          ['<', '/'] := delimits_elements fun _ _ _ => rfl
      obtain ⟨sameChildren, closed⟩ :=
        delimits.tail_append_inj each readable otherReadable same
      exact ⟨sameChildren, List.tail_eq_of_cons_eq (List.append_cancel_left closed)⟩

/-- An element is known from its text, whatever stands behind that. -/
theorem text_readsOnlyAs {e : Element} (readable : e.Everywhere Readable) :
    ReadsOnlyAs (fun e => e.text.toList) (Everywhere Readable) (fun _ => True) e := by
  induction readable with
  | @intro e here below ih =>
      intro other otherReadable behind otherBehind _ _ same
      obtain ⟨otherHere, otherBelow⟩ := otherReadable
      simp only [toList_text, List.cons_append, List.append_assoc, List.cons.injEq,
        true_and] at same
      have ends (e : Element) (behind : List Char) :
          EndsRun isIdentifierPart (writeBlock "styleMap" e.styleMap ++
            (writeBlock "data" e.data ++ (writeEnd e.component e.children ++ behind))) :=
        endsRun_writeBlock _ _ (endsRun_writeBlock _ _ (endsRun_writeEnd _ _ _))
      have noData (e : Element) (behind later : List Char) :
          writeEnd e.component e.children ++ behind ≠ ' ' :: ("data".toList ++ later) :=
        writeEnd_ne_attribute _ _ _ (by decide) _
      have noStyles (e : Element) (behind later : List Char) :
          writeBlock "data" e.data ++ (writeEnd e.component e.children ++ behind) ≠
            ' ' :: ("styleMap".toList ++ later) := by
        cases e.data with
        | none => exact writeEnd_ne_attribute _ _ _ (by decide) _
        | some values => exact fun same => absurd (List.cons.inj (List.cons.inj same).2).1 (by decide)
      obtain ⟨sameComponent, same⟩ := JavaScript.identifier_append_inj here.1 otherHere.1
        (ends e behind) (ends other otherBehind) same
      obtain ⟨sameStyles, same⟩ := writeBlock_append_inj here.2.1 otherHere.2.1
        (noStyles e behind) (noStyles other otherBehind) same
      obtain ⟨sameData, same⟩ := writeBlock_append_inj here.2.2 otherHere.2.2
        (noData e behind) (noData other otherBehind) same
      rw [← sameComponent] at same
      obtain ⟨sameChildren, same⟩ := writeEnd_append_inj ih below otherBelow same
      refine ⟨?_, same⟩
      cases e
      cases other
      cases sameComponent
      cases sameStyles
      cases sameData
      cases sameChildren
      rfl

/-- No line ends in an element, whatever the strings in its styles and data are. -/
theorem isVisible_of_mem_text {e : Element}
    (named : e.Everywhere fun other => isIdentifier other.component = true) :
    ∀ c ∈ e.text.toList, IsVisible c := by
  have block (name : String) (visible : ∀ c ∈ name.toList, IsVisible c)
      (m : Option (OrderedMap Json)) : ∀ c ∈ writeBlock name m, IsVisible c := by
    cases m with
    | none => exact fun _ member => absurd member List.not_mem_nil
    | some values =>
        rw [writeBlock, List.forall_mem_cons, List.forall_mem_append, List.forall_mem_cons,
          List.forall_mem_cons, List.forall_mem_append]
        exact ⟨by decide, visible, by decide, by decide,
          JavaScript.isVisible_of_mem_writeValue (Json.ofMap values), isVisible_of_all rfl⟩
  induction named with
  | @intro e here below ih =>
      have name := isVisible_of_mem_identifier here
      have ending : ∀ c ∈ writeEnd e.component e.children, IsVisible c := by
        rw [writeEnd]
        split
        · exact isVisible_of_all rfl
        · rw [List.forall_mem_cons, List.forall_mem_append, List.forall_mem_flatMap,
            List.forall_mem_append, List.forall_mem_append]
          exact ⟨by decide, ih, isVisible_of_all rfl, name, isVisible_of_all rfl⟩
      rw [toList_text, List.forall_mem_cons, List.forall_mem_append, List.forall_mem_append,
        List.forall_mem_append]
      exact ⟨by decide, name, block _ (isVisible_of_all rfl) _, block _ (isVisible_of_all rfl) _,
        ending⟩

end Element

/-! ## Rendered elements -/

namespace Dispatcher

/-- A component is known by one of the given names. -/
theorem mem_of_resolve? {names : List String} {component name : String}
    (resolved : (ofNames names).resolve? component = some name) : name ∈ names :=
  (mem_spelledAlike.1 (List.mem_of_getLast? (resolve?_eq_getLast? names component ▸ resolved))).1

/-- What holds of every record, under each of the given names, holds of the rendered elements. -/
theorem everywhere_of_mem_render {names : List String} {property : Record → Prop}
    {wanted : Element → Prop}
    (carried : ∀ r, property r → ∀ name ∈ names, ∀ children,
      wanted ⟨name, r.styleMap, r.data, children⟩) {records : List Record}
    (everywhere : ∀ r ∈ records, r.Everywhere property) :
    ∀ e ∈ (ofNames names).render records, e.Everywhere wanted := by
  have each {r : Record} (everywhere : r.Everywhere property) (e : Element)
      (rendered : (ofNames names).renderRecord r = some e) : e.Everywhere wanted := by
    induction everywhere generalizing e with
    | @intro r here below ih =>
        rw [renderRecord_eq] at rendered
        obtain ⟨name, resolved, rfl⟩ := Option.map_eq_some_iff.1 rendered
        refine .intro (carried r here name (mem_of_resolve? resolved) _) fun child member => ?_
        rw [render_eq_filterMap] at member
        obtain ⟨record, inNested, rendered⟩ := List.mem_filterMap.1 member
        exact ih record inNested child rendered
  intro e member
  rw [render_eq_filterMap] at member
  obtain ⟨record, inRecords, rendered⟩ := List.mem_filterMap.1 member
  exact each (everywhere record inRecords) e rendered

theorem toList_toJsx (d : Dispatcher) (records : List Record) :
    (d.toJsx records).toList =
      ['\n'].intercalate ((d.render records).map fun e => e.text.toList) := by
  rw [toJsx, String.toList_intercalate, List.map_map]
  rfl

/-- A composition is printed over names that are identifiers: what is rendered is known from its text
when all numbers are integers, and the lines of the text are the texts of the elements that are
nested in no other one, whatever the strings in the styles and the data are. -/
theorem toJsx_unambiguous {names : List String}
    (identifiers : ∀ name ∈ names, isIdentifier name = true) (records : List Record) :
    ((∀ r ∈ records, r.WholeNumbers) → ∀ others : List Record, (∀ r ∈ others, r.WholeNumbers) →
      (ofNames names).toJsx records = (ofNames names).toJsx others →
      (ofNames names).render records = (ofNames names).render others) ∧
    ((ofNames names).render records ≠ [] →
      ((ofNames names).toJsx records).toList.splitOn '\n' =
        ((ofNames names).render records).map fun e => e.text.toList) := by
  constructor
  · intro whole others othersWhole same
    have readable {records : List Record} (whole : ∀ r ∈ records, r.WholeNumbers) :
        ∀ e ∈ (ofNames names).render records, e.Everywhere Element.Readable :=
      everywhere_of_mem_render (fun _ here name member _ => ⟨identifiers name member, here⟩) whole
    have lines : Delimits (fun e => e.text.toList) (Element.Everywhere Element.Readable)
        (fun _ => True) ['\n'] ['<', '/'] :=
      Element.delimits_elements fun _ _ same => absurd (List.cons.inj same).1 (by decide)
    -- a list of elements is read up to a closing tag, so one is put behind both texts
    have closed := congrArg (fun text => text.toList ++ (['<', '/'] ++ [])) same
    simp only [toList_toJsx] at closed
    exact (lines.intercalate_append_inj
      (fun e member => Element.text_readsOnlyAs (readable whole e member)) (readable whole)
      (readable othersWhole) closed).1
  · intro notEmpty
    have named : ∀ e ∈ (ofNames names).render records,
        e.Everywhere fun other => isIdentifier other.component = true :=
      everywhere_of_mem_render (fun _ _ name member _ => identifiers name member)
        fun r _ => Record.everywhere_of_forall (fun _ => trivial) r
    rw [toList_toJsx]
    refine List.splitOn_intercalate '\n' (fun line isLine breaks => ?_)
      (List.map_eq_nil_iff.not.2 notEmpty)
    obtain ⟨e, member, rfl⟩ := List.mem_map.1 isLine
    exact absurd (Element.isVisible_of_mem_text (named e member) '\n' breaks) (by decide)

/-- A card with a button in it and other records around. The title of the card breaks the line and
looks like the markup of a button. -/
def titledCard (component : String) (around : List Record) : List Record :=
  around ++ [{
    component
    data := some (.ofList [("title", .string "\"\x7d />\n<Button />"), ("top-gap", .number (.integer 2))])
    children := some [{ component := "BUTTON", styleMap := some .empty }] }] ++ around

/-- The title does not hide where the tags are: one line for the card, and with another record around
it and its name in other letters the card is the same. -/
theorem toJsx_unambiguous_titledCard :
    (ofNames ["Card", "Button"]).render (titledCard "card" []) =
      (ofNames ["Card", "Button"]).render (titledCard "Card" [.ofComponent "Chart"]) ∧
    ((ofNames ["Card", "Button"]).toJsx (titledCard "card" [])).toList.splitOn '\n' =
      ((ofNames ["Card", "Button"]).render (titledCard "card" [])).map fun e => e.text.toList := by
  have identifiers : ∀ name ∈ ["Card", "Button"], isIdentifier name = true := by decide
  have noRecords (r : Record) (absent : r ∈ ([] : List Record)) : r.WholeNumbers :=
    absurd absent List.not_mem_nil
  have noMap (m : OrderedMap Json) (absent : m ∈ (none : Option (OrderedMap Json))) :
      (Json.ofMap m).WholeNumbers := absurd absent (Option.not_mem_none m)
  have bare (component : String) : (Record.ofComponent component).WholeNumbers :=
    .intro ⟨noMap, noMap⟩ noRecords
  have whole (component : String) (around : List Record)
      (aroundWhole : ∀ r ∈ around, r.WholeNumbers) :
      ∀ r ∈ titledCard component around, r.WholeNumbers := by
    rw [titledCard, List.forall_mem_append, List.forall_mem_append, List.forall_mem_singleton]
    refine ⟨⟨aroundWhole, .intro ⟨noMap, ?_⟩ (List.forall_mem_singleton.2 (.intro ⟨?_, noMap⟩
      noRecords))⟩, aroundWhole⟩
    · rintro _ ⟨⟩
      decide
    · rintro _ ⟨⟩
      decide
  obtain ⟨known, lines⟩ := toJsx_unambiguous identifiers (titledCard "card" [])
  refine ⟨known (whole _ _ noRecords) _ (whole _ _ (List.forall_mem_singleton.2 (bare "Chart"))) ?_,
    lines ?_⟩
  · decide +kernel
  · decide +kernel

end Dispatcher

end ComponentGen
