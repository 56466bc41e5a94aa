import ComponentGen.Proofs.Composition.Rendering
import Mathlib.Data.List.Flatten
/-!
# Pruned compositions

A record of a composition is rendered when its own component and those of all records around it are
known. The trail of a record is what leads to it, from a record that is nested in no other one down
to the record itself. The trails of a composition, in pre-order, say how its records are nested and
in which order; rendering keeps exactly the trails on which every component is known, and nothing
else has these trails. What is rendered bears registered names, so it is rendered as it is when it is
taken for a composition again.
-/

namespace ComponentGen

/-- What a record says apart from the records nested in it. -/
structure Label where
  component : String
  styleMap : Option (OrderedMap Json)
  data : Option (OrderedMap Json)

/-! ## Trails of records -/

namespace Record

theorem sizeOf_lt_of_mem_nested {r child : Record} (member : child ∈ r.nested) :
    sizeOf child < sizeOf r := by
  obtain ⟨component, styleMap, data, children⟩ := r
  cases children with
  | none => cases member
  | some records =>
      have smaller := List.sizeOf_lt_of_mem (show child ∈ records from member)
      simp only [mk.sizeOf_spec, Option.some.sizeOf_spec]
      omega

/-- Induction over records: the hypothesis holds of all nested records. -/
@[elab_as_elim]
theorem nestedInduction {motive : Record → Prop}
    (record : ∀ r : Record, (∀ child ∈ r.nested, motive child) → motive r) (r : Record) : motive r :=
  record r fun child _ => nestedInduction record child
termination_by sizeOf r
decreasing_by exact sizeOf_lt_of_mem_nested ‹child ∈ r.nested›

def label (r : Record) : Label := ⟨r.component, r.styleMap, r.data⟩

/-- The trails of a record and of all records nested in it, in pre-order. -/
def trails (r : Record) : List (List Label) :=
  [r.label] :: (r.nested.attach.flatMap fun ⟨child, _⟩ => child.trails).map (r.label :: ·)
termination_by sizeOf r
decreasing_by exact sizeOf_lt_of_mem_nested ‹child ∈ r.nested›

theorem trails_eq (r : Record) :
    r.trails = [r.label] :: (r.nested.flatMap trails).map (r.label :: ·) := by
  rw [trails]
  simp only [List.flatMap_subtype, List.unattach_attach]

end Record

/-! ## Trails of elements -/

namespace Element

theorem sizeOf_lt_of_mem_children {e child : Element} (member : child ∈ e.children) :
    sizeOf child < sizeOf e := by
  obtain ⟨component, styleMap, data, children⟩ := e
  have smaller := List.sizeOf_lt_of_mem (show child ∈ children from member)
  simp only [mk.sizeOf_spec]
  omega

/-- Induction over elements: the hypothesis holds of all nested elements. -/
@[elab_as_elim]
theorem nestedInduction {motive : Element → Prop}
    (element : ∀ e : Element, (∀ child ∈ e.children, motive child) → motive e) (e : Element) :
    motive e :=
  element e fun child _ => nestedInduction element child
termination_by sizeOf e
decreasing_by exact sizeOf_lt_of_mem_children ‹child ∈ e.children›

def label (e : Element) : Label := ⟨e.component, e.styleMap, e.data⟩

/-- The trails of an element and of all elements nested in it, in pre-order. -/
def trails (e : Element) : List (List Label) :=
  [e.label] :: (e.children.attach.flatMap fun ⟨child, _⟩ => child.trails).map (e.label :: ·)
termination_by sizeOf e
decreasing_by exact sizeOf_lt_of_mem_children ‹child ∈ e.children›

theorem trails_eq (e : Element) :
    e.trails = [e.label] :: (e.children.flatMap trails).map (e.label :: ·) := by
  rw [trails]
  simp only [List.flatMap_subtype, List.unattach_attach]

theorem ne_nil_of_mem_trails {elements : List Element} {trail : List Label}
    (member : trail ∈ elements.flatMap trails) : trail ≠ [] := by
  obtain ⟨e, -, inTrails⟩ := List.mem_flatMap.1 member
  rw [trails_eq] at inTrails
  rcases List.mem_cons.1 inTrails with rfl | below
  · exact List.cons_ne_nil _ _
  · obtain ⟨rest, -, rfl⟩ := List.mem_map.1 below
    exact List.cons_ne_nil _ _

/-- The trails of nested elements are longer than one label, so they end where the next element that
is not nested begins. -/
theorem takeWhile_trails (top : Label) (nested following : List Element) :
    ((nested.flatMap trails).map (top :: ·) ++ following.flatMap trails).takeWhile
      (fun trail => 1 < trail.length) = (nested.flatMap trails).map (top :: ·) := by
  have long : ∀ trail ∈ (nested.flatMap trails).map (top :: ·), decide (1 < trail.length) = true := by
    intro trail member
    obtain ⟨rest, inNested, rfl⟩ := List.mem_map.1 member
    have notEmpty := List.length_pos_iff.2 (ne_nil_of_mem_trails inNested)
    simpa using notEmpty
  rw [List.takeWhile_append_of_pos long]
  cases following with
  | nil => exact List.append_nil _
  | cons e rest =>
      rw [List.flatMap_cons, trails_eq]
      exact List.append_nil _

/-- Elements with the same trails are the same. -/
theorem eq_of_trails_eq {elements others : List Element}
    (nested : ∀ e ∈ elements, ∀ others : List Element,
      e.children.flatMap trails = others.flatMap trails → e.children = others)
    (same : elements.flatMap trails = others.flatMap trails) : elements = others := by
  induction elements generalizing others with
  | nil =>
      cases others with
      | nil => rfl
      | cons other more =>
          rw [List.flatMap_cons, trails_eq] at same
          cases same
  | cons e rest ih =>
      cases others with
      | nil =>
          rw [List.flatMap_cons, trails_eq] at same
          cases same
      | cons other more =>
          rw [List.flatMap_cons, List.flatMap_cons, trails_eq, trails_eq, List.cons_append,
            List.cons_append, List.cons.injEq, List.singleton_inj] at same
          obtain ⟨sameLabel, behind⟩ := same
          rw [← sameLabel] at behind
          have below := congrArg (List.takeWhile fun trail => 1 < trail.length) behind
          rw [takeWhile_trails, takeWhile_trails] at below
          rw [below, List.append_cancel_left_eq] at behind
          have sameChildren := nested e List.mem_cons_self other.children
            (List.map_injective_iff.2 List.cons_injective below)
          have sameRest := ih (fun e member => nested e (List.mem_cons_of_mem _ member)) behind
          obtain ⟨component, styleMap, data, children⟩ := e
          obtain ⟨otherComponent, otherStyleMap, otherData, otherChildren⟩ := other
          cases sameLabel
          rw [sameRest, show children = otherChildren from sameChildren]

/-- Trails tell how elements are nested and in which order. -/
theorem flatMap_trails_inj {elements others : List Element} :
    elements.flatMap trails = others.flatMap trails ↔ elements = others := by
  have nested (e : Element) (others : List Element)
      (same : e.children.flatMap trails = others.flatMap trails) : e.children = others := by
    induction e using nestedInduction generalizing others with
    | element e ih => exact eq_of_trails_eq ih same
  exact ⟨eq_of_trails_eq fun e _ => nested e, congrArg (List.flatMap trails)⟩

theorem nested_toRecord (e : Element) : e.toRecord.nested = e.children.map toRecord := by
  have toRecords_eq_map (elements : List Element) :
      toRecord.toRecords elements = elements.map toRecord := by
    induction elements with
    | nil => rfl
    | cons first rest ih => rw [toRecord.toRecords, ih, List.map_cons]
  obtain ⟨component, styleMap, data, children⟩ := e
  rw [toRecord, toRecords_eq_map, Record.nested]
  cases children <;> rfl

end Element

/-! ## Rendering -/

namespace Dispatcher

/-- The label with the registered name of its component, if that is known. -/
def canonical (d : Dispatcher) (label : Label) : Label :=
  { label with component := (d.resolve? label.component).getD label.component }

/-- The component of every label is known. -/
def knowsAll (d : Dispatcher) (trail : List Label) : Bool :=
  trail.all fun label => d.contains label.component

theorem filter_knowsAll_cons (d : Dispatcher) (label : Label) (trails : List (List Label)) :
    (trails.map (label :: ·)).filter d.knowsAll =
      if d.contains label.component then (trails.filter d.knowsAll).map (label :: ·) else [] := by
  rw [List.filter_map]
  split
  · next known =>
      refine congrArg _ (List.filter_congr fun trail _ => ?_)
      rw [Function.comp_apply, knowsAll, List.all_cons, known, Bool.true_and, knowsAll]
  · next unknown =>
      rw [List.map_eq_nil_iff, List.filter_eq_nil_iff]
      intro trail _
      rw [Function.comp_apply, knowsAll, List.all_cons, Bool.and_eq_true, not_and]
      exact fun known => absurd known unknown

/-- What is rendered one by one has the trails that are rendered one by one. -/
theorem flatMap_trails_render {d : Dispatcher} {records : List Record}
    (each : ∀ record ∈ records, (d.renderRecord record).toList.flatMap Element.trails =
      (record.trails.filter d.knowsAll).map fun trail => trail.map d.canonical) :
    (d.render records).flatMap Element.trails =
      ((records.flatMap Record.trails).filter d.knowsAll).map fun trail =>
        trail.map d.canonical := by
  rw [render_eq_filterMap, List.filterMap_eq_flatMap_toList, List.flatMap_assoc, List.filter_flatMap,
    List.map_flatMap]
  exact List.flatMap_congr each

/-- Of the trails of a record those are rendered on which every component is known. -/
theorem trails_renderRecord (d : Dispatcher) (r : Record) :
    (d.renderRecord r).toList.flatMap Element.trails =
      (r.trails.filter d.knowsAll).map fun trail => trail.map d.canonical := by
  induction r using Record.nestedInduction with
  | record r ih =>
      rw [renderRecord_eq, Record.trails_eq, List.filter_cons, filter_knowsAll_cons]
      cases resolved : d.resolve? r.component with
      | none =>
          have unknown : d.contains r.label.component = false := by
            rw [contains, Record.label, resolved]
            rfl
          have notAlone : d.knowsAll [r.label] = false := by
            rw [knowsAll, List.all_cons, unknown, Bool.false_and]
          rw [notAlone, unknown]
          rfl
      | some name =>
          have known : d.contains r.label.component = true := by
            rw [contains, Record.label, resolved]
            rfl
          have alone : d.knowsAll [r.label] = true := by
            rw [knowsAll, List.all_cons, known]
            rfl
          have named : d.canonical r.label = ⟨name, r.styleMap, r.data⟩ := by
            rw [canonical, Record.label, resolved]
            rfl
          rw [alone, known, Option.map_some, Option.toList_some, List.flatMap_singleton,
            Element.trails_eq, flatMap_trails_render ih, if_pos rfl, if_pos rfl, List.map_cons,
            List.map_map, List.map_map]
          refine congrArg₂ List.cons ?_ (List.map_congr_left fun trail _ => ?_)
          · rw [List.map_singleton, named, Element.label]
          · rw [Function.comp_apply, Function.comp_apply, List.map_cons, named, Element.label]

/-- The trails of a rendered composition. -/
theorem trails_render (d : Dispatcher) (records : List Record) :
    (d.render records).flatMap Element.trails =
      ((records.flatMap Record.trails).filter d.knowsAll).map fun trail =>
        trail.map d.canonical :=
  flatMap_trails_render fun record _ => d.trails_renderRecord record

/-! ## Rendering again -/

/-- A registered name is registered under itself. -/
theorem resolve?_of_resolve? {names : List String} {component name : String}
    (resolved : (ofNames names).resolve? component = some name) :
    (ofNames names).resolve? name = some name := by
  have last := resolve?_eq_getLast? names component ▸ resolved
  have alike := (mem_spelledAlike.1 (List.mem_of_getLast? last)).2
  rw [← resolved, resolve?, resolve?, alike]

theorem render_map_toRecord {d : Dispatcher} {records : List Record}
    (each : ∀ record ∈ records, ∀ e, d.renderRecord record = some e →
      d.renderRecord e.toRecord = some e) :
    d.render ((d.render records).map Element.toRecord) = d.render records := by
  have again : ∀ e ∈ records.filterMap d.renderRecord,
      (d.renderRecord ∘ Element.toRecord) e = some e := by
    intro e member
    obtain ⟨record, inRecords, rendered⟩ := List.mem_filterMap.1 member
    exact each record inRecords e rendered
  rw [render_eq_filterMap, render_eq_filterMap, List.filterMap_map, List.filterMap_congr again,
    List.filterMap_some]

/-- The record of a rendered element is rendered as the element. -/
theorem renderRecord_toRecord {names : List String} {r : Record} {e : Element}
    (rendered : (ofNames names).renderRecord r = some e) :
    (ofNames names).renderRecord e.toRecord = some e := by
  induction r using Record.nestedInduction generalizing e with
  | record r ih =>
      rw [renderRecord_eq] at rendered
      obtain ⟨name, resolved, rfl⟩ := Option.map_eq_some_iff.1 rendered
      have nestedAgain := render_map_toRecord fun child member e => ih child member (e := e)
      rw [renderRecord_eq, Element.nested_toRecord, nestedAgain]
      exact congrArg (Option.map _) (resolve?_of_resolve? resolved)

/-- A component is known when a given name differs from it in case only, and the last of these names
is its registered one. Rendering keeps exactly the records of which all records around them and they
themselves are of known components, under registered names and nested and ordered as they are. What
is rendered is rendered as it is. -/
theorem render_prunes_unknown (names : List String) (records : List Record) :
    (∀ component,
      (ofNames names).resolve? component = (spelledAlike component names).getLast?) ∧
    (∀ elements : List Element,
      elements.flatMap Element.trails =
          ((records.flatMap Record.trails).filter (ofNames names).knowsAll).map
            (fun trail => trail.map (ofNames names).canonical) ↔
        elements = (ofNames names).render records) ∧
    (ofNames names).render (((ofNames names).render records).map Element.toRecord) =
      (ofNames names).render records := by
  refine ⟨resolve?_eq_getLast? names, fun elements => ?_,
    render_map_toRecord fun record _ e => renderRecord_toRecord⟩
  rw [← trails_render, Element.flatMap_trails_inj]

end Dispatcher

end ComponentGen
