import ComponentGen.Proofs.Composition.Registry
/-!
# Rendering compositions

The dispatcher drops a record whose component it does not know together with all that is nested in
it. A composition of which it knows every component is rendered whole: each record becomes one
element with the styles, the data and the nested elements of the record, and what may change is the
case of the component's name.
-/

namespace ComponentGen

namespace Record

/-- The records nested in a record, if it has any. -/
def nested (r : Record) : List Record :=
  r.children.getD []

/-- The property holds of a record and of all records nested in it, at every depth. -/
inductive Everywhere (property : Record → Prop) : Record → Prop
  | intro {r : Record} (here : property r)
      (below : ∀ child ∈ r.nested, Everywhere property child) : Everywhere property r

theorem Everywhere.mono {property other : Record → Prop} (imp : ∀ r, property r → other r)
    {r : Record} (everywhere : r.Everywhere property) : r.Everywhere other := by
  induction everywhere with
  | intro here _ ih => exact .intro (imp _ here) ih

mutual

/-- The element of a record with all that is nested in it, where every component bears the name
that is given for it. -/
def toElement (nameOf : String → String) : Record → Element
  | ⟨component, styleMap, data, children⟩ =>
    ⟨nameOf component, styleMap, data, nestedToElements nameOf children⟩

/-- The elements of the records nested in a record. -/
def nestedToElements (nameOf : String → String) : Option (List Record) → List Element
  | none => []
  | some records => listToElements nameOf records

/-- The elements of several records, one for each. -/
def listToElements (nameOf : String → String) : List Record → List Element
  | [] => []
  | record :: rest => toElement nameOf record :: listToElements nameOf rest

end

theorem listToElements_eq_map (nameOf : String → String) (records : List Record) :
    listToElements nameOf records = records.map (toElement nameOf) := by
  induction records with
  | nil => rfl
  | cons record rest ih => rw [listToElements, ih, List.map_cons]

theorem toElement_eq (nameOf : String → String) (r : Record) :
    r.toElement nameOf =
      ⟨nameOf r.component, r.styleMap, r.data, r.nested.map (toElement nameOf)⟩ := by
  obtain ⟨component, styleMap, data, children⟩ := r
  rw [toElement]
  cases children with
  | none => rfl
  | some records => rw [nestedToElements, listToElements_eq_map]; rfl

end Record

namespace Dispatcher

theorem renderRecord_eq (d : Dispatcher) (r : Record) :
    d.renderRecord r = (d.resolve? r.component).map fun name =>
      ⟨name, r.styleMap, r.data, d.render r.nested⟩ := by
  obtain ⟨component, styleMap, data, children⟩ := r
  cases children with
  | none => rw [renderRecord, renderNested, Record.nested, Option.getD_none, render]
  | some records => rw [renderRecord, renderNested, Record.nested, Option.getD_some]

/-- Records that are rendered one by one are all there. -/
theorem render_of_renderRecord {d : Dispatcher} {nameOf : String → String} {records : List Record}
    (each : ∀ record ∈ records, d.renderRecord record = some (record.toElement nameOf)) :
    d.render records = records.map (Record.toElement nameOf) := by
  rw [render_eq_filterMap, List.filterMap_congr each, List.filterMap_eq_map']

/-- A record of which every component is known is rendered whole. -/
theorem renderRecord_of_known {d : Dispatcher} {nameOf : String → String} {r : Record}
    (known : r.Everywhere fun other =>
      d.resolve? other.component = some (nameOf other.component)) :
    d.renderRecord r = some (r.toElement nameOf) := by
  induction known with
  | intro here _ ih =>
      rw [renderRecord_eq, here, Option.map_some, render_of_renderRecord ih, Record.toElement_eq]

/-- A composition of which every component is known is rendered whole. -/
theorem render_of_known {d : Dispatcher} {nameOf : String → String} {records : List Record}
    (known : ∀ record ∈ records,
      record.Everywhere fun r => d.resolve? r.component = some (nameOf r.component)) :
    d.render records = records.map (Record.toElement nameOf) :=
  render_of_renderRecord fun record member => renderRecord_of_known (known record member)

/-! ## Given names -/

/-- Each of the given names is registered, under a given name that differs from it in case only. -/
theorem exists_resolve?_of_mem {names : List String} {name : String} (member : name ∈ names) :
    ∃ registered ∈ names, Text.lowerCase registered = Text.lowerCase name ∧
      (ofNames names).resolve? name = some registered := by
  have alike : name ∈ spelledAlike name names := mem_spelledAlike.2 ⟨member, rfl⟩
  cases last : (spelledAlike name names).getLast? with
  | none =>
      rw [List.getLast?_eq_none_iff.1 last] at alike
      cases alike
  | some registered =>
      obtain ⟨given, same⟩ := mem_spelledAlike.1 (List.mem_of_getLast? last)
      exact ⟨registered, given, same, by rw [resolve?_eq_getLast?, last]⟩

/-- A name is registered as it is given when no other name differs from it in case only. -/
theorem resolve?_of_mem_of_nodup {names : List String} {name : String} (member : name ∈ names)
    (distinct : (names.map Text.lowerCase).Nodup) : (ofNames names).resolve? name = some name := by
  obtain ⟨registered, given, same, resolved⟩ := exists_resolve?_of_mem member
  rwa [List.inj_on_of_nodup_map distinct given member same] at resolved

end Dispatcher

end ComponentGen
