import ComponentGen.Generated.RendererStory
import ComponentGen.Proofs.Component.Samples
import ComponentGen.Proofs.Composition.Rendering
import ComponentGen.Proofs.Induction
import ComponentGen.Proofs.Outcome
/-!
# The records of the renderer story

The story of the renderer module shows one record for each generated component. Such a record is
made from the samples of the declared fields, and nests the generated components that are met in the
merged tree. So the story holds nothing that the renderer module would drop, and nothing that a
component has not declared.
-/

namespace ComponentGen.Generated.RendererStory

/-- The keys of a block of a record are among the declared names and in their order, and a block
that is there has a key. -/
def DeclaredKeys (names : List String) (block : Option (OrderedMap Json)) : Prop :=
  ∀ values ∈ block, values.keys ≠ [] ∧ values.keys.Sublist names

/-- A record holds what the interface of its component declares: its component is generated, its
blocks have declared keys, and it nests records only where the component takes nested content. -/
structure HoldsDeclared (ctx : Context) (r : Record) : Prop where
  generated : r.component ∈ ctx.generated
  styleMap : DeclaredKeys (ctx.interfaces.getOrEmpty r.component).styleFieldNames r.styleMap
  data : DeclaredKeys (ctx.interfaces.getOrEmpty r.component).dataFieldNames r.data
  children : ∀ records ∈ r.children, records ≠ [] ∧ acceptsChildren ctx r.component = true

/-! ## Samples -/

theorem declaredKeys_sampleMap? {names : List String} (distinct : names.Nodup)
    (samples : OrderedMap Json) : DeclaredKeys names (sampleMap? names samples) := by
  intro values present
  have inOrder := Samples.sublist_declared names samples
  have entries := OrderedMap.entries_ofList (inOrder.nodup distinct)
  rw [sampleMap?] at present
  split at present
  · cases present
  · next notEmpty =>
      cases present
      rw [OrderedMap.isEmpty, List.isEmpty_iff] at notEmpty
      rw [OrderedMap.keys]
      refine ⟨fun none => notEmpty (List.map_eq_nil_iff.1 none), ?_⟩
      rwa [entries]

/-! ## One record -/

variable {ctx : Context} {name : String}

theorem holdsDeclared_of_bareRecord {base merged : Node} {record : Record}
    (generated : name ∈ ctx.generated) (made : bareRecord ctx name base merged = .ok record) :
    record.component = name ∧ record.children = none ∧ HoldsDeclared ctx record := by
  obtain ⟨index, -, filled⟩ := exists_of_bind_eq_ok made
  cases filled
  refine ⟨rfl, rfl, generated, ?_, ?_, fun records present => nomatch present⟩
  · exact declaredKeys_sampleMap? (OrderedMap.nodup_keys _) _
  · exact declaredKeys_sampleMap? (OrderedMap.nodup_keys _) _

/-- Nesting keeps the component, and of a record that holds what is declared it makes one that does
so at every depth. -/
theorem everywhere_nest {record : Record} {nested : List Record}
    (bare : record.children = none) (holds : HoldsDeclared ctx record)
    (accepts : nested = [] ∨ acceptsChildren ctx record.component = true)
    (below : ∀ child ∈ nested, child.Everywhere (HoldsDeclared ctx)) :
    (nest record nested).component = record.component ∧
      (nest record nested).Everywhere (HoldsDeclared ctx) := by
  rw [nest]
  split
  · refine ⟨rfl, .intro holds fun child member => ?_⟩
    rw [Record.nested, bare] at member
    cases member
  · next notEmpty =>
      rw [List.isEmpty_iff] at notEmpty
      refine ⟨rfl, .intro ⟨holds.generated, holds.styleMap, holds.data, ?_⟩ below⟩
      intro records present
      cases present
      exact ⟨notEmpty, accepts.resolve_left notEmpty⟩

/-- The record of a component, and in it what was found if the component takes nested content. When
all that was found holds what is declared, so does the record. -/
theorem exists_everywhere_of_nest {α : Type} (finish : Record → α) {base merged : Node}
    {found : Except CollisionError (List Record)} {result : α} (generated : name ∈ ctx.generated)
    (below : ∀ nested, found = .ok nested →
      ∀ child ∈ nested, child.Everywhere (HoldsDeclared ctx))
    (made : (do
      let record ← bareRecord ctx name base merged
      let nested ← if acceptsChildren ctx name then found else pure []
      return finish (nest record nested)) = .ok result) :
    ∃ record, result = finish record ∧ record.component = name ∧
      record.Everywhere (HoldsDeclared ctx) := by
  obtain ⟨bare, isBare, rest⟩ := exists_of_bind_eq_ok made
  obtain ⟨rfl, noChildren, holds⟩ := holdsDeclared_of_bareRecord generated isBare
  dsimp only at rest
  split at rest
  · next accepts =>
      obtain ⟨nested, isFound, isResult⟩ := exists_of_bind_eq_ok rest
      cases isResult
      exact ⟨_, rfl, everywhere_nest noChildren holds (.inr accepts) (below nested isFound)⟩
  · cases rest
    exact ⟨_, rfl, everywhere_nest noChildren holds (.inl rfl) fun _ member => nomatch member⟩

/-! ## Nested records -/

/-- What holds of all that is found in each child holds of all that is found. -/
theorem forall_of_generatedInChildren {property : Record → Prop} {c : Children Node}
    {found : List Record}
    (each : ∀ node ∈ c.toList, ∀ own, generatedIn ctx node = .ok own →
      ∀ record ∈ own, property record)
    (made : generatedInChildren ctx c = .ok found) : ∀ record ∈ found, property record := by
  rw [generatedInChildren_eq_mapM] at made
  obtain ⟨lists, areLists, joined⟩ := exists_of_bind_eq_ok made
  cases joined
  intro record member
  obtain ⟨own, isOwn, inOwn⟩ := List.mem_flatten.1 member
  obtain ⟨node, inChildren, isFound⟩ := exists_of_mem_mapM areLists isOwn
  exact each node inChildren own isFound record inOwn

/-- The records found in a tree hold what is declared, at every depth. What is found below the root
is nested in the record of the root, or stands in its place. -/
theorem everywhere_of_generatedIn {n : Node} {found : List Record}
    (made : generatedIn ctx n = .ok found) :
    ∀ record ∈ found, record.Everywhere (HoldsDeclared ctx) := by
  induction n using Node.nested generalizing found with
  | node n ih =>
      have below : ∀ nested, generatedInChildren ctx n.children = .ok nested →
          ∀ child ∈ nested, child.Everywhere (HoldsDeclared ctx) := fun _ areNested =>
        forall_of_generatedInChildren (fun node inChildren _ isOwn => ih node inChildren isOwn)
          areNested
      rw [generatedIn_eq] at made
      split at made
      · next contained =>
          obtain ⟨record, rfl, -, everywhere⟩ := exists_everywhere_of_nest (fun record => [record])
            (List.contains_iff_mem.1 contained) below made
          intro other member
          rwa [List.mem_singleton.1 member]
      · exact below found made

/-! ## The composition -/

theorem everywhere_of_recordOf {n : Node} {record : Record} (generated : name ∈ ctx.generated)
    (made : recordOf ctx name n = .ok record) :
    record.component = name ∧ record.Everywhere (HoldsDeclared ctx) := by
  have below : ∀ nested, generatedInChildren ctx n.merge.children = .ok nested →
      ∀ child ∈ nested, child.Everywhere (HoldsDeclared ctx) := fun _ areNested =>
    forall_of_generatedInChildren (fun _ _ _ isOwn => everywhere_of_generatedIn isOwn) areNested
  obtain ⟨_, rfl, holds⟩ := exists_everywhere_of_nest id generated below made
  exact holds

theorem everywhere_of_recordsOf {components : List (String × Node)} {records : List Record}
    (generated : ∀ component ∈ components, component.1 ∈ ctx.generated)
    (made : recordsOf ctx components = .ok records) :
    records.map (·.component) = components.map Prod.fst ∧
      ∀ record ∈ records, record.Everywhere (HoldsDeclared ctx) := by
  induction components generalizing records with
  | nil =>
      cases made
      exact ⟨rfl, fun _ member => nomatch member⟩
  | cons component rest ih =>
      obtain ⟨first, isFirst, later⟩ := exists_of_bind_eq_ok (List.mapM_cons.symm.trans made)
      obtain ⟨others, areOthers, both⟩ := exists_of_bind_eq_ok later
      cases both
      obtain ⟨firstName, firstHolds⟩ :=
        everywhere_of_recordOf (generated component List.mem_cons_self) isFirst
      obtain ⟨otherNames, othersHold⟩ :=
        ih (fun other member => generated other (List.mem_cons_of_mem component member)) areOthers
      refine ⟨?_, List.forall_mem_cons.2 ⟨firstHolds, othersHold⟩⟩
      rw [List.map_cons, List.map_cons, firstName, otherNames]

/-- The records that the story of the renderer shows, one for each generated component: each of
them and each record nested in it holds what its component declares, and the dispatcher over the
generated components renders them all. -/
theorem records_rendered_whole {ctx : Context} {components : List (String × Node)}
    {records : List Record} (generated : ctx.generated = components.map Prod.fst)
    (made : recordsOf ctx components = .ok records) :
    records.map (·.component) = ctx.generated ∧
    (∀ record ∈ records, record.Everywhere (HoldsDeclared ctx)) ∧
    (∃ nameOf : String → String,
      (∀ name ∈ ctx.generated, nameOf name ∈ ctx.generated ∧
        Text.lowerCase (nameOf name) = Text.lowerCase name) ∧
      (Dispatcher.ofNames ctx.generated).render records = records.map (Record.toElement nameOf)) ∧
    ((ctx.generated.map Text.lowerCase).Nodup →
      (Dispatcher.ofNames ctx.generated).render records = records.map (Record.toElement id)) := by
  have named (component : String × Node) (member : component ∈ components) :
      component.1 ∈ ctx.generated := generated ▸ List.mem_map_of_mem member
  obtain ⟨names, holds⟩ := everywhere_of_recordsOf named made
  refine ⟨names.trans generated.symm, holds, ?_, ?_⟩
  · refine ⟨fun name => ((Dispatcher.ofNames ctx.generated).resolve? name).getD name, ?_, ?_⟩
    · intro name member
      obtain ⟨registered, given, same, resolved⟩ := Dispatcher.exists_resolve?_of_mem member
      dsimp only
      rw [resolved, Option.getD_some]
      exact ⟨given, same⟩
    · refine Dispatcher.render_of_known fun record member => (holds record member).mono ?_
      intro r declared
      obtain ⟨registered, -, -, resolved⟩ := Dispatcher.exists_resolve?_of_mem declared.generated
      rw [resolved, Option.getD_some]
  · intro distinct
    refine Dispatcher.render_of_known fun record member => (holds record member).mono ?_
    intro r declared
    exact Dispatcher.resolve?_of_mem_of_nodup declared.generated distinct

/-- A page that takes nested content and, in its preview, holds a box with a hero in it. -/
def heroPage : List (String × Node) :=
  [("Page", {
      type := "Stack"
      sample := .present none none (.list [{
        type := "Box"
        children := .single {
          type := "Hero"
          data := .ofList [("text", .string "title")] } }]) }),
   ("Hero", {
      type := "Text"
      data := .ofList [("text", .string "title")]
      sample := .present none (some (.ofList [("text", .string "Hello")])) .absent })]

/-- The interfaces of the page and of the hero. -/
def heroPageContext : Context where
  interfaces := .ofList [
    { name := "Page", acceptsChildren := true },
    { name := "Hero", dataFields := some (.ofList [("title", "string")]) }]
  generated := ["Page", "Hero"]
  policy := .strict

/-- The hero inside the page has no sample, so its placeholder is shown. -/
def heroPageRecords : List Record :=
  [{ component := "Page"
     children := some [
       { component := "Hero", data := some (.ofList [("title", .string "title")]) }] },
   { component := "Hero", data := some (.ofList [("title", .string "Hello")]) }]

theorem records_rendered_whole_heroPage :
    recordsOf heroPageContext heroPage = .ok heroPageRecords ∧
    (∀ record ∈ heroPageRecords, record.Everywhere (HoldsDeclared heroPageContext)) ∧
    (Dispatcher.ofNames heroPageContext.generated).render heroPageRecords =
      heroPageRecords.map (Record.toElement id) := by
  have generated : heroPageContext.generated = heroPage.map Prod.fst := rfl
  have made : recordsOf heroPageContext heroPage = .ok heroPageRecords := rfl
  have distinct : (heroPageContext.generated.map Text.lowerCase).Nodup := by decide +kernel
  obtain ⟨-, holds, -, whole⟩ := records_rendered_whole generated made
  exact ⟨made, holds, whole distinct⟩

end ComponentGen.Generated.RendererStory
