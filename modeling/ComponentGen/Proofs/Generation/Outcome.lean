import ComponentGen.Generation
import ComponentGen.Proofs.Induction
import ComponentGen.Proofs.Placeholder.Collisions
/-!
# The outcome of generating

Indexing the placeholders of a component is the only step of generation that can fail. The renderer
story indexes generated components only, so where it would meet a fault, the component of that name
has failed before. What is generated without a fault is the same under every policy.
-/

namespace ComponentGen

/-! ## The records of the renderer story -/

namespace Generated.RendererStory

/-- The context under another policy. -/
def Context.withPolicy (ctx : Context) (policy : CollisionPolicy) : Context :=
  { ctx with policy }

@[simp]
theorem interfaces_withPolicy (ctx : Context) (policy : CollisionPolicy) :
    (ctx.withPolicy policy).interfaces = ctx.interfaces := rfl

@[simp]
theorem generated_withPolicy (ctx : Context) (policy : CollisionPolicy) :
    (ctx.withPolicy policy).generated = ctx.generated := rfl

@[simp]
theorem policy_withPolicy (ctx : Context) (policy : CollisionPolicy) :
    (ctx.withPolicy policy).policy = policy := rfl

@[simp]
theorem acceptsChildren_withPolicy (ctx : Context) (policy : CollisionPolicy) (name : String) :
    acceptsChildren (ctx.withPolicy policy) name = acceptsChildren ctx name := rfl

/-- The placeholders of all generated components can be indexed under the policy. -/
def Context.Faultless (ctx : Context) (policy : CollisionPolicy) : Prop :=
  ∀ name ∈ ctx.generated, (ctx.interfaces.getOrEmpty name).fault? policy = none

variable (ctx : Context)

theorem agreed_bareRecord {name : String} (isGenerated : name ∈ ctx.generated)
    (base merged : Node) :
    Agreed ctx.Faultless fun policy => bareRecord (ctx.withPolicy policy) name base merged := by
  have built : Agreed ctx.Faultless fun policy =>
      PlaceholderIndex.build (ctx.interfaces.getOrEmpty name) policy :=
    ⟨_, fun _ faultless => Interface.build_of_fault?_eq_none (faultless name isGenerated)⟩
  simp only [bareRecord, interfaces_withPolicy, policy_withPolicy]
  exact built.bind fun index => Agreed.pure _

theorem agreed_generatedInChildren {c : Children Node}
    (each : ∀ node ∈ c.toList,
      Agreed ctx.Faultless fun policy => generatedIn (ctx.withPolicy policy) node) :
    Agreed ctx.Faultless fun policy => generatedInChildren (ctx.withPolicy policy) c := by
  simp only [generatedInChildren_eq_mapM]
  exact (Agreed.mapM each).bind fun found => Agreed.pure found.flatten

/-- A record takes in what is generated below it, if its component takes nested content. -/
theorem agreed_nest {α : Type} (use : Record → α) {name : String}
    (isGenerated : name ∈ ctx.generated) (base merged : Node) {c : Children Node}
    (below : Agreed ctx.Faultless fun policy => generatedInChildren (ctx.withPolicy policy) c) :
    Agreed ctx.Faultless fun policy => do
      let record ← bareRecord (ctx.withPolicy policy) name base merged
      let nested ←
        if acceptsChildren (ctx.withPolicy policy) name then
          generatedInChildren (ctx.withPolicy policy) c
        else pure []
      return use (nest record nested) := by
  refine (agreed_bareRecord ctx isGenerated base merged).bind fun record => ?_
  by_cases accepts : acceptsChildren ctx name = true
  · simp only [acceptsChildren_withPolicy, accepts, ↓reduceIte]
    exact below.bind fun nested => Agreed.pure (use (nest record nested))
  · simp only [acceptsChildren_withPolicy, accepts]
    exact Agreed.pure (use (nest record []))

/-- Collecting the records in a tree succeeds under every policy that the generated components can
be indexed under, always with the same records. -/
theorem agreed_generatedIn (n : Node) :
    Agreed ctx.Faultless fun policy => generatedIn (ctx.withPolicy policy) n := by
  induction n using Node.nested with
  | node n ih =>
      have below := agreed_generatedInChildren ctx ih
      simp only [generatedIn_eq, generated_withPolicy]
      by_cases isGenerated : ctx.generated.contains n.type = true
      · simp only [if_pos isGenerated]
        exact agreed_nest ctx (fun record => [record]) (List.contains_iff_mem.1 isGenerated) n n below
      · simp only [if_neg isGenerated]
        exact below

theorem agreed_recordOf {name : String} (isGenerated : name ∈ ctx.generated) (n : Node) :
    Agreed ctx.Faultless fun policy => recordOf (ctx.withPolicy policy) name n :=
  agreed_nest ctx id isGenerated n n.merge
    (agreed_generatedInChildren ctx fun node _ => agreed_generatedIn ctx node)

theorem agreed_recordsOf {components : List (String × Node)}
    (areGenerated : ∀ component ∈ components, component.1 ∈ ctx.generated) :
    Agreed ctx.Faultless fun policy => recordsOf (ctx.withPolicy policy) components :=
  Agreed.mapM fun component member =>
    agreed_recordOf ctx (areGenerated component member) component.2

end Generated.RendererStory

/-! ## Components and projects -/

namespace Generator

variable (g : Generator) (definitions : List Definition)

/-- The generator with the option for strict placeholders set or not. -/
def withStrict (strict : Bool) : Generator :=
  { g with options := { g.options with strictPlaceholders := strict } }

/-- What keeps a component from being generated. -/
def fault? (d : Definition) : Option CollisionError :=
  (g.interfaces.getOrEmpty d.name).fault? g.options.collisionPolicy

/-- The resolved tree of a component. -/
def root (d : Definition) : ResolvedNode :=
  .ofComponent d.node (g.interfaces.getOrEmpty d.name) (g.interfaces.getOrEmpty d.name).index

/-- What is generated for a component, if nothing keeps it from being generated. -/
def emitted (d : Definition) : GeneratedComponent :=
  let i := g.interfaces.getOrEmpty d.name
  let source := Generated.componentSource d.name i (g.root d) g.options
  { source
    story :=
      if g.options.stories then
        some (Generated.Story.text d.name d.node i i.index source.stylesheet.isSome g.options)
      else none }

/-- The project that the components and a renderer story are put together to. -/
def assembled (story : List GeneratedFile) : Project :=
  let components := definitions.map g.emitted
  let sections := components.filterMap sheetSection?
  if definitions.isEmpty then .empty
  else
    ⟨components.flatMap componentFiles ++
      [⟨"style.css", "\n".intercalate sections⟩,
        ⟨"Renderer.tsx", Generated.Renderer.text (components.map (·.source.name)) (!sections.isEmpty)⟩] ++
      story⟩

theorem files_assembled (nonempty : definitions ≠ []) (story : List GeneratedFile) :
    (g.assembled definitions story).files =
      (definitions.map g.emitted).flatMap componentFiles ++
        [⟨"style.css", "\n".intercalate ((definitions.map g.emitted).filterMap sheetSection?)⟩,
          ⟨"Renderer.tsx", Generated.Renderer.text
            ((definitions.map g.emitted).map (·.source.name))
            (!((definitions.map g.emitted).filterMap sheetSection?).isEmpty)⟩] ++
        story := by
  have someDefinition : definitions.isEmpty = false := List.isEmpty_eq_false_iff.2 nonempty
  rw [assembled, someDefinition, if_neg Bool.false_ne_true]

theorem component_eq (d : Definition) : g.component d = outcome (g.fault? d) (g.emitted d) := by
  rw [component, Interface.build_eq, fault?]
  cases (g.interfaces.getOrEmpty d.name).fault? g.options.collisionPolicy <;> rfl

theorem mapM_component :
    definitions.mapM g.component =
      outcome (definitions.findSome? g.fault?) (definitions.map g.emitted) := by
  rw [← mapM_outcome]
  exact congrArg (definitions.mapM ·) (funext g.component_eq)

/-- The renderer story is one file, if any, and meets no fault that generating the components does
not meet. -/
theorem exists_rendererStory :
    ∃ story : List GeneratedFile,
      story.map (·.path) = (if g.options.stories then ["Renderer.stories.tsx"] else []) ∧
      ∀ strict, (∀ d ∈ definitions, (g.withStrict strict).fault? d = none) →
        (g.withStrict strict).rendererStory definitions = .ok story := by
  let ctx : Generated.RendererStory.Context :=
    { interfaces := g.interfaces
      generated := definitions.map (·.name)
      policy := g.options.collisionPolicy }
  have areGenerated : ∀ component ∈ definitions.map fun d => (d.name, d.node),
      component.1 ∈ ctx.generated := by
    intro component member
    obtain ⟨d, isDefinition, rfl⟩ := List.mem_map.1 member
    exact List.mem_map.2 ⟨d, isDefinition, rfl⟩
  obtain ⟨records, given⟩ := Generated.RendererStory.agreed_recordsOf ctx areGenerated
  cases stories : g.options.stories with
  | false =>
      refine ⟨[], rfl, fun strict _ => ?_⟩
      rw [rendererStory, if_neg]
      · rfl
      · exact Bool.eq_false_iff.1 stories
  | true =>
      refine ⟨[⟨"Renderer.stories.tsx", Generated.RendererStory.text records⟩], rfl, ?_⟩
      intro strict faultless
      have recorded := given (g.withStrict strict).options.collisionPolicy fun name isName => by
        obtain ⟨d, isDefinition, rfl⟩ := List.mem_map.1 isName
        exact faultless d isDefinition
      rw [rendererStory, if_pos]
      · exact congrArg (· >>= _) recorded
      · exact stories

/-- Generating ends in the first fault of a component and otherwise gives one and the same project,
whether placeholders are strict or not. -/
theorem exists_generate_eq :
    ∃ story : List GeneratedFile,
      story.map (·.path) = (if g.options.stories then ["Renderer.stories.tsx"] else []) ∧
      ∀ strict, (g.withStrict strict).generate definitions =
        outcome (definitions.findSome? (g.withStrict strict).fault?)
          (g.assembled definitions story) := by
  obtain ⟨story, paths, rendered⟩ := g.exists_rendererStory definitions
  refine ⟨story, paths, fun strict => ?_⟩
  rw [generate, mapM_component]
  cases faults : definitions.findSome? (g.withStrict strict).fault? with
  | some e => rfl
  | none =>
      have faultless := List.findSome?_eq_none_iff.1 faults
      cases definitions with
      | nil => rfl
      | cons first rest =>
          rw [rendered strict faultless]
          rfl

variable {g definitions}

/-- A generated project is put together from the files of the components and a renderer story. -/
theorem exists_eq_assembled {project : Project} (generated : g.generate definitions = .ok project) :
    ∃ story : List GeneratedFile,
      story.map (·.path) = (if g.options.stories then ["Renderer.stories.tsx"] else []) ∧
      project = g.assembled definitions story := by
  obtain ⟨story, paths, outcomes⟩ := g.exists_generate_eq definitions
  have here : g.generate definitions = outcome _ (g.assembled definitions story) :=
    outcomes g.options.strictPlaceholders
  rw [here, outcome_eq_ok_iff] at generated
  exact ⟨story, paths, generated.2.symm⟩

end Generator

end ComponentGen
