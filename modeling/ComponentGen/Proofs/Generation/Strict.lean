import ComponentGen.Proofs.Generation.Outcome
/-!
# Checking and strict generation

A check reports the collisions in the index of every component and never fails. Strict generation
fails on the first component with one; where the check reports none, it generates the same project
as without the option.
-/

namespace ComponentGen.Generator

variable (g : Generator)

/-- What a check finds for a component. -/
def found (d : Definition) : Report where
  name := d.name
  declared := g.interfaces.contains d.name
  references := (g.root d).references.length
  collisions := (g.interfaces.getOrEmpty d.name).index.collisions

theorem report_eq (d : Definition) : g.report d = .ok (g.found d) := by
  have built := Interface.build_eq (g.interfaces.getOrEmpty d.name) .lastWriteWins
  rw [report, built]
  rfl

/-- A check never fails. -/
theorem check_eq (definitions : List Definition) :
    g.check definitions = .ok (definitions.map g.found) := by
  have reports : g.report = fun d => .ok (g.found d) := funext g.report_eq
  rw [check, reports]
  exact List.mapM_pure

variable {g}

/-- A strict fault is one of the collisions that the check reports for the component. -/
theorem mem_collisions_of_fault? {d : Definition} {e : CollisionError}
    (fault : (g.withStrict true).fault? d = some e) :
    (g.found d).name = e.component ∧ e.collision ∈ (g.found d).collisions := by
  obtain ⟨component, collision⟩ := Interface.mem_collisions_of_fault? fault
  exact ⟨(component.trans (g.interfaces.name_getOrEmpty d.name)).symm, collision⟩

theorem fault?_withStrict_eq_none_iff {d : Definition} :
    (g.withStrict true).fault? d = none ↔ (g.found d).collisions = [] :=
  Interface.fault?_strict_eq_none_iff

variable (g)

/-- A check predicts strict generation: both go along on whether there is a fault, the error is a
reported collision, and without one the option makes no difference. Without the option nothing
fails. -/
theorem check_predicts_strict (definitions : List Definition) :
    ∃ reports project,
      (∀ strict, (g.withStrict strict).check definitions = .ok reports) ∧
      reports.map (·.name) = definitions.map (·.name) ∧
      (g.withStrict false).generate definitions = .ok project ∧
      ((∃ e, (g.withStrict true).generate definitions = .error e) ↔
        ∃ report ∈ reports, report.collisions ≠ []) ∧
      (∀ e, (g.withStrict true).generate definitions = .error e →
        ∃ report ∈ reports, report.name = e.component ∧ e.collision ∈ report.collisions) ∧
      ((∀ report ∈ reports, report.collisions = []) →
        (g.withStrict true).generate definitions = .ok project) := by
  obtain ⟨story, -, generated⟩ := g.exists_generate_eq definitions
  have lenient : (definitions.findSome? (g.withStrict false).fault?) = none :=
    List.findSome?_eq_none_iff.2 fun _ _ => rfl
  have strict_error {e : CollisionError}
      (failed : (g.withStrict true).generate definitions = .error e) :
      ∃ report ∈ definitions.map g.found, report.name = e.component ∧
        e.collision ∈ report.collisions := by
    rw [generated, outcome_eq_error_iff] at failed
    obtain ⟨d, isDefinition, fault⟩ := List.exists_of_findSome?_eq_some failed
    exact ⟨g.found d, List.mem_map_of_mem isDefinition, mem_collisions_of_fault? fault⟩
  have strict_ok (clean : ∀ report ∈ definitions.map g.found, report.collisions = []) :
      (g.withStrict true).generate definitions = .ok (g.assembled definitions story) := by
    have faultless : definitions.findSome? (g.withStrict true).fault? = none :=
      List.findSome?_eq_none_iff.2 fun d isDefinition =>
        fault?_withStrict_eq_none_iff.2 (clean _ (List.mem_map_of_mem isDefinition))
    rw [generated, faultless, outcome_none]
  refine ⟨definitions.map g.found, g.assembled definitions story,
    fun strict => (g.withStrict strict).check_eq definitions, ?_, ?_, ⟨?_, ?_⟩,
    fun e => strict_error, strict_ok⟩
  · rw [List.map_map]
    rfl
  · rw [generated, lenient, outcome_none]
  · rintro ⟨e, failed⟩
    obtain ⟨report, isReport, -, collision⟩ := strict_error failed
    exact ⟨report, isReport, List.ne_nil_of_mem collision⟩
  · rintro ⟨report, isReport, collided⟩
    obtain ⟨d, isDefinition, rfl⟩ := List.mem_map.1 isReport
    cases faults : definitions.findSome? (g.withStrict true).fault? with
    | none =>
        have faultless := List.findSome?_eq_none_iff.1 faults d isDefinition
        exact absurd (fault?_withStrict_eq_none_iff.1 faultless) collided
    | some e => exact ⟨e, by rw [generated, faults, outcome_some]⟩

/-- A badge whose data field is spelled like its style field. -/
def badgeGenerator : Generator where
  options := { stories := false }
  interfaces := .ofList
    [((Interface.empty "Badge").withStyleField "--badge-color" "string").withDataField
      "badgeColor" "string"]

/-- A badge behind a component without an interface. -/
def badgeDefinitions : List Definition :=
  [.ofNode "Label" { type := "Text" }, .ofNode "Badge" { type := "Text" }]

theorem check_predicts_strict_badge :
    ∃ e, (badgeGenerator.withStrict true).generate badgeDefinitions = .error e ∧
      e.component ∈ badgeDefinitions.map (·.name) := by
  obtain ⟨reports, project, checked, names, -, fails, error, -⟩ :=
    badgeGenerator.check_predicts_strict badgeDefinitions
  obtain rfl := Except.ok.inj ((checked false).symm.trans (badgeGenerator.check_eq _))
  have collided : (badgeGenerator.found (.ofNode "Badge" { type := "Text" })).collisions ≠ [] := by
    decide +kernel
  obtain ⟨e, failed⟩ := fails.2 ⟨_, List.mem_cons_of_mem _ List.mem_cons_self, collided⟩
  obtain ⟨report, isReport, isComponent, -⟩ := error e failed
  refine ⟨e, failed, ?_⟩
  rw [← names, ← isComponent]
  exact List.mem_map_of_mem isReport

end ComponentGen.Generator
