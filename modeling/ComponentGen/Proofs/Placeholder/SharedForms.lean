import ComponentGen.Proofs.Naming.Spellings
import ComponentGen.Proofs.Placeholder.Collisions
/-!
# Which fields share a spelling

All surface forms of a data field without hyphens have the field as their camel case, so no other
data field has one of them, and since data fields are registered last, each is found under all of
its forms. A style field named in kebab case shares a form with a data field exactly if the kebab
case of the one is the bare name of the other, and no two style fields share a form.
-/

namespace ComponentGen

open Naming

/-! ## Forms and registrations -/

theorem withoutDashes?_dashes (bare : String) : withoutDashes? ("--" ++ bare) = some bare := by
  have chars : ("--" ++ bare).toList = '-' :: '-' :: bare.toList := by
    rw [String.toList_append]
    rfl
  rw [withoutDashes?, chars]
  exact congrArg some String.ofList_toList

theorem mem_styleForms_dashes {bare surface : String} :
    surface ∈ styleForms ("--" ++ bare) ↔
      surface = "--" ++ bare ∨ surface = bare ∨ surface = kebabToCamel bare := by
  rw [styleForms, withoutDashes?_dashes]
  dsimp only
  split
  · next same => simp [same]
  · simp

theorem mem_dataForms {field surface : String} :
    surface ∈ dataForms field ↔
      surface = field ∨ surface = camelToKebab field ∨
        numberedToKebab? field = some surface := by
  simp [dataForms]

namespace Interface

variable {i : Interface}

def styleRegistrations (i : Interface) : List (String × Binding) :=
  i.styleFieldNames.flatMap fun field =>
    (styleForms field).map fun surface => (surface, ⟨.style, field⟩)

def dataRegistrations (i : Interface) : List (String × Binding) :=
  i.dataFieldNames.flatMap fun field =>
    (dataForms field).map fun surface => (surface, ⟨.data, field⟩)

theorem registrations_eq (i : Interface) :
    i.registrations = i.styleRegistrations ++ i.dataRegistrations := rfl

theorem mem_styleRegistrations {surface : String} {b : Binding} :
    (surface, b) ∈ i.styleRegistrations ↔
      ∃ field ∈ i.styleFieldNames, surface ∈ styleForms field ∧ b = ⟨.style, field⟩ := by
  simp [styleRegistrations, eq_comm]

theorem mem_dataRegistrations {surface : String} {b : Binding} :
    (surface, b) ∈ i.dataRegistrations ↔
      ∃ field ∈ i.dataFieldNames, surface ∈ dataForms field ∧ b = ⟨.data, field⟩ := by
  simp [dataRegistrations, eq_comm]

/-- Two registrations in order are of style fields, of data fields, or of one and then the other. -/
theorem mem_of_sublist_registrations {earlier later : String × Binding}
    (inOrder : [earlier, later].Sublist i.registrations) :
    (earlier ∈ i.styleRegistrations ∧ later ∈ i.styleRegistrations) ∨
      (earlier ∈ i.styleRegistrations ∧ later ∈ i.dataRegistrations) ∨
        (earlier ∈ i.dataRegistrations ∧ later ∈ i.dataRegistrations) := by
  obtain ⟨front, back, split, inStyles, inDatas⟩ := List.sublist_append_iff.1 inOrder
  rcases front with _ | ⟨first, _ | ⟨second, rest⟩⟩
  · cases split
    exact .inr (.inr ⟨inDatas.subset (by simp), inDatas.subset (by simp)⟩)
  · cases split
    exact .inr (.inl ⟨inStyles.subset (by simp), inDatas.subset (by simp)⟩)
  · obtain ⟨rfl, rest⟩ := List.cons.inj split
    obtain ⟨rfl, -⟩ := List.cons.inj rest
    exact .inl ⟨inStyles.subset (by simp), inStyles.subset (by simp)⟩

end Interface

/-! ## Data fields -/

/-- All forms of a data field have the field as their camel case. -/
theorem kebabToCamel_of_mem_dataForms {field surface : String} (plain : IsUnhyphenated field)
    (isForm : surface ∈ dataForms field) : kebabToCamel surface = field := by
  rcases mem_dataForms.1 isForm with rfl | rfl | isNumbered
  · exact kebabToCamel_of_noHyphen plain.noHyphen
  · exact kebabToCamel_camelToKebab plain.ascii (mt HyphenBefore.mem plain.noHyphen)
      (mt HyphenBefore.mem plain.noHyphen)
  · exact kebabToCamel_of_numberedToKebab? isNumbered

namespace PlaceholderIndex

theorem resolve?_of_get? {index : PlaceholderIndex} {surface : String} {b : Binding}
    (bound : index.get? surface = some b) :
    index.resolve? surface = some ⟨b.category, b.key, surface, false⟩ := by
  rw [resolve?, bound]

end PlaceholderIndex

namespace Interface

variable {i : Interface}

/-- No two data fields share a form. -/
theorem eq_of_mem_dataRegistrations (datas : ∀ field ∈ i.dataFieldNames, IsUnhyphenated field)
    {surface : String} {first second : Binding} (isFirst : (surface, first) ∈ i.dataRegistrations)
    (isSecond : (surface, second) ∈ i.dataRegistrations) : first = second := by
  obtain ⟨field, declared, isForm, rfl⟩ := mem_dataRegistrations.1 isFirst
  obtain ⟨other, otherDeclared, otherForm, rfl⟩ := mem_dataRegistrations.1 isSecond
  rw [← kebabToCamel_of_mem_dataForms (datas field declared) isForm,
    kebabToCamel_of_mem_dataForms (datas other otherDeclared) otherForm]

/-- A form of a data field stands for that field. -/
theorem get?_of_mem_dataForms (datas : ∀ field ∈ i.dataFieldNames, IsUnhyphenated field)
    {field surface : String} (declared : field ∈ i.dataFieldNames)
    (isForm : surface ∈ dataForms field) : i.index.get? surface = some ⟨.data, field⟩ := by
  have registered : (surface, ⟨.data, field⟩) ∈ i.dataRegistrations :=
    mem_dataRegistrations.2 ⟨field, declared, isForm, rfl⟩
  rw [get?_index, registrations_eq]
  exact lastField?_append_of_mem registered fun _ again =>
    eq_of_mem_dataRegistrations datas again registered

end Interface

namespace PlaceholderIndex

/-- Whatever else is declared, a data field without hyphens is found under its name, its kebab case
and, when it is letters followed by digits, under both with a hyphen in between. -/
theorem data_resolves_from_every_spelling (i : Interface)
    (datas : ∀ field ∈ i.dataFieldNames, IsUnhyphenated field) :
    ∃ index, build i .lastWriteWins = .ok index ∧ ∀ field ∈ i.dataFieldNames,
      index.resolve? field = some ⟨.data, field, field, false⟩ ∧
        index.resolve? (camelToKebab field) = some ⟨.data, field, camelToKebab field, false⟩ ∧
        ∀ letters digits : String,
          (letters ≠ "" ∧ ∀ c ∈ letters.toList, c.isAlpha = true) →
          (digits ≠ "" ∧ ∀ c ∈ digits.toList, c.isDigit = true) →
          field = letters ++ digits →
            index.resolve? (letters ++ "-" ++ digits) =
              some ⟨.data, field, letters ++ "-" ++ digits, false⟩ := by
  refine ⟨i.index, i.build_eq .lastWriteWins, fun field declared => ?_⟩
  have resolves {surface : String} (isForm : surface ∈ dataForms field) :
      i.index.resolve? surface = some ⟨.data, field, surface, false⟩ :=
    resolve?_of_get? (i.get?_of_mem_dataForms datas declared isForm)
  refine ⟨resolves (mem_dataForms.2 (.inl rfl)), resolves (mem_dataForms.2 (.inr (.inl rfl))), ?_⟩
  intro letters digits areLetters areDigits isNumbered
  have parts := splitNumbered?_eq_some_iff.2 ⟨areLetters, areDigits, isNumbered⟩
  refine resolves (mem_dataForms.2 (.inr (.inr ?_)))
  rw [numberedToKebab?, parts, Option.map_some]

/-- An interface of which each style field has a spelling that a data field takes. -/
def steps : Interface :=
  ((((Interface.empty "Steps").withStyleField "--step" "string").withStyleField
    "--Step-1" "string").withDataField "step" "string").withDataField "Step1" "number"

theorem data_resolves_from_every_spelling_steps :
    (∀ field ∈ steps.dataFieldNames, IsUnhyphenated field) ∧ "Step1" ∈ steps.dataFieldNames ∧
      ∃ index, build steps .lastWriteWins = .ok index ∧
        index.resolve? "-step1" = some ⟨.data, "Step1", "-step1", false⟩ ∧
        index.resolve? "Step-1" = some ⟨.data, "Step1", "Step-1", false⟩ := by
  have datas : ∀ field ∈ steps.dataFieldNames, IsUnhyphenated field := by
    have names : steps.dataFieldNames = ["step", "Step1"] := by decide +kernel
    rw [names, List.forall_mem_cons, List.forall_mem_singleton]
    exact ⟨by decide +kernel, by decide +kernel⟩
  have declared : "Step1" ∈ steps.dataFieldNames := by decide +kernel
  obtain ⟨index, built, resolves⟩ := data_resolves_from_every_spelling steps datas
  obtain ⟨-, kebab, numbered⟩ := resolves "Step1" declared
  have spelled : camelToKebab "Step1" = "-step1" := by decide +kernel
  rw [spelled] at kebab
  have areLetters : ∀ c ∈ "Step".toList, c.isAlpha = true :=
    List.all_eq_true.1 (by decide +kernel)
  have areDigits : ∀ c ∈ "1".toList, c.isDigit = true :=
    List.all_eq_true.1 (by decide +kernel)
  exact ⟨datas, declared, index, built, kebab,
    numbered "Step" "1" ⟨by decide, areLetters⟩ ⟨by decide, areDigits⟩ rfl⟩

end PlaceholderIndex

/-! ## Style fields in kebab case -/

namespace Interface

variable {i : Interface}

/-- The kebab case of some data field is the bare name of some style field. -/
def SharesForm (i : Interface) : Prop :=
  ∃ field ∈ i.dataFieldNames, "--" ++ camelToKebab field ∈ i.styleFieldNames

instance : Decidable i.SharesForm :=
  inferInstanceAs (Decidable (∃ field ∈ i.dataFieldNames, _))

/-- Every style field is a name in kebab case behind two hyphens. -/
def StylesInKebabCase (i : Interface) : Prop :=
  ∀ field ∈ i.styleFieldNames, ∃ bare : String, IsKebabCase bare.toList ∧ field = "--" ++ bare

end Interface

/-- A form of a style field is the field itself or has the same camel case as its bare name. -/
theorem eq_or_kebabToCamel_of_mem_styleForms {bare surface : String}
    (isKebab : IsKebabCase bare.toList) (isForm : surface ∈ styleForms ("--" ++ bare)) :
    surface = "--" ++ bare ∨ kebabToCamel surface = kebabToCamel bare := by
  rcases mem_styleForms_dashes.1 isForm with rfl | rfl | rfl
  · exact .inl rfl
  · exact .inr rfl
  · exact .inr (kebabToCamel_of_noHyphen (noHyphen_kebabToCamel isKebab))

/-- Two style fields share no form. -/
theorem eq_of_mem_styleForms {bare other surface : String} (isKebab : IsKebabCase bare.toList)
    (otherKebab : IsKebabCase other.toList) (isForm : surface ∈ styleForms ("--" ++ bare))
    (otherForm : surface ∈ styleForms ("--" ++ other)) : bare = other := by
  -- A name with two hyphens in front keeps one of them in camel case, and a bare name does not.
  have apart {first second : String} (firstKebab : IsKebabCase first.toList)
      (same : kebabToCamel ("--" ++ second) = kebabToCamel first) : False :=
    noHyphen_kebabToCamel firstKebab (same ▸ hyphen_mem_kebabToCamel_dashes second)
  rcases eq_or_kebabToCamel_of_mem_styleForms isKebab isForm with rfl | camel
  · rcases eq_or_kebabToCamel_of_mem_styleForms otherKebab otherForm with same | camel
    · apply String.toList_injective
      have chars := congrArg String.toList same
      rw [String.toList_append, String.toList_append] at chars
      exact List.append_cancel_left chars
    · exact (apart otherKebab camel).elim
  · rcases eq_or_kebabToCamel_of_mem_styleForms otherKebab otherForm with rfl | otherCamel
    · exact (apart isKebab camel).elim
    · rw [← camelToKebab_kebabToCamel_of_isKebabCase isKebab, ← camel, otherCamel,
        camelToKebab_kebabToCamel_of_isKebabCase otherKebab]

/-- A form that a style field and a data field share makes the bare name of the one the kebab case
of the other. -/
theorem camelToKebab_eq_of_mem_forms {bare field surface : String}
    (isKebab : IsKebabCase bare.toList) (plain : IsUnhyphenated field)
    (styleForm : surface ∈ styleForms ("--" ++ bare)) (dataForm : surface ∈ dataForms field) :
    camelToKebab field = bare := by
  have isField := kebabToCamel_of_mem_dataForms plain dataForm
  rcases eq_or_kebabToCamel_of_mem_styleForms isKebab styleForm with rfl | camel
  · exact absurd (isField ▸ hyphen_mem_kebabToCamel_dashes bare) plain.noHyphen
  · rw [← isField, camel, camelToKebab_kebabToCamel_of_isKebabCase isKebab]

namespace Interface

variable {i : Interface}

theorem eq_of_mem_styleRegistrations (styles : i.StylesInKebabCase) {surface : String}
    {first second : Binding} (isFirst : (surface, first) ∈ i.styleRegistrations)
    (isSecond : (surface, second) ∈ i.styleRegistrations) : first = second := by
  obtain ⟨field, declared, isForm, rfl⟩ := mem_styleRegistrations.1 isFirst
  obtain ⟨other, otherDeclared, otherForm, rfl⟩ := mem_styleRegistrations.1 isSecond
  obtain ⟨bare, isKebab, rfl⟩ := styles field declared
  obtain ⟨otherBare, otherKebab, rfl⟩ := styles other otherDeclared
  rw [eq_of_mem_styleForms isKebab otherKebab isForm otherForm]

/-- A form that is registered twice, for different fields, is registered for a style field and then
for a data field of which the style field is the kebab case. -/
theorem exists_of_sublist_registrations (styles : i.StylesInKebabCase)
    (datas : ∀ field ∈ i.dataFieldNames, IsUnhyphenated field) {surface : String}
    {earlier later : Binding}
    (both : [(surface, earlier), (surface, later)].Sublist i.registrations)
    (different : earlier ≠ later) :
    ∃ bare field, "--" ++ bare ∈ i.styleFieldNames ∧ field ∈ i.dataFieldNames ∧
      camelToKebab field = bare ∧ earlier = ⟨.style, "--" ++ bare⟩ ∧ later = ⟨.data, field⟩ := by
  rcases mem_of_sublist_registrations both with
    ⟨inStyles, again⟩ | ⟨inStyles, inDatas⟩ | ⟨inDatas, again⟩
  · exact absurd (eq_of_mem_styleRegistrations styles inStyles again) different
  · obtain ⟨style, styleDeclared, styleForm, rfl⟩ := mem_styleRegistrations.1 inStyles
    obtain ⟨field, dataDeclared, dataForm, rfl⟩ := mem_dataRegistrations.1 inDatas
    obtain ⟨bare, isKebab, rfl⟩ := styles style styleDeclared
    exact ⟨bare, field, styleDeclared, dataDeclared,
      camelToKebab_eq_of_mem_forms isKebab (datas field dataDeclared) styleForm dataForm, rfl, rfl⟩
  · exact absurd (eq_of_mem_dataRegistrations datas inDatas again) different

/-- A collision is between a style field and a data field of which it is the kebab case. -/
theorem exists_of_mem_collisions (styles : i.StylesInKebabCase)
    (datas : ∀ field ∈ i.dataFieldNames, IsUnhyphenated field) {collision : Collision}
    (logged : collision ∈ i.index.collisions) :
    ∃ bare field, "--" ++ bare ∈ i.styleFieldNames ∧ field ∈ i.dataFieldNames ∧
      camelToKebab field = bare ∧ collision.previous = ⟨.style, "--" ++ bare⟩ ∧
      collision.current = ⟨.data, field⟩ := by
  rw [index_eq] at logged
  obtain ⟨both, different⟩ := sublist_of_mem_collisionLog logged
  exact exists_of_sublist_registrations styles datas both different

/-- Without collisions, a form of a style field stands for that field. -/
theorem get?_of_mem_styleForms (silent : i.index.collisions = []) {field surface : String}
    (declared : field ∈ i.styleFieldNames) (isForm : surface ∈ styleForms field) :
    i.index.get? surface = some ⟨.style, field⟩ := by
  have registered : (surface, ⟨.style, field⟩) ∈ i.registrations :=
    List.mem_append_left _ (mem_styleRegistrations.2 ⟨field, declared, isForm, rfl⟩)
  rw [index_eq] at silent
  rw [get?_index, lastField?_of_collisionLog_eq_nil silent registered]

/-- The kebab case that both fields have is registered for the one and then for the other. -/
theorem SharesForm.collisions_ne_nil (shares : i.SharesForm) : i.index.collisions ≠ [] := by
  obtain ⟨field, dataDeclared, styleDeclared⟩ := shares
  have inStyles : (camelToKebab field, ⟨.style, "--" ++ camelToKebab field⟩) ∈
      i.styleRegistrations :=
    mem_styleRegistrations.2 ⟨_, styleDeclared, mem_styleForms_dashes.2 (.inr (.inl rfl)), rfl⟩
  have inDatas : (camelToKebab field, ⟨.data, field⟩) ∈ i.dataRegistrations :=
    mem_dataRegistrations.2 ⟨field, dataDeclared, mem_dataForms.2 (.inr (.inl rfl)), rfl⟩
  have both := (List.singleton_sublist.2 inStyles).append (List.singleton_sublist.2 inDatas)
  obtain ⟨collision, logged, -⟩ := exists_mem_collisionLog both (by simp)
  rw [index_eq]
  exact List.ne_nil_of_mem logged

end Interface

namespace PlaceholderIndex

/-- Where style fields are named in kebab case and data fields without hyphens, a collision is
between a style field and a data field of one kebab case, and if there are such two, there is a
collision. Without one, each style field is found under its name, its bare name and the camel case
of that. -/
theorem collisions_iff_sharesForm (i : Interface) (styles : i.StylesInKebabCase)
    (datas : ∀ field ∈ i.dataFieldNames, IsUnhyphenated field) :
    ∃ index, build i .lastWriteWins = .ok index ∧
      (index.collisions ≠ [] ↔ i.SharesForm) ∧
      ((∃ error, build i .strict = .error error) ↔ i.SharesForm) ∧
      (∀ collision ∈ index.collisions, ∃ bare field,
        "--" ++ bare ∈ i.styleFieldNames ∧ field ∈ i.dataFieldNames ∧
          camelToKebab field = bare ∧ collision.previous = ⟨.style, "--" ++ bare⟩ ∧
          collision.current = ⟨.data, field⟩) ∧
      (¬ i.SharesForm → build i .strict = .ok index ∧
        ∀ bare, "--" ++ bare ∈ i.styleFieldNames →
          ∀ surface ∈ ["--" ++ bare, bare, kebabToCamel bare],
            index.resolve? surface = some ⟨.style, "--" ++ bare, surface, false⟩) := by
  have collides : i.index.collisions ≠ [] ↔ i.SharesForm := by
    refine ⟨fun some => ?_, Interface.SharesForm.collisions_ne_nil⟩
    obtain ⟨collision, logged⟩ := List.exists_mem_of_ne_nil _ some
    obtain ⟨bare, field, styleDeclared, dataDeclared, rfl, -⟩ :=
      Interface.exists_of_mem_collisions styles datas logged
    exact ⟨field, dataDeclared, styleDeclared⟩
  refine ⟨i.index, i.build_eq .lastWriteWins, collides,
    Interface.exists_build_strict_eq_error_iff.trans collides,
    fun _ logged => Interface.exists_of_mem_collisions styles datas logged, ?_⟩
  intro apart
  have silent : i.index.collisions = [] := by
    by_contra some
    exact apart (collides.1 some)
  refine ⟨Interface.build_of_fault?_eq_none (Interface.fault?_strict_eq_none_iff.2 silent), ?_⟩
  intro bare declared surface isSpelling
  have isForm : surface ∈ styleForms ("--" ++ bare) := by
    rw [mem_styleForms_dashes]
    simpa using isSpelling
  exact resolve?_of_get? (Interface.get?_of_mem_styleForms silent declared isForm)

/-- An interface with one style field and one data field. -/
def gapCard (field : String) : Interface :=
  ((Interface.empty "Card").withStyleField "--item-gap" "string").withDataField field "string"

theorem stylesInKebabCase_gapCard (field : String) : (gapCard field).StylesInKebabCase := by
  have chars : "item-gap".toList = ['i', 't', 'e', 'm'] ++ '-' :: ['g', 'a', 'p'] := by
    decide +kernel
  intro style declared
  refine ⟨"item-gap", ?_, List.mem_singleton.1 declared⟩
  rw [chars]
  exact .join (by decide) (.segment (by decide))

theorem collisions_iff_sharesForm_gapCard :
    (¬ (gapCard "itemGap2").SharesForm ∧
        ∃ index, build (gapCard "itemGap2") .strict = .ok index ∧
          index.resolve? "itemGap" = some ⟨.style, "--item-gap", "itemGap", false⟩) ∧
      (gapCard "itemGap").SharesForm ∧
        ∃ error, build (gapCard "itemGap") .strict = .error error := by
  have unhyphenated {field : String} (plain : IsUnhyphenated field) :
      ∀ name ∈ (gapCard field).dataFieldNames, IsUnhyphenated name := by
    intro name declared
    rwa [List.mem_singleton.1 declared]
  have apart : ¬ (gapCard "itemGap2").SharesForm := by decide +kernel
  have shares : (gapCard "itemGap").SharesForm := by decide +kernel
  have camel : kebabToCamel "item-gap" = "itemGap" := by decide +kernel
  obtain ⟨index, -, -, -, -, resolves⟩ :=
    collisions_iff_sharesForm (gapCard "itemGap2") (stylesInKebabCase_gapCard _)
      (unhyphenated (by decide +kernel))
  obtain ⟨-, -, -, fails, -⟩ :=
    collisions_iff_sharesForm (gapCard "itemGap") (stylesInKebabCase_gapCard _)
      (unhyphenated (by decide +kernel))
  obtain ⟨built, found⟩ := resolves apart
  have declared : "--" ++ "item-gap" ∈ (gapCard "itemGap2").styleFieldNames := by decide +kernel
  refine ⟨⟨apart, index, built, ?_⟩, shares, fails.2 shares⟩
  exact found "item-gap" declared "itemGap" (by simp [camel])

end PlaceholderIndex

end ComponentGen
