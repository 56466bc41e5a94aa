import ComponentGen.Proofs.Naming
import Mathlib
/-!
# Names from file stems

A component name is the stem of its definition file without the separators, with some small letters
made capitals. A name without separators that does not start with a small letter is its own
component name, so nothing changes when a name is taken for a stem again. In lower case an ASCII
stem and its name differ in the separators only, so names collide there if the stems do without
their separators.
-/

namespace ComponentGen.Naming

/-! ## Separators and letters -/

theorem isSeparator_of_isAlphanum {c : Char} (alphanum : c.isAlphanum = true) :
    isSeparator c = false := by
  rw [isSeparator, Bool.or_eq_false_iff, beq_eq_false_iff_ne, beq_eq_false_iff_ne]
  constructor <;> rintro rfl <;> exact absurd alphanum (by decide)

theorem isSeparator_of_isAlpha {c : Char} (letter : c.isAlpha = true) : isSeparator c = false :=
  isSeparator_of_isAlphanum (Bool.or_eq_true_iff.2 (.inl letter))

theorem not_isSeparator (c : Char) : (!isSeparator c) = (c != '-' && c != '_') :=
  Bool.not_or ..

/-- Upper case makes letters of letters and keeps all else. -/
theorem toUpper_eq_self_or_isAlpha (c : Char) :
    c.toUpper = c ∨ (c.isAlpha = true ∧ c.toUpper.isAlpha = true) := by
  by_cases small : c.isLower = true
  · have letter : c.isAlpha = true := Bool.or_eq_true_iff.2 (.inr small)
    exact .inr ⟨letter, (Char.isAlpha_toUpper_eq_isAlpha c).trans letter⟩
  · exact .inl (Char.toUpper_eq_of_not_isLower small)

theorem isSeparator_toUpper (c : Char) : isSeparator c.toUpper = isSeparator c := by
  rcases toUpper_eq_self_or_isAlpha c with same | ⟨letter, capital⟩
  · rw [same]
  · rw [isSeparator_of_isAlpha letter, isSeparator_of_isAlpha capital]

theorem isAlphanum_toUpper (c : Char) : c.toUpper.isAlphanum = c.isAlphanum := by
  rcases toUpper_eq_self_or_isAlpha c with same | ⟨letter, capital⟩
  · rw [same]
  · rw [Char.isAlphanum, Char.isAlphanum, letter, capital]
    rfl

theorem isSeparator_toLower (c : Char) : isSeparator c.toLower = isSeparator c := by
  rw [← isSeparator_toUpper c.toLower, Char.toUpper_toLower_eq_toUpper, isSeparator_toUpper]

/-! ## The characters of a name -/

section Characters

variable {atStart : Bool} {cs : List Char} {c : Char}

theorem isSeparator_of_mem_capitaliseWords (member : c ∈ capitaliseWords atStart cs) :
    isSeparator c = false := by
  obtain ⟨d, -, kept, rfl | rfl⟩ := exists_of_mem_capitaliseWords member
  · exact kept
  · rw [isSeparator_toUpper, kept]

/-- Names of ASCII stems are ASCII text. -/
theorem ascii_capitaliseWords (ascii : ∀ d ∈ cs, d.toNat < 128)
    (member : c ∈ capitaliseWords atStart cs) : c.toNat < 128 := by
  obtain ⟨d, inStem, -, rfl | rfl⟩ := exists_of_mem_capitaliseWords member
  · exact ascii c inStem
  · exact Text.forall_ascii (P := fun d => d.toUpper.toNat < 128) (by decide) (ascii d inStem)

/-- But for the case of its letters, a name is its stem without the separators. -/
theorem map_toLower_capitaliseWords (atStart : Bool) (cs : List Char) :
    (capitaliseWords atStart cs).map Char.toLower =
      (cs.filter fun c => !isSeparator c).map Char.toLower := by
  -- A separator sets the flag and any other character clears it, so the flag stays general.
  induction cs generalizing atStart with
  | nil => rfl
  | cons c rest ih =>
      rw [capitaliseWords]
      split
      · next separator =>
          rw [ih, List.filter_cons, separator]
          rfl
      · next kept =>
          rw [List.map_cons, ih, List.filter_cons, Bool.eq_false_iff.2 kept]
          cases atStart with
          | true => rw [if_pos rfl, Char.toLower_toUpper_eq_toLower]; rfl
          | false => rfl

/-- Without separators only the first character is changed, and only if it is a small letter. -/
theorem capitaliseWords_of_noSeparator (free : ∀ c ∈ cs, isSeparator c = false)
    (big : atStart = true → ∀ c, cs.head? = some c → c.isLower = false) :
    capitaliseWords atStart cs = cs := by
  induction cs generalizing atStart with
  | nil => rfl
  | cons c rest ih =>
      obtain ⟨kept, restFree⟩ := List.forall_mem_cons.1 free
      have restSame : capitaliseWords false rest = rest := ih restFree nofun
      rw [capitaliseWords, if_neg (Bool.eq_false_iff.1 kept), restSame]
      cases atStart with
      | true =>
          rw [if_pos rfl, Char.toUpper_eq_of_not_isLower (Bool.eq_false_iff.1 (big rfl c rfl))]
      | false => rfl

end Characters

/-! ## Names as stems -/

/-- The names that stay what they are when they are taken for stems. -/
theorem componentName_eq_self_iff {name : String} :
    componentName name = name ↔
      (∀ c ∈ name.toList, isSeparator c = false) ∧
        ∀ c, name.toList.head? = some c → c.isLower = false := by
  constructor
  · intro same
    have chars : name.toList = capitaliseWords true name.toList := by
      rw [← toList_componentName, same]
    rw [chars]
    exact ⟨fun c => isSeparator_of_mem_capitaliseWords, fun c => isLower_head_capitaliseWords⟩
  · rintro ⟨free, big⟩
    rw [componentName, capitaliseWords_of_noSeparator free fun _ => big, String.ofList_toList]

theorem isSeparator_of_mem_componentName {stem : String} {c : Char}
    (member : c ∈ (componentName stem).toList) : isSeparator c = false := by
  rw [toList_componentName] at member
  exact isSeparator_of_mem_capitaliseWords member

theorem componentName_componentName (stem : String) :
    componentName (componentName stem) = componentName stem := by
  refine componentName_eq_self_iff.2 ⟨fun c => isSeparator_of_mem_componentName, fun c first => ?_⟩
  rw [toList_componentName] at first
  exact isLower_head_capitaliseWords first

/-! ## Names of ASCII stems -/

/-- In lower case a name is its stem without the separators. -/
theorem lowerCase_componentName {stem : String} (ascii : ∀ c ∈ stem.toList, c.toNat < 128) :
    Text.lowerCase (componentName stem) =
      String.ofList ((Text.lowerCase stem).toList.filter fun c => !isSeparator c) := by
  have nameAscii : ∀ c ∈ (componentName stem).toList, c.toNat < 128 := by
    rw [toList_componentName]
    exact fun c => ascii_capitaliseWords ascii
  apply String.toList_injective
  rw [Text.toList_lowerCase_of_ascii nameAscii, Text.toList_lowerCase_of_ascii ascii,
    String.toList_ofList, toList_componentName, map_toLower_capitaliseWords, List.filter_map]
  simp only [Function.comp_def, isSeparator_toLower]

/-- A capital sigma in front of a separator ends a word, and without the separator it does not. -/
example : Text.lowerCase (componentName "aΣ-b") ≠
    String.ofList ((Text.lowerCase "aΣ-b").toList.filter fun c => !isSeparator c) := by
  decide +kernel

/-- A capital, followed by letters and digits. -/
def IsPascalCase : List Char → Prop
  | [] => False
  | c :: rest => c.isUpper = true ∧ ∀ d ∈ rest, d.isAlphanum = true

instance : (cs : List Char) → Decidable (IsPascalCase cs)
  | [] => isFalse id
  | c :: rest =>
    decidable_of_iff (c.isUpper = true ∧ rest.all Char.isAlphanum = true) <| by
      rw [IsPascalCase, List.all_eq_true]

/-- Words of letters and digits make a name in Pascal case if the first of them starts with a
letter. -/
theorem isPascalCase_capitaliseWords {cs : List Char} {first : Char}
    (kinds : ∀ c ∈ cs, c.isAlphanum = true ∨ isSeparator c = true)
    (starts : (cs.find? fun c => !isSeparator c) = some first) (letter : first.isAlpha = true) :
    IsPascalCase (capitaliseWords true cs) := by
  have alphanum : ∀ c ∈ capitaliseWords true cs, c.isAlphanum = true := by
    intro c member
    obtain ⟨d, inStem, kept, spelled⟩ := exists_of_mem_capitaliseWords member
    have word : d.isAlphanum = true := (kinds d inStem).resolve_right (Bool.eq_false_iff.1 kept)
    rcases spelled with rfl | rfl
    · exact word
    · rw [isAlphanum_toUpper, word]
  have head : (capitaliseWords true cs).head? = some first.toUpper := by
    rw [head?_capitaliseWords, starts, Option.map_some]
  obtain ⟨rest, name⟩ := List.head?_eq_some_iff.1 head
  rw [name] at alphanum ⊢
  exact ⟨(Char.isUpper_toUpper_eq_isAlpha first).trans letter,
    (List.forall_mem_cons.1 alphanum).2⟩

/-- A digit in front stays in front. -/
example : ¬ IsPascalCase (componentName "-2-step").toList := by decide

/-- A component name has no separators and is its own component name. From a stem of ASCII letters,
digits and separators whose first other character is a letter it is a name in Pascal case, which in
lower case is the stem in lower case without its separators. -/
theorem componentName_stable_identifier (stem : String) :
    ('-' ∉ (componentName stem).toList ∧ '_' ∉ (componentName stem).toList) ∧
    componentName (componentName stem) = componentName stem ∧
    ((∀ c ∈ stem.toList, c.isAlphanum = true ∨ c = '-' ∨ c = '_') →
      (∃ c, (stem.toList.find? fun c => c != '-' && c != '_') = some c ∧ c.isAlpha = true) →
      IsPascalCase (componentName stem).toList ∧
        Text.lowerCase (componentName stem) =
          String.ofList ((Text.lowerCase stem).toList.filter fun c => c != '-' && c != '_')) := by
  refine ⟨⟨fun hyphen => ?_, fun underscore => ?_⟩, componentName_componentName stem, ?_⟩
  · exact absurd (isSeparator_of_mem_componentName hyphen) (by decide)
  · exact absurd (isSeparator_of_mem_componentName underscore) (by decide)
  · rintro kinds ⟨first, starts, letter⟩
    have ascii : ∀ c ∈ stem.toList, c.toNat < 128 := by
      intro c member
      rcases kinds c member with alphanum | rfl | rfl
      · exact Text.ascii_of_isAlphanum alphanum
      · decide
      · decide
    simp only [← not_isSeparator] at starts ⊢
    refine ⟨?_, lowerCase_componentName ascii⟩
    rw [toList_componentName]
    refine isPascalCase_capitaliseWords (fun c member => ?_) starts letter
    rw [isSeparator, Bool.or_eq_true, beq_iff_eq, beq_iff_eq]
    exact kinds c member

/-- Separators stand in front, in a row, before a digit and at the end. -/
theorem componentName_stable_identifier_heroSection :
    componentName "_-hero--Section_2-" = "HeroSection2" ∧
      componentName "HeroSection2" = "HeroSection2" ∧
      IsPascalCase "HeroSection2".toList ∧ Text.lowerCase "HeroSection2" = "herosection2" := by
  have name : componentName "_-hero--Section_2-" = "HeroSection2" := by decide
  have chars : "_-hero--Section_2-".toList.all (fun c => c.isAlphanum || c == '-' || c == '_') =
      true := by decide
  have kinds : ∀ c ∈ "_-hero--Section_2-".toList, c.isAlphanum = true ∨ c = '-' ∨ c = '_' := by
    simpa only [List.all_eq_true, Bool.or_eq_true, beq_iff_eq, or_assoc] using chars
  obtain ⟨-, same, identifier⟩ := componentName_stable_identifier "_-hero--Section_2-"
  obtain ⟨pascalCase, lower⟩ := identifier kinds ⟨'h', by decide, by decide⟩
  rw [name] at same pascalCase lower
  exact ⟨name, same, pascalCase, lower.trans (by decide +kernel)⟩

end ComponentGen.Naming
