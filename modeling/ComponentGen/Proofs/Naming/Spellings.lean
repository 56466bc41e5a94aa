import ComponentGen.Proofs.Naming.Hyphens
import Mathlib.Data.List.TakeWhile
/-!
# Spellings of a name

Camel case is the form that the spellings of a name have in common. A name without hyphens is read
back from its kebab case and from its numbered spelling, and a name in kebab case is read back from
its camel case. So spellings of different names are different.
-/

namespace ComponentGen.Naming

/-! ## Letters of both cases -/

theorem small_of_isUpper {c : Char} (upper : c.isUpper = true) :
    c.toLower.isLower = true ∧ c.toLower.toUpper = c :=
  Text.forall_ascii
    (P := fun c => c.isUpper = true → c.toLower.isLower = true ∧ c.toLower.toUpper = c)
    (by decide) (Text.ascii_of_isUpper upper) upper

theorem toLower_of_not_isUpper {c : Char} (other : c.isUpper = false) : c.toLower = c := by
  delta Char.toLower
  rw [dif_neg]
  exact of_decide_eq_false other

theorem not_digit_of_isLower {c : Char} (lower : c.isLower = true) :
    c.isDigit = false ∧ c ≠ '-' :=
  forall_isLower (P := fun c => c.isDigit = false ∧ c ≠ '-') (by decide) lower

theorem not_letter_of_isDigit {c : Char} (digit : c.isDigit = true) :
    c.isAlpha = false ∧ c.isLower = false ∧ c.isUpper = false ∧ c ≠ '-' :=
  Text.forall_ascii
    (P := fun c => c.isDigit = true →
      c.isAlpha = false ∧ c.isLower = false ∧ c.isUpper = false ∧ c ≠ '-')
    (by decide) (Text.ascii_of_isDigit digit) digit

theorem ne_hyphen_of_isAlpha {c : Char} (letter : c.isAlpha = true) : c ≠ '-' := by
  rintro rfl
  exact absurd letter (by decide)

/-! ## Hyphens that stay and hyphens that go -/

variable {joins kind : Char → Bool} {change : Char → Char}

theorem joinHyphens_of_not_mem {cs : List Char} (free : '-' ∉ cs) :
    joinHyphens joins change cs = cs :=
  joinHyphens_of_not_hyphenBefore (mt HyphenBefore.mem free)

/-- A character stays, unless it is a hyphen that joins what follows. -/
theorem joinHyphens_cons {c : Char} {rest : List Char}
    (stays : c = '-' → ∀ d, rest.head? = some d → joins d = false) :
    joinHyphens joins change (c :: rest) = c :: joinHyphens joins change rest := by
  by_cases isHyphen : c = '-'
  · subst isHyphen
    cases rest with
    | nil => rfl
    | cons d more => rw [joinHyphens, if_neg (Bool.eq_false_iff.1 (stays rfl d rfl))]
  · rw [joinHyphens]
    rintro d more rfl
    exact absurd rfl isHyphen

theorem joinHyphens_append {front : List Char} (free : '-' ∉ front) (rest : List Char) :
    joinHyphens joins change (front ++ rest) = front ++ joinHyphens joins change rest := by
  induction front with
  | nil => rfl
  | cons c front ih =>
      rw [List.mem_cons, not_or] at free
      rw [List.cons_append, joinHyphens_cons fun isHyphen => absurd isHyphen.symm free.1,
        ih free.2, List.cons_append]

/-- Capitalising joined letters leaves a hyphen in front of a digit. -/
theorem hyphenBefore_digit_joinHyphens {cs : List Char} (before : HyphenBefore Char.isDigit cs) :
    HyphenBefore Char.isDigit (joinHyphens Char.isLower Char.toUpper cs) := by
  fun_induction joinHyphens Char.isLower Char.toUpper cs with
  | case1 => exact before
  | case2 c rest isJoined ih =>
      obtain ⟨notDigit, notHyphen⟩ := not_digit_of_isLower isJoined
      rcases HyphenBefore.cons_iff.1 before with ⟨-, d, first, digit⟩ | later
      · cases first
        exact absurd digit (Bool.eq_false_iff.1 notDigit)
      · rcases HyphenBefore.cons_iff.1 later with ⟨isHyphen, -⟩ | later
        · exact absurd isHyphen notHyphen
        · exact (ih later).cons
  | case3 c rest notJoined ih =>
      rcases HyphenBefore.cons_iff.1 before with ⟨-, d, first, digit⟩ | later
      · cases first
        rw [joinHyphens_cons fun isHyphen => absurd isHyphen (not_letter_of_isDigit digit).2.2.2]
        exact .head digit
      · exact (ih later).cons
  | case4 c rest notPair ih =>
      rcases HyphenBefore.cons_iff.1 before with ⟨isHyphen, d, first, -⟩ | later
      · obtain ⟨more, rfl⟩ := List.head?_eq_some_iff.1 first
        exact absurd rfl (notPair d more isHyphen)
      · exact (ih later).cons

/-! ## Names without hyphens -/

/-- The name is ASCII text without hyphens. -/
structure IsUnhyphenated (name : String) : Prop where
  ascii : ∀ c ∈ name.toList, c.toNat < 128
  noHyphen : '-' ∉ name.toList

instance (name : String) : Decidable (IsUnhyphenated name) :=
  decidable_of_iff (name.toList.all (fun c => c.toNat < 128) = true ∧ '-' ∉ name.toList) <| by
    rw [List.all_eq_true]
    exact ⟨fun ⟨ascii, free⟩ => ⟨fun c member => of_decide_eq_true (ascii c member), free⟩,
      fun plain => ⟨fun c member => decide_eq_true (plain.ascii c member), plain.noHyphen⟩⟩

theorem kebabToCamel_of_noHyphen {name : String} (free : '-' ∉ name.toList) :
    kebabToCamel name = name := by
  rw [kebabToCamel, joinHyphens_of_not_mem free, joinHyphens_of_not_mem free, String.ofList_toList]

/-- Capitals that kebab case has split off are joined again. -/
theorem joinHyphens_map_toLower_splitCapitals {cs : List Char}
    (free : ¬ HyphenBefore Char.isLower cs) :
    joinHyphens Char.isLower Char.toUpper ((splitCapitals cs).map Char.toLower) = cs := by
  induction cs with
  | nil => rfl
  | cons c rest ih =>
      have joined := ih fun later => free later.cons
      by_cases capital : c.isUpper = true
      · obtain ⟨isSmall, again⟩ := small_of_isUpper capital
        have split : (splitCapitals (c :: rest)).map Char.toLower =
            '-' :: c.toLower :: (splitCapitals rest).map Char.toLower := by
          rw [splitCapitals_cons, if_pos capital]
          rfl
        rw [split, joinHyphens, if_pos isSmall, joined, again]
      · have kept : (splitCapitals (c :: rest)).map Char.toLower =
            c :: (splitCapitals rest).map Char.toLower := by
          rw [splitCapitals_cons, if_neg capital, List.singleton_append, List.map_cons,
            toLower_of_not_isUpper (Bool.eq_false_iff.2 capital)]
        rw [kept, joinHyphens_cons, joined]
        -- What follows the hyphen is the hyphen of a capital or a character of the name.
        rintro rfl d first
        cases rest with
        | nil => cases first
        | cons e more =>
            rw [splitCapitals_cons] at first
            split at first
            · cases first
              rfl
            · next small =>
                cases first
                rw [toLower_of_not_isUpper (Bool.eq_false_iff.2 small), Bool.eq_false_iff]
                exact fun letter => free (.head letter)

/-- A name is read back from its kebab case, unless a hyphen of its own would be joined. -/
theorem kebabToCamel_camelToKebab {name : String} (ascii : ∀ c ∈ name.toList, c.toNat < 128)
    (noLetter : ¬ HyphenBefore Char.isLower name.toList)
    (noDigit : ¬ HyphenBefore Char.isDigit name.toList) :
    kebabToCamel (camelToKebab name) = name := by
  rw [kebabToCamel, toList_camelToKebab ascii, joinHyphens_map_toLower_splitCapitals noLetter,
    joinHyphens_of_not_hyphenBefore noDigit, String.ofList_toList]

/-- Letters followed by digits are recognised, and nothing else is. -/
theorem splitNumbered?_eq_some_iff {name letters digits : String} :
    splitNumbered? name = some (letters, digits) ↔
      (letters ≠ "" ∧ ∀ c ∈ letters.toList, c.isAlpha = true) ∧
        (digits ≠ "" ∧ ∀ c ∈ digits.toList, c.isDigit = true) ∧ name = letters ++ digits := by
  rw [splitNumbered?, Option.ite_none_right_eq_some, Bool.and_eq_true, Bool.and_eq_true,
    Bool.not_eq_true', Bool.not_eq_true', List.isEmpty_eq_false_iff, List.isEmpty_eq_false_iff,
    List.all_eq_true]
  constructor
  · rintro ⟨⟨⟨someLetters, someDigits⟩, areDigits⟩, parts⟩
    cases parts
    refine ⟨⟨?_, ?_⟩, ⟨?_, ?_⟩, ?_⟩
    · rwa [ne_eq, ← String.toList_eq_nil_iff, String.toList_ofList]
    · intro c member
      rw [String.toList_ofList] at member
      exact List.mem_takeWhile_imp member
    · rwa [ne_eq, ← String.toList_eq_nil_iff, String.toList_ofList]
    · rwa [String.toList_ofList]
    · rw [← String.ofList_append, List.takeWhile_append_dropWhile, String.ofList_toList]
  · rintro ⟨⟨someLetters, areLetters⟩, ⟨someDigits, areDigits⟩, rfl⟩
    obtain ⟨d, more, isFirst⟩ : ∃ d more, digits.toList = d :: more :=
      List.exists_cons_of_ne_nil (mt String.toList_eq_nil_iff.1 someDigits)
    have stops : d.isAlpha = false := by
      refine (not_letter_of_isDigit (areDigits d ?_)).1
      rw [isFirst]
      exact List.mem_cons_self
    have front : (letters ++ digits).toList.takeWhile Char.isAlpha = letters.toList := by
      rw [String.toList_append, List.takeWhile_append_of_pos areLetters, isFirst,
        List.takeWhile_cons, stops]
      exact List.append_nil _
    have back : (letters ++ digits).toList.dropWhile Char.isAlpha = digits.toList := by
      rw [String.toList_append, List.dropWhile_append_of_pos areLetters, isFirst,
        List.dropWhile_cons, stops]
      rfl
    rw [front, back, String.ofList_toList, String.ofList_toList]
    exact ⟨⟨⟨mt String.toList_eq_nil_iff.1 someLetters, mt String.toList_eq_nil_iff.1 someDigits⟩,
      areDigits⟩, rfl⟩

/-- A numbered name is read back from its hyphenated spelling. -/
theorem kebabToCamel_of_numberedToKebab? {name numbered : String}
    (isNumbered : numberedToKebab? name = some numbered) : kebabToCamel numbered = name := by
  obtain ⟨⟨letters, digits⟩, parts, rfl⟩ := Option.map_eq_some_iff.1 isNumbered
  obtain ⟨⟨-, areLetters⟩, ⟨someDigits, areDigits⟩, rfl⟩ := splitNumbered?_eq_some_iff.1 parts
  obtain ⟨d, more, isFirst⟩ : ∃ d more, digits.toList = d :: more :=
    List.exists_cons_of_ne_nil (mt String.toList_eq_nil_iff.1 someDigits)
  have noHyphen : '-' ∉ letters.toList := fun member =>
    ne_hyphen_of_isAlpha (areLetters _ member) rfl
  have noHyphenBehind : '-' ∉ d :: more := fun member =>
    (not_letter_of_isDigit (areDigits _ (isFirst ▸ member))).2.2.2 rfl
  have digit : d.isDigit = true := areDigits d (isFirst ▸ List.mem_cons_self)
  have chars : (letters ++ "-" ++ digits).toList = letters.toList ++ '-' :: d :: more := by
    rw [String.toList_append, String.toList_append, isFirst, List.append_assoc]
    rfl
  -- No letter follows the hyphen, so the first pass keeps it and the second one drops it.
  have firstPass : joinHyphens Char.isLower Char.toUpper (letters.toList ++ '-' :: d :: more) =
      letters.toList ++ '-' :: d :: more := by
    rw [joinHyphens_append noHyphen, joinHyphens_cons, joinHyphens_of_not_mem noHyphenBehind]
    rintro - e first
    cases first
    exact (not_letter_of_isDigit digit).2.1
  rw [kebabToCamel, chars, firstPass, joinHyphens_append noHyphen, joinHyphens, if_pos digit,
    joinHyphens_of_not_mem fun member => noHyphenBehind (List.mem_cons_of_mem d member)]
  apply String.toList_injective
  rw [String.toList_ofList, String.toList_append, isFirst]
  rfl

/-! ## Names in kebab case -/

/-- A small letter, followed by small letters and digits. -/
def IsSegment : List Char → Prop
  | [] => False
  | c :: rest => c.isLower = true ∧ ∀ d ∈ rest, d.isLower = true ∨ d.isDigit = true

instance : (cs : List Char) → Decidable (IsSegment cs)
  | [] => isFalse id
  | c :: rest =>
    decidable_of_iff (c.isLower = true ∧ rest.all (fun d => d.isLower || d.isDigit) = true) <| by
      rw [IsSegment, List.all_eq_true]
      simp only [Bool.or_eq_true]

/-- Segments joined by single hyphens. -/
inductive IsKebabCase : List Char → Prop
  | segment {cs : List Char} (isSegment : IsSegment cs) : IsKebabCase cs
  | join {front rest : List Char} (isSegment : IsSegment front) (isKebab : IsKebabCase rest) :
      IsKebabCase (front ++ '-' :: rest)

theorem IsSegment.isLower_or_isDigit {cs : List Char} (isSegment : IsSegment cs) {c : Char}
    (member : c ∈ cs) : c.isLower = true ∨ c.isDigit = true := by
  cases cs with
  | nil => cases member
  | cons first rest =>
      rcases List.mem_cons.1 member with rfl | inRest
      · exact .inl isSegment.1
      · exact isSegment.2 c inRest

theorem IsSegment.noHyphen {cs : List Char} (isSegment : IsSegment cs) : '-' ∉ cs := by
  intro member
  rcases isSegment.isLower_or_isDigit member with letter | digit
  · exact (not_digit_of_isLower letter).2 rfl
  · exact (not_letter_of_isDigit digit).2.2.2 rfl

namespace IsKebabCase

variable {cs : List Char}

theorem exists_head (isKebab : IsKebabCase cs) :
    ∃ c rest, cs = c :: rest ∧ c.isLower = true := by
  have ofSegment {front : List Char} (isSegment : IsSegment front) (behind : List Char) :
      ∃ c rest, front ++ behind = c :: rest ∧ c.isLower = true := by
    cases front with
    | nil => cases isSegment
    | cons c rest => exact ⟨c, rest ++ behind, rfl, isSegment.1⟩
  cases isKebab with
  | segment isSegment => exact List.append_nil cs ▸ ofSegment isSegment []
  | join isSegment _ => exact ofSegment isSegment _

theorem kinds (isKebab : IsKebabCase cs) {c : Char} (member : c ∈ cs) :
    c.isLower = true ∨ c.isDigit = true ∨ c = '-' := by
  have ofSegment {front : List Char} (isSegment : IsSegment front) (inFront : c ∈ front) :
      c.isLower = true ∨ c.isDigit = true ∨ c = '-' :=
    (isSegment.isLower_or_isDigit inFront).imp_right .inl
  induction isKebab with
  | segment isSegment => exact ofSegment isSegment member
  | join isSegment _ ih =>
      rcases List.mem_append.1 member with inFront | behind
      · exact ofSegment isSegment inFront
      · rcases List.mem_cons.1 behind with rfl | inRest
        · exact .inr (.inr rfl)
        · exact ih inRest

theorem ascii (isKebab : IsKebabCase cs) {c : Char} (member : c ∈ cs) : c.toNat < 128 := by
  rcases isKebab.kinds member with letter | digit | rfl
  · exact Text.ascii_of_isLower letter
  · exact Text.ascii_of_isDigit digit
  · decide

theorem isUpper_eq_false (isKebab : IsKebabCase cs) {c : Char} (member : c ∈ cs) :
    c.isUpper = false := by
  rcases isKebab.kinds member with letter | digit | rfl
  · exact (small_of_isLower letter).1
  · exact (not_letter_of_isDigit digit).2.2.1
  · rfl

/-- Each hyphen joins the letter behind it. -/
theorem noHyphen_joined (isKebab : IsKebabCase cs) :
    '-' ∉ joinHyphens Char.isLower Char.toUpper cs := by
  induction isKebab with
  | segment isSegment =>
      rw [joinHyphens_of_not_mem isSegment.noHyphen]
      exact isSegment.noHyphen
  | @join front rest isSegment isKebab ih =>
      obtain ⟨c, more, rfl, letter⟩ := isKebab.exists_head
      obtain ⟨-, -, notHyphen, -⟩ := capital_of_isLower letter
      rw [joinHyphens_cons fun isHyphen => absurd isHyphen (not_digit_of_isLower letter).2,
        List.mem_cons, not_or] at ih
      rw [joinHyphens_append isSegment.noHyphen, joinHyphens, if_pos letter, List.mem_append,
        List.mem_cons, not_or, not_or]
      exact ⟨isSegment.noHyphen, notHyphen.symm, ih.2⟩

end IsKebabCase

variable {name : String}

theorem noHyphen_kebabToCamel (isKebab : IsKebabCase name.toList) :
    '-' ∉ (kebabToCamel name).toList := by
  rw [kebabToCamel, joinHyphens_of_not_mem isKebab.noHyphen_joined, String.toList_ofList]
  exact isKebab.noHyphen_joined

theorem splitCapitals_of_noCapital {cs : List Char} (small : ∀ c ∈ cs, c.isUpper = false) :
    splitCapitals cs = cs := by
  induction cs with
  | nil => rfl
  | cons c rest ih =>
      obtain ⟨other, restSmall⟩ := List.forall_mem_cons.1 small
      rw [splitCapitals_cons, if_neg (Bool.eq_false_iff.1 other), ih restSmall,
        List.singleton_append]

/-- Text without capitals is its own kebab case. -/
theorem camelToKebab_of_noCapital (ascii : ∀ c ∈ name.toList, c.toNat < 128)
    (small : ∀ c ∈ name.toList, c.isUpper = false) : camelToKebab name = name := by
  apply String.toList_injective
  rw [toList_camelToKebab ascii, splitCapitals_of_noCapital small]
  calc name.toList.map Char.toLower
      = name.toList.map id :=
        List.map_congr_left fun c member => toLower_of_not_isUpper (small c member)
    _ = name.toList := List.map_id _

/-- A name in kebab case is read back from its camel case. -/
theorem camelToKebab_kebabToCamel_of_isKebabCase (isKebab : IsKebabCase name.toList) :
    camelToKebab (kebabToCamel name) = name := by
  have ascii : ∀ c ∈ name.toList, c.toNat < 128 := fun c member => isKebab.ascii member
  rw [camelToKebab_kebabToCamel ascii fun before =>
      isKebab.noHyphen_joined (hyphenBefore_digit_joinHyphens before).mem,
    camelToKebab_of_noCapital ascii fun c member => isKebab.isUpper_eq_false member]

/-- Of two hyphens in front, the first one stays. -/
theorem hyphen_mem_kebabToCamel_dashes (bare : String) :
    '-' ∈ (kebabToCamel ("--" ++ bare)).toList := by
  have chars : ("--" ++ bare).toList = '-' :: '-' :: bare.toList := by
    rw [String.toList_append]
    rfl
  rw [kebabToCamel, String.toList_ofList, chars, joinHyphens_cons, joinHyphens_cons]
  · exact List.mem_cons_self
  · rintro - d first
    rw [Bool.eq_false_iff]
    intro digit
    cases head?_of_joinHyphens (fun _ letter => (capital_of_isLower letter).2.1) rfl digit first
    cases digit
  · rintro - d first
    cases first
    rfl

end ComponentGen.Naming
