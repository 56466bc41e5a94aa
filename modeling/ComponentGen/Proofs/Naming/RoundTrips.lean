import ComponentGen.Proofs.Naming.Spellings
/-!
# Round trips between the spellings

Which ASCII texts come back unchanged from camel case, and which from kebab case. A joined hyphen
becomes a capital, and kebab case turns the capital into a hyphen again, so neither the first pass
to camel case nor kebab case changes how long a text is in kebab case. Only the second pass makes it
shorter, and nothing puts back what that has dropped.
-/

namespace ComponentGen.Naming

/-! ## What the second pass drops -/

/-- The other characters stay in their order. -/
theorem joinHyphens_id_sublist (joins : Char → Bool) (cs : List Char) :
    (joinHyphens joins id cs).Sublist cs := by
  fun_induction joinHyphens joins id cs with
  | case1 => exact .slnil
  | case2 c rest isJoined ih => exact (ih.cons_cons c).cons '-'
  | case3 c rest notJoined ih => exact ih.cons_cons '-'
  | case4 c rest notPair ih => exact ih.cons_cons c

theorem length_joinHyphens_lt {joins : Char → Bool} {cs : List Char}
    (before : HyphenBefore joins cs) : (joinHyphens joins id cs).length < cs.length := by
  fun_induction joinHyphens joins id cs with
  | case1 => cases before.mem
  | case2 c rest isJoined ih =>
      have restLength := (joinHyphens_id_sublist joins rest).length_le
      rw [List.length_cons, List.length_cons, List.length_cons]
      omega
  | case3 c rest notJoined ih =>
      rcases HyphenBefore.cons_iff.1 before with ⟨-, d, first, isKind⟩ | later
      · cases first
        exact absurd isKind notJoined
      · exact Nat.succ_lt_succ (ih later)
  | case4 c rest notPair ih =>
      rcases HyphenBefore.cons_iff.1 before with ⟨isHyphen, d, first, -⟩ | later
      · obtain ⟨more, rfl⟩ := List.head?_eq_some_iff.1 first
        exact absurd rfl (notPair d more isHyphen)
      · exact Nat.succ_lt_succ (ih later)

/-! ## How long a text is in kebab case -/

/-- One hyphen is put in front of each capital. -/
theorem length_splitCapitals (cs : List Char) :
    (splitCapitals cs).length = cs.length + cs.countP Char.isUpper := by
  induction cs with
  | nil => rfl
  | cons c rest ih =>
      rw [splitCapitals_cons, List.length_append, ih, List.length_cons, List.countP_cons]
      split
      · rw [List.length_cons, List.length_singleton]
        omega
      · rw [List.length_singleton]
        omega

/-- If camel case does not make the kebab case of a text shorter, the second pass had nothing to
drop. -/
theorem kebabToCamel_of_length_eq {text : String}
    (same : (splitCapitals (kebabToCamel text).toList).length =
      (splitCapitals text.toList).length) :
    ¬ HyphenBefore Char.isDigit text.toList ∧
      (kebabToCamel text).toList = joinHyphens Char.isLower Char.toUpper text.toList := by
  have firstPass :
      (splitCapitals (joinHyphens Char.isLower Char.toUpper text.toList)).length =
        (splitCapitals text.toList).length := by
    simpa using congrArg List.length (map_toLower_splitCapitals_joinHyphens text.toList)
  have dropped := joinHyphens_id_sublist Char.isDigit
    (joinHyphens Char.isLower Char.toUpper text.toList)
  have camel : (kebabToCamel text).toList = joinHyphens Char.isDigit id
      (joinHyphens Char.isLower Char.toUpper text.toList) := String.toList_ofList
  have nothing : ¬ HyphenBefore Char.isDigit
      (joinHyphens Char.isLower Char.toUpper text.toList) := by
    intro before
    have shorter := length_joinHyphens_lt before
    have capitals := dropped.countP_le (p := Char.isUpper)
    rw [camel, ← firstPass, length_splitCapitals, length_splitCapitals] at same
    omega
  refine ⟨fun before => nothing (hyphenBefore_digit_joinHyphens before), ?_⟩
  rw [camel, joinHyphens_of_not_hyphenBefore nothing]

theorem isUpper_of_mem_camelToKebab {text : String} (ascii : ∀ c ∈ text.toList, c.toNat < 128) :
    ∀ c ∈ (camelToKebab text).toList, c.isUpper = false := by
  intro c member
  rw [toList_camelToKebab ascii] at member
  obtain ⟨d, inSplit, rfl⟩ := List.mem_map.1 member
  exact Text.forall_ascii (P := fun d => d.toLower.isUpper = false) (by decide)
    (ascii_splitCapitals ascii d inSplit)

theorem length_camelToKebab {text : String} (ascii : ∀ c ∈ text.toList, c.toNat < 128) :
    (camelToKebab text).toList.length = (splitCapitals text.toList).length := by
  rw [toList_camelToKebab ascii, List.length_map]

/-! ## The round trips -/

variable {name : String}

/-- A text comes back from camel case if nothing in it gets lost: it has no capitals, and no hyphen
that the second pass would drop. -/
theorem camelToKebab_kebabToCamel_eq_iff (ascii : ∀ c ∈ name.toList, c.toNat < 128) :
    camelToKebab (kebabToCamel name) = name ↔
      (∀ c ∈ name.toList, c.isUpper = false) ∧ ¬ HyphenBefore Char.isDigit name.toList := by
  constructor
  · intro back
    have camelAscii := ascii_kebabToCamel ascii
    have small : ∀ c ∈ name.toList, c.isUpper = false :=
      back ▸ isUpper_of_mem_camelToKebab camelAscii
    have same : (splitCapitals (kebabToCamel name).toList).length =
        (splitCapitals name.toList).length := by
      rw [← length_camelToKebab camelAscii, back, splitCapitals_of_noCapital small]
    exact ⟨small, (kebabToCamel_of_length_eq same).1⟩
  · rintro ⟨small, free⟩
    rw [camelToKebab_kebabToCamel ascii free, camelToKebab_of_noCapital ascii small]

/-- A text comes back from kebab case if camel case takes away only the hyphens that were put in:
none of its own stands in front of a small letter or a digit. -/
theorem kebabToCamel_camelToKebab_eq_iff (ascii : ∀ c ∈ name.toList, c.toNat < 128) :
    kebabToCamel (camelToKebab name) = name ↔
      ¬ HyphenBefore (fun c => c.isLower || c.isDigit) name.toList := by
  constructor
  · intro back before
    have small := isUpper_of_mem_camelToKebab ascii
    have same : (splitCapitals (kebabToCamel (camelToKebab name)).toList).length =
        (splitCapitals (camelToKebab name).toList).length := by
      rw [back, ← length_camelToKebab ascii, splitCapitals_of_noCapital small]
    obtain ⟨noDigit, firstPass⟩ := kebabToCamel_of_length_eq same
    rw [back] at firstPass
    rw [firstPass] at before
    -- Behind a hyphen that the first pass leaves stands no small letter.
    have notCapital (c : Char) (letter : c.isLower = true) :
        (c.toUpper.isLower || c.toUpper.isDigit) = false := by
      rw [Text.isLower_toUpper, (capital_of_isLower letter).2.1]
      rfl
    refine noDigit ((hyphenBefore_of_joinHyphens notCapital rfl before).mono fun c kind => ?_)
    rw [Bool.and_eq_true, Bool.or_eq_true, Bool.not_eq_true'] at kind
    obtain ⟨letter | digit, notLetter⟩ := kind
    · rw [letter] at notLetter
      cases notLetter
    · exact digit
  · intro free
    have noLetter : ¬ HyphenBefore Char.isLower name.toList := fun before =>
      free (before.mono fun c letter => Bool.or_eq_true_iff.2 (.inl letter))
    have noDigit : ¬ HyphenBefore Char.isDigit name.toList := fun before =>
      free (before.mono fun c digit => Bool.or_eq_true_iff.2 (.inr digit))
    exact kebabToCamel_camelToKebab ascii noLetter noDigit

/-- The ASCII texts that come back from camel case, and those that come back from kebab case. -/
theorem roundTrip_domains (ascii : ∀ c ∈ name.toList, c.toNat < 128) :
    (camelToKebab (kebabToCamel name) = name ↔
      (∀ c ∈ name.toList, c.isUpper = false) ∧ ¬ HyphenBefore Char.isDigit name.toList) ∧
    (kebabToCamel (camelToKebab name) = name ↔
      ¬ HyphenBefore (fun c => c.isLower || c.isDigit) name.toList) :=
  ⟨camelToKebab_kebabToCamel_eq_iff ascii, kebabToCamel_camelToKebab_eq_iff ascii⟩

/-- A text in small letters comes back from camel case, whatever its hyphens are, and one whose
hyphens stand in front of hyphens and capitals comes back from kebab case. -/
theorem roundTrip_domains_oddHyphens :
    (camelToKebab (kebabToCamel "--gap--x-") = "--gap--x-" ∧
      kebabToCamel (camelToKebab "--gap--x-") ≠ "--gap--x-") ∧
    (camelToKebab (kebabToCamel "nav--Item-") ≠ "nav--Item-" ∧
      kebabToCamel (camelToKebab "nav--Item-") = "nav--Item-") := by
  have ascii {name : String} (all : name.toList.all (·.toNat < 128) = true) :
      ∀ c ∈ name.toList, c.toNat < 128 :=
    fun c member => of_decide_eq_true (List.all_eq_true.1 all c member)
  have noCapital : "--gap--x-".toList.any Char.isUpper = false := by decide
  have kebab := roundTrip_domains (ascii (by decide : "--gap--x-".toList.all (·.toNat < 128)))
  have camel := roundTrip_domains (ascii (by decide : "nav--Item-".toList.all (·.toNat < 128)))
  refine ⟨⟨kebab.1.2 ⟨fun c member => ?_, by decide⟩, mt kebab.2.1 (by decide)⟩,
    ⟨fun same => ?_, camel.2.2 (by decide)⟩⟩
  · exact Bool.eq_false_iff.2 (List.any_eq_false.1 noCapital c member)
  · exact absurd ((camel.1.1 same).1 'I' (by decide)) (by decide)

end ComponentGen.Naming
