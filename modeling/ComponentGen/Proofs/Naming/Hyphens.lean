import ComponentGen.Naming
import ComponentGen.Proofs.Text.Ascii
/-!
# Hyphens and capitals

Camel case is made in two passes, and the second one sees what the first one leaves. A hyphen that
the first pass takes away is the one that kebab case puts in front of the capital again, so only a
hyphen in front of a digit is lost on the way to camel case and back.
-/

namespace ComponentGen.Naming

/-- Some hyphen stands directly in front of a character of the given kind. -/
def HyphenBefore (kind : Char → Bool) (cs : List Char) : Prop :=
  ∃ c, kind c = true ∧ ['-', c] <:+: cs

namespace HyphenBefore

variable {kind : Char → Bool} {c d : Char} {cs : List Char}

theorem head (isKind : kind c = true) : HyphenBefore kind ('-' :: c :: cs) :=
  ⟨c, isKind, [], cs, rfl⟩

theorem cons (before : HyphenBefore kind cs) : HyphenBefore kind (c :: cs) := by
  obtain ⟨d, isKind, inside⟩ := before
  exact ⟨d, isKind, List.infix_cons inside⟩

theorem mem (before : HyphenBefore kind cs) : '-' ∈ cs := by
  obtain ⟨d, -, inside⟩ := before
  exact inside.subset List.mem_cons_self

theorem mono {other : Char → Bool} (before : HyphenBefore kind cs)
    (wider : ∀ c, kind c = true → other c = true) : HyphenBefore other cs := by
  obtain ⟨d, isKind, inside⟩ := before
  exact ⟨d, wider d isKind, inside⟩

theorem cons_iff :
    HyphenBefore kind (c :: cs) ↔
      (c = '-' ∧ ∃ d, cs.head? = some d ∧ kind d = true) ∨ HyphenBefore kind cs := by
  constructor
  · rintro ⟨d, isKind, inside⟩
    rcases List.infix_cons_iff.1 inside with front | later
    · obtain ⟨rfl, rest, rfl⟩ := List.cons_prefix_cons.1 front
      exact .inl ⟨rfl, d, rfl, isKind⟩
    · exact .inr ⟨d, isKind, later⟩
  · rintro (⟨rfl, d, first, isKind⟩ | later)
    · obtain ⟨rest, rfl⟩ := List.head?_eq_some_iff.1 first
      exact head isKind
    · exact later.cons

instance decidable (kind : Char → Bool) : (cs : List Char) → Decidable (HyphenBefore kind cs)
  | [] => isFalse fun ⟨_, _, inside⟩ => by simp at inside
  | c :: cs =>
    have := decidable kind cs
    decidable_of_iff ((c = '-' ∧ cs.head?.any kind = true) ∨ HyphenBefore kind cs) (by
      rw [cons_iff, Option.any_eq_true])

end HyphenBefore

/-! ## Joining hyphens -/

/-- Without a hyphen to be joined nothing changes. -/
theorem joinHyphens_of_not_hyphenBefore {joins : Char → Bool} {change : Char → Char}
    {cs : List Char} (free : ¬ HyphenBefore joins cs) : joinHyphens joins change cs = cs := by
  fun_induction joinHyphens joins change cs with
  | case1 => rfl
  | case2 c rest isJoined ih => exact absurd (HyphenBefore.head isJoined) free
  | case3 c rest notJoined ih => rw [ih fun later => free later.cons]
  | case4 c rest notPair ih => rw [ih fun later => free later.cons]

/-- What is joined is spelled with the characters of the text, some of them changed. -/
theorem exists_of_mem_joinHyphens {joins : Char → Bool} {change : Char → Char} {cs : List Char}
    {c : Char} (member : c ∈ joinHyphens joins change cs) : ∃ d ∈ cs, c = d ∨ c = change d := by
  fun_induction joinHyphens joins change cs with
  | case1 => cases member
  | case2 d rest isJoined ih =>
      rcases List.mem_cons.1 member with rfl | later
      · exact ⟨d, by simp, .inr rfl⟩
      · obtain ⟨e, inRest, same⟩ := ih later
        exact ⟨e, by simp [inRest], same⟩
  | case3 d rest notJoined ih =>
      rcases List.mem_cons.1 member with rfl | later
      · exact ⟨'-', List.mem_cons_self, .inl rfl⟩
      · obtain ⟨e, inRest, same⟩ := ih later
        exact ⟨e, List.mem_cons_of_mem _ inRest, same⟩
  | case4 d rest notPair ih =>
      rcases List.mem_cons.1 member with rfl | later
      · exact ⟨c, List.mem_cons_self, .inl rfl⟩
      · obtain ⟨e, inRest, same⟩ := ih later
        exact ⟨e, List.mem_cons_of_mem _ inRest, same⟩

/-- A fact about all small letters can be found out from their codes. -/
theorem forall_isLower {P : Char → Prop}
    (all : ∀ n < 128, (Char.ofNat n).isLower = true → P (Char.ofNat n)) {c : Char}
    (lower : c.isLower = true) : P c :=
  Text.forall_ascii (P := fun c => c.isLower = true → P c) all (Text.ascii_of_isLower lower) lower

theorem small_of_isLower {c : Char} (lower : c.isLower = true) :
    c.isUpper = false ∧ c.toLower = c :=
  forall_isLower (P := fun c => c.isUpper = false ∧ c.toLower = c) (by decide) lower

/-- The capital of a small letter is neither a digit nor a hyphen, and its lower case is the
letter. -/
theorem capital_of_isLower {c : Char} (lower : c.isLower = true) :
    c.toUpper.isUpper = true ∧ c.toUpper.isDigit = false ∧ c.toUpper ≠ '-' ∧
      c.toUpper.toLower = c :=
  forall_isLower (P := fun c => c.toUpper.isUpper = true ∧ c.toUpper.isDigit = false ∧
    c.toUpper ≠ '-' ∧ c.toUpper.toLower = c) (by decide) lower

section Capitalising

variable {kind : Char → Bool} (notCapital : ∀ c : Char, c.isLower = true → kind c.toUpper = false)
  (notHyphen : kind '-' = false) {cs : List Char} {d : Char}

include notCapital notHyphen

/-- Capitalising joined letters puts no character first that is of another kind than they are. -/
theorem head?_of_joinHyphens (isKind : kind d = true)
    (first : (joinHyphens Char.isLower Char.toUpper cs).head? = some d) : cs.head? = some d := by
  fun_induction joinHyphens Char.isLower Char.toUpper cs with
  | case1 => cases first
  | case2 c rest isJoined ih =>
      cases first
      rw [notCapital c isJoined] at isKind
      cases isKind
  | case3 c rest notJoined ih =>
      cases first
      rw [notHyphen] at isKind
      cases isKind
  | case4 c rest notPair ih =>
      cases first
      rfl

/-- Capitalising joined letters puts no hyphen in front of a character of another kind, and leaves
none in front of a small letter. -/
theorem hyphenBefore_of_joinHyphens
    (before : HyphenBefore kind (joinHyphens Char.isLower Char.toUpper cs)) :
    HyphenBefore (fun c => kind c && !c.isLower) cs := by
  fun_induction joinHyphens Char.isLower Char.toUpper cs with
  | case1 => exact absurd before fun ⟨_, _, inside⟩ => by simp at inside
  | case2 c rest isJoined ih =>
      rcases HyphenBefore.cons_iff.1 before with ⟨isHyphen, -⟩ | later
      · exact absurd isHyphen (capital_of_isLower isJoined).2.2.1
      · exact (ih later).cons.cons
  | case3 c rest notJoined ih =>
      rcases HyphenBefore.cons_iff.1 before with ⟨-, d, first, isKind⟩ | later
      · obtain rfl := Option.some.inj (head?_of_joinHyphens notCapital notHyphen isKind first)
        refine .head ?_
        rw [isKind, Bool.eq_false_iff.2 notJoined]
        rfl
      · exact (ih later).cons
  | case4 c rest notPair ih =>
      rcases HyphenBefore.cons_iff.1 before with ⟨isHyphen, d, first, isKind⟩ | later
      · obtain ⟨more, rfl⟩ := List.head?_eq_some_iff.1
          (head?_of_joinHyphens notCapital notHyphen isKind first)
        exact absurd rfl (notPair d more isHyphen)
      · exact (ih later).cons

end Capitalising

theorem hyphenBefore_digit_of_joinHyphens {cs : List Char}
    (before : HyphenBefore Char.isDigit (joinHyphens Char.isLower Char.toUpper cs)) :
    HyphenBefore Char.isDigit cs := by
  have other := hyphenBefore_of_joinHyphens (fun _ letter => (capital_of_isLower letter).2.1) rfl before
  exact other.mono fun c both => (Bool.and_eq_true_iff.1 both).1

/-! ## There and back -/

theorem splitCapitals_cons (c : Char) (rest : List Char) :
    splitCapitals (c :: rest) =
      (if c.isUpper then ['-', c] else [c]) ++ splitCapitals rest :=
  List.flatMap_cons

/-- Kebab case puts a hyphen in front of every capital, also where one was taken away for it. -/
theorem map_toLower_splitCapitals_joinHyphens (cs : List Char) :
    (splitCapitals (joinHyphens Char.isLower Char.toUpper cs)).map Char.toLower =
      (splitCapitals cs).map Char.toLower := by
  fun_induction joinHyphens Char.isLower Char.toUpper cs with
  | case1 => rfl
  | case2 c rest isJoined ih =>
      obtain ⟨notCapital, small⟩ := small_of_isLower isJoined
      obtain ⟨isCapital, -, -, lowered⟩ := capital_of_isLower isJoined
      -- The hyphen of the text stands where one is put in front of the capital.
      rw [splitCapitals_cons, splitCapitals_cons, splitCapitals_cons, if_pos isCapital,
        if_neg (Bool.eq_false_iff.1 notCapital), List.map_append, ih, List.map_append,
        List.map_append, List.map_cons, List.map_cons, List.map_nil, lowered, List.map_cons,
        List.map_nil, small]
      rfl
  | case3 c rest notJoined ih =>
      rw [splitCapitals_cons, splitCapitals_cons, List.map_append, List.map_append, ih]
  | case4 c rest notPair ih =>
      rw [splitCapitals_cons, splitCapitals_cons, List.map_append, List.map_append, ih]

/-- ASCII text stays ASCII text in camel case. -/
theorem ascii_kebabToCamel {text : String} (ascii : ∀ c ∈ text.toList, c.toNat < 128) :
    ∀ c ∈ (kebabToCamel text).toList, c.toNat < 128 := by
  intro c member
  rw [kebabToCamel, String.toList_ofList] at member
  obtain ⟨d, inFirstPass, unchanged⟩ := exists_of_mem_joinHyphens member
  obtain rfl : c = d := unchanged.elim id id
  obtain ⟨e, inText, rfl | rfl⟩ := exists_of_mem_joinHyphens inFirstPass
  · exact ascii c inText
  · exact Text.forall_ascii (P := fun e => e.toUpper.toNat < 128) (by decide) (ascii e inText)

theorem ascii_splitCapitals {cs : List Char} (ascii : ∀ c ∈ cs, c.toNat < 128) :
    ∀ c ∈ splitCapitals cs, c.toNat < 128 := by
  intro c member
  obtain ⟨d, inText, inPiece⟩ := List.mem_flatMap.1 member
  split at inPiece
  · rcases List.mem_cons.1 inPiece with rfl | inRest
    · decide
    · obtain rfl := List.mem_singleton.1 inRest
      exact ascii c inText
  · obtain rfl := List.mem_singleton.1 inPiece
    exact ascii c inText

/-- ASCII text is put into kebab case letter by letter. -/
theorem toList_camelToKebab {text : String} (ascii : ∀ c ∈ text.toList, c.toNat < 128) :
    (camelToKebab text).toList = (splitCapitals text.toList).map Char.toLower := by
  rw [camelToKebab, Text.toList_lowerCase_of_ascii, String.toList_ofList]
  rw [String.toList_ofList]
  exact ascii_splitCapitals ascii

/-- Camel case does not change what the kebab case of a text is, unless it has a hyphen in front of
a digit. -/
theorem camelToKebab_kebabToCamel {text : String} (ascii : ∀ c ∈ text.toList, c.toNat < 128)
    (free : ¬ HyphenBefore Char.isDigit text.toList) :
    camelToKebab (kebabToCamel text) = camelToKebab text := by
  have camel : (kebabToCamel text).toList = joinHyphens Char.isLower Char.toUpper text.toList := by
    rw [kebabToCamel, String.toList_ofList]
    exact joinHyphens_of_not_hyphenBefore fun before =>
      free (hyphenBefore_digit_of_joinHyphens before)
  apply String.toList_injective
  rw [toList_camelToKebab (ascii_kebabToCamel ascii), toList_camelToKebab ascii, camel,
    map_toLower_splitCapitals_joinHyphens]

/-- The hyphen of a numbered name is lost. -/
example : camelToKebab (kebabToCamel "line-2") ≠ camelToKebab "line-2" := by decide +kernel

end ComponentGen.Naming
