import ComponentGen.Text.LowerCase
/-!
# ASCII text

Letters and digits as core tells them are ASCII characters, and text of such characters is put into
lower case letter by letter. A change of case makes no hyphen of a letter or digit and no slash of
another character, and upper case leaves no small letters.
-/

namespace ComponentGen.Text

/-- Characters are told apart by a kind that only one of them is of. -/
theorem ne_of_kind {isKind : Char → Bool} {c d : Char} (kind : isKind c = true)
    (notKind : isKind d = false) : c ≠ d := by
  rintro rfl
  rw [kind] at notKind
  cases notKind

theorem ascii_of_le {c high : Char} (ascii : high.toNat < 128) (below : c.val ≤ high.val) :
    c.toNat < 128 :=
  Nat.lt_of_le_of_lt (UInt32.le_iff_toNat_le.1 below) ascii

theorem ascii_of_isUpper {c : Char} (upper : c.isUpper = true) : c.toNat < 128 := by
  have between : c.val ≥ 'A'.val ∧ c.val ≤ 'Z'.val := of_decide_eq_true upper
  exact ascii_of_le (by decide) between.2

theorem ascii_of_isLower {c : Char} (lower : c.isLower = true) : c.toNat < 128 := by
  obtain ⟨-, below⟩ := Bool.and_eq_true_iff.1 lower
  exact ascii_of_le (by decide : 'z'.toNat < 128) (of_decide_eq_true below)

theorem ascii_of_isDigit {c : Char} (digit : c.isDigit = true) : c.toNat < 128 := by
  obtain ⟨-, below⟩ := Bool.and_eq_true_iff.1 digit
  exact ascii_of_le (by decide : '9'.toNat < 128) (of_decide_eq_true below)

theorem ascii_of_isAlphanum {c : Char} (alphanum : c.isAlphanum = true) : c.toNat < 128 := by
  have ranges : (c.isUpper || c.isLower || c.isDigit) = true := alphanum
  rw [Bool.or_eq_true, Bool.or_eq_true] at ranges
  rcases ranges with (upper | lower) | digit
  · exact ascii_of_isUpper upper
  · exact ascii_of_isLower lower
  · exact ascii_of_isDigit digit

/-- A fact about all ASCII characters can be found out from their codes. -/
theorem forall_ascii {P : Char → Prop} (all : ∀ n < 128, P (Char.ofNat n)) {c : Char}
    (ascii : c.toNat < 128) : P c := by
  have same := all c.toNat ascii
  rwa [Char.ofNat_toNat] at same

/-! ## Changing case -/

theorem toLower_ne_hyphen {c : Char} (alphanum : c.isAlphanum = true) : c.toLower ≠ '-' := by
  intro lower
  delta Char.toLower at lower
  split at lower
  · next upper =>
      have code := congrArg Char.toNat lower
      have least := UInt32.le_iff_toNat_le.1 upper.1
      have greatest := UInt32.le_iff_toNat_le.1 upper.2
      simp only [Char.toNat, UInt32.toNat_add] at code
      simp at code least greatest
      omega
  · subst lower
    exact absurd alphanum (by decide)

theorem isLower_toUpper (c : Char) : c.toUpper.isLower = false := by
  rw [Bool.eq_false_iff]
  delta Char.isLower
  rw [ne_eq, Bool.and_eq_true_iff, decide_eq_true_iff, decide_eq_true_iff]
  rintro ⟨low, high⟩
  delta Char.toUpper at low high
  split at low
  · next lower =>
      have least := UInt32.le_iff_toNat_le.1 lower.1
      have greatest := UInt32.le_iff_toNat_le.1 lower.2
      have changed := UInt32.le_iff_toNat_le.1 low
      rw [UInt32.toNat_add] at changed
      simp at least greatest changed
      omega
  · next other =>
      rw [dif_neg other] at high
      exact other ⟨low, high⟩

theorem eq_slash_of_toUpper {c : Char} (upper : c.toUpper = '/') : c = '/' := by
  delta Char.toUpper at upper
  split at upper
  · next lower =>
      have code := congrArg Char.toNat upper
      have least := UInt32.le_iff_toNat_le.1 lower.1
      have greatest := UInt32.le_iff_toNat_le.1 lower.2
      simp only [Char.toNat, UInt32.toNat_add] at code
      simp at code least greatest
      omega
  · exact upper

/-- ASCII text is put into lower case letter by letter. -/
theorem toList_lowerCase_of_ascii {text : String} (ascii : ∀ c ∈ text.toList, c.toNat < 128) :
    (lowerCase text).toList = text.toList.map Char.toLower := by
  rw [lowerCase, String.toList_ofList, lowerFrom_ascii [] text.toList ascii]

theorem toList_lowerCase_of_isAlphanum {name : String}
    (alphanum : ∀ c ∈ name.toList, c.isAlphanum = true) :
    (lowerCase name).toList = name.toList.map Char.toLower :=
  toList_lowerCase_of_ascii fun c member => ascii_of_isAlphanum (alphanum c member)

end ComponentGen.Text
