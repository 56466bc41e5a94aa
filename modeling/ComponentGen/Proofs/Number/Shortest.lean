import ComponentGen.Number.Shortest
import ComponentGen.Proofs.Text.Reading
import Mathlib.Data.List.TakeWhile
import Mathlib.Data.Nat.Basic
/-!
# Shortest digits are written

Zeros at the end of the digits are not written. So a number without an exponent would have no text
at all if its only digit were a zero in the first place behind the point. The shortest digits of a
number that is not zero are never of this form. Digits that are found on a grid lie in the stretch
of the number, and zero does not. When no grid has a hit, the last grid is left, and where that
counts tenths, the number is at least one.
-/

namespace ComponentGen

open Text (toList_toString)

/-! ## Texts without an exponent -/

/-- Only zero has no digit that is significant. -/
theorem eq_zero_of_significantDigits_eq_nil {digits : Nat} {exponent : Int}
    (noDigit : (significantDigits digits exponent).1 = []) : digits = 0 := by
  rw [significantDigits, List.reverse_eq_nil_iff, List.dropWhile_eq_nil_iff, toList_toString]
    at noDigit
  have zeros : Nat.toDigits 10 digits = List.replicate (Nat.toDigits 10 digits).length '0' :=
    List.eq_replicate_iff.2
      ⟨rfl, fun c member => beq_iff_eq.1 (noDigit c (List.mem_reverse.2 member))⟩
  rw [← Nat.ofDigitChars_ten_toDigits (n := digits), zeros, Nat.ofDigitChars_replicate_zero,
    Nat.mul_zero]

/-- Only a zero that counts tenths is written with no character. -/
theorem positional_ne_nil {digits : Nat} {exponent : Int}
    (written : (digits, exponent) ≠ (0, -1)) : (positional digits exponent).toList ≠ [] := by
  rw [positional]
  split
  next significant shift split =>
  split
  · next noFraction =>
      rw [String.toList_ofList]
      intro empty
      obtain ⟨rfl, noZeros⟩ := List.append_eq_nil_iff.1 empty
      obtain rfl := eq_zero_of_significantDigits_eq_nil (congrArg Prod.fst split)
      have tenths : exponent + 1 = shift := congrArg Prod.snd split
      rw [List.replicate_eq_nil_iff] at noZeros
      exact written (Prod.ext rfl (show exponent = -1 by omega))
  · simp only
    split
    · rw [String.toList_ofList]
      exact List.append_ne_nil_of_right_ne_nil _ (List.cons_ne_nil _ _)
    · rw [String.toList_ofList]
      exact List.append_ne_nil_of_left_ne_nil (List.cons_ne_nil _ _) _

/-! ## Digits of a number -/

namespace Binary64

theorem lt_of_length_toString_lt {n m : Nat}
    (fewer : (toString n).length < (toString m).length) : n < m := by
  rw [← String.length_toList, ← String.length_toList, toList_toString, toList_toString] at fewer
  have power (k : Nat) : (Nat.toDigits 10 k).length ≤ (Nat.toDigits 10 n).length ↔
      k < 10 ^ (Nat.toDigits 10 n).length :=
    Nat.length_toDigits_le_iff (by decide) Nat.length_toDigits_pos
  have below := (power n).1 (Nat.le_refl _)
  have above := mt (power m).2 (Nat.not_le_of_lt fewer)
  omega

/-- A ratio with a digit in front of the point is at least one. -/
theorem le_of_decimalPlaces_pos {num den : Nat} (places : 0 < decimalPlaces num den) :
    den ≤ num := by
  rw [decimalPlaces] at places
  split at places
  · split at places <;> omega
  · split at places
    · next reached =>
        exact (Nat.le_mul_of_pos_right den (Nat.pow_pos (by decide))).trans reached
    · exact Nat.le_of_lt (lt_of_length_toString_lt (by omega))

variable {tie : Tie} {s : Stretch}

/-- Zero lies in no stretch that starts above it. -/
theorem Stretch.holds_zero (positive : 0 < s.lower) (exponent : Int) :
    s.holds 0 exponent = false := by
  have unit : 0 < if exponent < 0 then Nat.pow 10 (-exponent).toNat else 1 := by
    split
    · exact Nat.pow_pos (by decide)
    · exact Nat.one_pos
  have start := Nat.mul_pos positive unit
  rw [Stretch.holds, Nat.zero_mul, Nat.zero_mul, Nat.zero_mul, ite_self]
  split
  · rw [decide_eq_false (Nat.not_le_of_lt start), Bool.false_and]
  · rw [decide_eq_false (Nat.not_lt_zero _), Bool.false_and]

theorem digitsAt_ne_zero (positive : 0 < s.lower) {exponent : Int} :
    digitsAt tie s exponent ≠ some 0 := by
  intro isZero
  have notBelow {below : Nat} (holds : s.holds below exponent = true) : below ≠ 0 := by
    rintro rfl
    rw [Stretch.holds_zero positive] at holds
    cases holds
  unfold digitsAt at isZero
  extract_lets num den below rest at isZero
  split at isZero
  · next holds _ =>
      have isBelow := Option.some.inj isZero
      split at isBelow
      · exact Nat.succ_ne_zero below isBelow
      · exact notBelow holds isBelow
  · next holds _ => exact notBelow holds (Option.some.inj isZero)
  · exact Nat.succ_ne_zero below (Option.some.inj isZero)
  · cases isZero

/-- The digits of the first grid with a hit are not zero, and those of the last grid are not zero
either where it counts tenths of a number that is large enough. -/
theorem firstGrid_ne (positive : 0 < s.lower) (notNull : 0 < s.den) {count : Nat} {exponent : Int}
    (large : exponent - count = -1 → s.den ≤ s.value * 10) :
    firstGrid tie s count exponent ≠ (0, -1) := by
  induction count generalizing exponent with
  | zero =>
      intro isZero
      obtain ⟨noDigits, rfl⟩ := Prod.mk.inj isZero
      rcases Nat.div_eq_zero_iff.1 noDigits with null | small
      · omega
      · exact absurd (large rfl) (Nat.not_le_of_lt small)
  | succ count ih =>
      rw [firstGrid]
      split
      · next found =>
          intro isZero
          obtain ⟨rfl, -⟩ := Prod.mk.inj isZero
          exact digitsAt_ne_zero positive found
      · exact ih fun last => large (by omega)

theorem stretch_pos {x : Binary64} (notZero : x.isZero = false) :
    0 < x.stretch.lower ∧ 0 < x.stretch.den := by
  have significand : x.significand ≠ 0 := by
    rwa [isZero, beq_eq_false_iff_ne] at notZero
  have quarters {k : Nat} (positive : 0 < k) :
      0 < if x.exponent < 0 then k else k * Nat.pow 2 x.exponent.toNat := by
    split
    · exact positive
    · exact Nat.mul_pos positive (Nat.pow_pos (by decide))
  constructor
  · refine quarters ?_
    split <;> omega
  · show 0 < if x.exponent < 0 then 4 * Nat.pow 2 (-x.exponent).toNat else 4
    split
    · exact Nat.mul_pos (by decide) (Nat.pow_pos (by decide))
    · decide

/-- The shortest digits of a number that is not zero are no zero that counts tenths. -/
theorem shortest_ne {x : Binary64} (notZero : x.isZero = false) (tie : Tie) :
    x.shortest tie ≠ (0, -1) := by
  obtain ⟨positive, notNull⟩ := stretch_pos notZero
  refine firstGrid_ne positive notNull fun tenths => ?_
  have atLeastOne : x.stretch.den ≤ x.stretch.value := le_of_decimalPlaces_pos (by omega)
  omega

end Binary64

end ComponentGen
