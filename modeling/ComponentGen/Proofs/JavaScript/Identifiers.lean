import ComponentGen.JavaScript.Literal
import ComponentGen.Proofs.Text.Ascii
/-!
# Identifiers

The characters of an identifier are all of one kind, the first among them. They are ASCII
characters, and lower case leaves them what they are.
-/

namespace ComponentGen.JavaScript

theorem isIdentifierPart_of_start {c : Char} (start : isIdentifierStart c = true) :
    isIdentifierPart c = true := by
  rw [isIdentifierStart, Bool.or_assoc, Bool.or_eq_true] at start
  rw [isIdentifierPart, Bool.or_assoc, Bool.or_eq_true]
  refine start.imp_left fun alpha => ?_
  rw [Char.isAlphanum, alpha, Bool.true_or]

theorem isIdentifierPart_of_mem {name : String} (bare : isIdentifier name = true) {c : Char}
    (member : c ∈ name.toList) : isIdentifierPart c = true := by
  rw [isIdentifier] at bare
  cases chars : name.toList with
  | nil =>
      rw [chars] at member
      cases member
  | cons first rest =>
      rw [chars] at bare member
      obtain ⟨start, parts⟩ := Bool.and_eq_true_iff.1 bare
      rcases List.mem_cons.1 member with rfl | later
      · exact isIdentifierPart_of_start start
      · exact List.all_eq_true.1 parts c later

theorem ascii_of_isIdentifierPart {c : Char} (part : isIdentifierPart c = true) :
    c.toNat < 128 := by
  rw [isIdentifierPart, Bool.or_eq_true, Bool.or_eq_true, beq_iff_eq, beq_iff_eq] at part
  rcases part with (alphanum | rfl) | rfl
  · exact Text.ascii_of_isAlphanum alphanum
  · decide
  · decide

theorem isIdentifierPart_toLower {c : Char} (part : isIdentifierPart c = true) :
    isIdentifierPart c.toLower = true := by
  have all : ∀ n < 128, isIdentifierPart (Char.ofNat n) = true →
      isIdentifierPart (Char.ofNat n).toLower = true := by decide +kernel
  have kept := Text.forall_ascii (P := fun c => isIdentifierPart c = true →
    isIdentifierPart c.toLower = true) all (ascii_of_isIdentifierPart part)
  exact kept part

/-- In lower case an identifier has no other kinds of characters. -/
theorem isIdentifierPart_of_mem_lowerCase {name : String}
    (parts : ∀ c ∈ name.toList, isIdentifierPart c = true) {c : Char}
    (member : c ∈ (Text.lowerCase name).toList) : isIdentifierPart c = true := by
  rw [Text.toList_lowerCase_of_ascii fun d inName => ascii_of_isIdentifierPart (parts d inName)]
    at member
  obtain ⟨d, inName, rfl⟩ := List.mem_map.1 member
  exact isIdentifierPart_toLower (parts d inName)

end ComponentGen.JavaScript
