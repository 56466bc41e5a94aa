import ComponentGen.JavaScript.Literal
import ComponentGen.Json.Text
/-!
# String literals

In double quotes a string is written as in JSON, so the reader of JSON strings reads it back,
whatever stands behind the closing quote.
-/

namespace ComponentGen.JavaScript

/-- The string literal at the front of a text, and what follows it. In double quotes the strings of
JSON are written. -/
def stringLiteral? : List Char → Option (String × List Char)
  | '"' :: rest => do
    let (pieces, after) ← Json.Lexeme.scanString rest
    let cs ← Json.Lexeme.joinUnits pieces
    return (String.ofList cs, after)
  | _ => none

theorem hexValue?_hexDigit : ∀ n < 16, Json.Lexeme.hexValue? (hexDigit n) = some n := by
  decide

theorem joinUnits_control {unit : Nat} (control : unit < 0x20) (pieces : List (Char ⊕ Nat)) :
    Json.Lexeme.joinUnits (.inr unit :: pieces) =
      (Json.Lexeme.joinUnits pieces).map (Char.ofNat unit :: ·) := by
  have notHigh : Json.Lexeme.isHighSurrogate unit = false := by
    rw [Json.Lexeme.isHighSurrogate, decide_eq_false (by omega), Bool.false_and]
  have notLow : Json.Lexeme.isLowSurrogate unit = false := by
    rw [Json.Lexeme.isLowSurrogate, decide_eq_false (by omega), Bool.false_and]
  match pieces with
  | [] => simp [Json.Lexeme.joinUnits, notHigh, notLow]
  | .inl c :: rest => simp [Json.Lexeme.joinUnits, notHigh, notLow]
  | .inr next :: rest => simp [Json.Lexeme.joinUnits, notHigh, notLow]

/-- Between quotes the text is scanned as one piece, and the piece stands for the character. -/
def StandsFor (text : List Char) (c : Char) : Prop :=
  ∃ piece : Char ⊕ Nat,
    (∀ cs, Json.Lexeme.scanString (text ++ cs) =
      (Json.Lexeme.scanString cs).map fun (pieces, after) => (piece :: pieces, after)) ∧
    ∀ pieces, Json.Lexeme.joinUnits (piece :: pieces) =
      (Json.Lexeme.joinUnits pieces).map (c :: ·)

theorem standsFor_escape {e c : Char} (known : Json.Lexeme.escaped? e = some c) :
    StandsFor ['\\', e] c := by
  have notUnit : e ≠ 'u' := by
    rintro rfl
    cases known
  refine ⟨.inl c, ?_, fun _ => rfl⟩
  intro cs
  rw [List.cons_append, List.singleton_append,
    Json.Lexeme.scanString.eq_4 _ _ fun _ _ _ _ _ isUnit => absurd isUnit notUnit, known]
  cases Json.Lexeme.scanString cs <;> rfl

theorem standsFor_control {c : Char} (control : c.toNat < 0x20) :
    StandsFor ['\\', 'u', '0', '0', hexDigit (c.toNat / 16), hexDigit (c.toNat % 16)] c := by
  have zero : Json.Lexeme.hexValue? '0' = some 0 := by decide
  have unit : ((0 * 16 + 0) * 16 + c.toNat / 16) * 16 + c.toNat % 16 = c.toNat := by omega
  refine ⟨.inr c.toNat, ?_, ?_⟩
  · intro cs
    show Json.Lexeme.scanString ('\\' :: 'u' :: '0' :: '0' :: _ :: _ :: cs) = _
    rw [Json.Lexeme.scanString.eq_3, zero, hexValue?_hexDigit _ (by omega),
      hexValue?_hexDigit _ (by omega)]
    cases Json.Lexeme.scanString cs with
    | none => rfl
    | some found =>
        show some (Sum.inr (((0 * 16 + 0) * 16 + c.toNat / 16) * 16 + c.toNat % 16) :: found.1,
          found.2) = _
        rw [unit]
        rfl
  · intro pieces
    rw [joinUnits_control control, Char.ofNat_toNat]

theorem standsFor_plain {c : Char} (notQuote : c ≠ '"') (notBackslash : c ≠ '\\')
    (notControl : ¬ c.toNat < 0x20) : StandsFor [c] c := by
  have plain : ¬ (c.toNat < 0x20 || c == '\\') = true := by
    rw [decide_eq_false notControl, Bool.false_or, beq_iff_eq]
    exact notBackslash
  refine ⟨.inl c, ?_, fun _ => rfl⟩
  intro cs
  rw [List.singleton_append, Json.Lexeme.scanString.eq_5 _ _ (fun isQuote => notQuote isQuote)
    (fun _ _ _ _ _ isBackslash => absurd isBackslash notBackslash)
    (fun _ _ isBackslash => absurd isBackslash notBackslash), if_neg plain]
  cases Json.Lexeme.scanString cs <;> rfl

/-- A character that is written between quotes is read back. -/
theorem standsFor_escapeChar (c : Char) : StandsFor (escapeChar c) c := by
  have escape {e d : Char} (same : c = d) (known : Json.Lexeme.escaped? e = some d) :
      StandsFor ['\\', e] c := by
    cases same
    exact standsFor_escape known
  unfold escapeChar
  split
  · next isQuote => exact escape isQuote rfl
  split
  · next isBackslash => exact escape isBackslash rfl
  split
  · next isBackspace => exact escape isBackspace rfl
  split
  · next isFormFeed => exact escape isFormFeed rfl
  split
  · next isLineFeed => exact escape isLineFeed rfl
  split
  · next isReturn => exact escape isReturn rfl
  split
  · next isTab => exact escape isTab rfl
  split
  · next control => exact standsFor_control control
  · next notQuote notBackslash _ _ _ _ _ notControl =>
      exact standsFor_plain notQuote notBackslash notControl

/-- A text that is written as a string literal is read back. -/
theorem stringLiteral?_quote (text : String) (after : List Char) :
    stringLiteral? ((quote text).toList ++ after) = some (text, after) := by
  have contents (cs : List Char) : ∃ pieces,
      Json.Lexeme.scanString (cs.flatMap escapeChar ++ '"' :: after) = some (pieces, after) ∧
      Json.Lexeme.joinUnits pieces = some cs := by
    induction cs with
    | nil => exact ⟨[], rfl, rfl⟩
    | cons c rest ih =>
        obtain ⟨pieces, scanned, joined⟩ := ih
        obtain ⟨piece, first, join⟩ := standsFor_escapeChar c
        refine ⟨piece :: pieces, ?_, ?_⟩
        · rw [List.flatMap_cons, List.append_assoc, first, scanned]
          rfl
        · rw [join, joined]
          rfl
  obtain ⟨pieces, scanned, joined⟩ := contents text.toList
  rw [quote, String.toList_ofList, List.append_assoc, List.cons_append, List.singleton_append,
    stringLiteral?, scanned]
  simp [joined]

end ComponentGen.JavaScript
