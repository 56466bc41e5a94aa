import ComponentGen.Proofs.Declaration.Seam
import ComponentGen.Proofs.JavaScript.Identifiers
import Mathlib.Data.List.Basic
import Mathlib.Data.List.TakeWhile
/-!
# Reading a text piece by piece

A text that is put together from pieces is cut into the tokens of the pieces. There is one rule for
each kind of piece: white space, a word, a punctuation character and a name between quotes.
-/

namespace ComponentGen.Declaration

/-- A run of word characters that is not empty. -/
def IsWord (text : String) : Prop :=
  text ≠ "" ∧ text.toList.all Text.isWordChar = true

/-- A name that is written between quotes as it is. -/
def QuotesPlainly (name : String) : Prop :=
  ∀ c ∈ name.toList, c ≠ '"' ∧ c ≠ '\\' ∧ 0x20 ≤ c.toNat

instance (text : String) : Decidable (IsWord text) :=
  inferInstanceAs (Decidable (_ ∧ _))

instance (name : String) : Decidable (QuotesPlainly name) :=
  List.decidableBAll _ name.toList

/-- The text is cut into these tokens, up to its end. -/
structure Reads (cs : List Char) (tokens : List Token) : Prop where
  cut : tokensOf cs = (tokens, [])
  settled : Settled tokens

/-! ## Characters -/

theorem isWordChar_of_isIdentifierPart {c : Char} (part : JavaScript.isIdentifierPart c = true) :
    Text.isWordChar c = true := by
  rw [JavaScript.isIdentifierPart, Bool.or_assoc, Bool.or_eq_true] at part
  rw [Text.isWordChar, Bool.or_assoc, Bool.or_eq_true]
  refine part.imp_left fun alphanum => ?_
  rw [Text.isAlphanumeric, if_pos (Text.ascii_of_isAlphanum alphanum)]
  exact alphanum

theorem isWord_of_isIdentifier {name : String} (bare : JavaScript.isIdentifier name = true) :
    IsWord name := by
  constructor
  · rintro rfl
    cases bare
  · rw [List.all_eq_true]
    intro c member
    exact isWordChar_of_isIdentifierPart (JavaScript.isIdentifierPart_of_mem bare member)

theorem separators_of_isWordChar {c : Char} (isWord : Text.isWordChar c = true) :
    isBlank c = false ∧ isQuote c = false ∧ c ≠ '/' := by
  have different (d : Char) (notWord : Text.isWordChar d = false) : (c == d) = false :=
    beq_false_of_ne (Text.ne_of_kind isWord notWord)
  refine ⟨?_, ?_, Text.ne_of_kind isWord (by decide)⟩
  · rw [isBlank, different ' ' (by decide), different '\t' (by decide),
      different '\n' (by decide), different '\r' (by decide)]
    rfl
  · rw [isQuote, different '"' (by decide), different '\x27' (by decide)]
    rfl

theorem isWordChar_of_isBlank {c : Char} (blank : isBlank c = true) :
    Text.isWordChar c = false := by
  rw [Bool.eq_false_iff]
  intro isWord
  rw [(separators_of_isWordChar isWord).1] at blank
  cases blank

theorem escapeChar_of_plain {c : Char} (plain : c ≠ '"' ∧ c ≠ '\\' ∧ 0x20 ≤ c.toNat) :
    JavaScript.escapeChar c = [c] := by
  obtain ⟨notQuote, notBackslash, notControl⟩ := plain
  have different (d : Char) (control : d.toNat < 0x20) : c ≠ d := by
    rintro rfl
    omega
  rw [JavaScript.escapeChar, if_neg notQuote, if_neg notBackslash,
    if_neg (different '\x08' (by decide)), if_neg (different '\x0c' (by decide)),
    if_neg (different '\n' (by decide)), if_neg (different '\r' (by decide)),
    if_neg (different '\t' (by decide)), if_neg (by omega)]

theorem toList_quote {name : String} (plain : QuotesPlainly name) :
    (JavaScript.quote name).toList = '"' :: (name.toList ++ ['"']) := by
  have asWritten : name.toList.flatMap JavaScript.escapeChar = name.toList := by
    calc name.toList.flatMap JavaScript.escapeChar
        = name.toList.flatMap fun c => [c] :=
          List.flatMap_congr fun c member => escapeChar_of_plain (plain c member)
      _ = name.toList := List.flatMap_singleton' _
  rw [JavaScript.quote, String.toList_ofList, asWritten]
  rfl

theorem splitQuoted?_of_plain {contents : List Char}
    (plain : ∀ c ∈ contents, c ≠ '"' ∧ c ≠ '\\') :
    splitQuoted? '"' (contents ++ ['"']) = some (contents, []) := by
  induction contents with
  | nil => rfl
  | cons c contents ih =>
      obtain ⟨notMark, notBackslash⟩ := plain c List.mem_cons_self
      have later := ih fun c' member => plain c' (List.mem_cons_of_mem c member)
      rw [List.cons_append, splitQuoted?_plain notBackslash, if_neg notMark, later]
      rfl

/-! ## Pieces -/

namespace Reads

theorem nil : Reads [] [] where
  cut := by
    rw [tokensOf_end]
    rw [splitGap]
  settled := by
    intro token member
    cases member

theorem append {cs ds : List Char} {first second : List Token} (front : Reads cs first)
    (back : Reads ds second) (breaks : Breaks ds) : Reads (cs ++ ds) (first ++ second) where
  cut := by
    have settled : Settled (tokensOf cs).1 := by
      rw [front.cut]
      exact front.settled
    have ends : (tokensOf cs).2 = [] := by rw [front.cut]
    rw [tokensOf_append settled (.inl ⟨ends, breaks⟩), ends, pushGap_nil, front.cut, back.cut]
  settled := by
    intro token member
    rcases List.mem_append.1 member with inFirst | inSecond
    · exact front.settled token inFirst
    · exact back.settled token inSecond

theorem blank {gap cs : List Char} {tokens : List Token} (blanks : gap.all isBlank = true)
    (reads : Reads cs tokens) (some_token : tokens ≠ []) :
    Reads (gap ++ cs) (pushGap gap (tokens, [])).1 where
  cut := by
    have found : splitGap (gap ++ cs) = (gap ++ (splitGap cs).1, (splitGap cs).2) := by
      induction gap with
      | nil => rfl
      | cons c gap ih =>
          rw [List.all_cons, Bool.and_eq_true] at blanks
          rw [List.cons_append, splitGap_blank blanks.1, ih blanks.2]
          rfl
    rw [tokensOf_pushGap found, reads.cut]
    cases tokens with
    | nil => exact absurd rfl some_token
    | cons token rest => rfl
  settled := by
    cases tokens with
    | nil => exact absurd rfl some_token
    | cons token rest =>
        intro other member
        rcases List.mem_cons.1 member with rfl | inRest
        · exact reads.settled token List.mem_cons_self
        · exact reads.settled other (List.mem_cons_of_mem _ inRest)

/-- A token in front of a text that is read by itself. -/
theorem cons {c : Char} {rest after : List Char} {kind : TokenKind} {tokens : List Token}
    (notBlank : isBlank c = false) (notSlash : c ≠ '/')
    (scanned : scanToken c rest = (kind, after)) (settled : (Token.mk "" kind).isLoose = false)
    (reads : Reads after tokens) : Reads (c :: rest) (⟨"", kind⟩ :: tokens) where
  cut := by
    rw [tokensOf_step (splitGap_token notBlank notSlash rest), scanned, reads.cut]
  settled := by
    intro token member
    rcases List.mem_cons.1 member with rfl | inRest
    · exact settled
    · exact reads.settled token inRest

/-- A token that is scanned up to the end of the text. -/
theorem single {c : Char} {rest : List Char} {kind : TokenKind} (notBlank : isBlank c = false)
    (notSlash : c ≠ '/') (scanned : scanToken c rest = (kind, []))
    (settled : (Token.mk "" kind).isLoose = false) : Reads (c :: rest) [⟨"", kind⟩] :=
  cons notBlank notSlash scanned settled nil

/-- Punctuation does not depend on what follows it. -/
theorem cons_punct {c : Char} (notBlank : isBlank c = false) (notQuote : isQuote c = false)
    (notWord : Text.isWordChar c = false) (notSlash : c ≠ '/') {cs : List Char}
    {tokens : List Token} (reads : Reads cs tokens) :
    Reads (c :: cs) (⟨"", .punct c⟩ :: tokens) := by
  refine cons notBlank notSlash ?_ ?_ reads
  · rw [scanToken, if_neg (by rw [notQuote]; exact Bool.false_ne_true),
      if_neg (by rw [notWord]; exact Bool.false_ne_true)]
  · rw [isLoose_punct, notQuote, beq_false_of_ne notSlash]
    rfl

theorem punct {c : Char} (notBlank : isBlank c = false) (notQuote : isQuote c = false)
    (notWord : Text.isWordChar c = false) (notSlash : c ≠ '/') :
    Reads [c] [⟨"", .punct c⟩] :=
  cons_punct notBlank notQuote notWord notSlash nil

theorem word {name : String} (word : IsWord name) :
    Reads name.toList [⟨"", .word name⟩] := by
  obtain ⟨nonempty, wordChars⟩ := word
  cases chars : name.toList with
  | nil => exact absurd (String.toList_eq_nil_iff.1 chars) nonempty
  | cons c rest =>
      rw [chars, List.all_cons, Bool.and_eq_true, List.all_eq_true] at wordChars
      obtain ⟨isWord, allWord⟩ := wordChars
      obtain ⟨notBlank, notQuote, notSlash⟩ := separators_of_isWordChar isWord
      have scanned : scanToken c rest = (.word name, []) := by
        rw [scanToken, if_neg (by rw [notQuote]; exact Bool.false_ne_true), if_pos isWord,
          List.takeWhile_eq_self_iff.2 allWord, List.dropWhile_eq_nil_iff.2 allWord, ← chars,
          String.ofList_toList]
      exact single notBlank notSlash scanned rfl

theorem quoted {name : String} (plain : QuotesPlainly name) :
    Reads (JavaScript.quote name).toList [⟨"", .quoted '"' name⟩] := by
  have closed : splitQuoted? '"' (name.toList ++ ['"']) = some (name.toList, []) :=
    splitQuoted?_of_plain fun c member => ⟨(plain c member).1, (plain c member).2.1⟩
  have scanned : scanToken '"' (name.toList ++ ['"']) = (.quoted '"' name, []) := by
    have isMark : isQuote '"' = true := rfl
    rw [scanToken, if_pos isMark, closed]
    dsimp only
    rw [String.ofList_toList]
  rw [toList_quote plain]
  exact single rfl (by decide) scanned rfl

/-- An object key can be read back whether or not it is quoted. -/
theorem propertyKey {name : String} (plain : QuotesPlainly name) :
    ∃ kind : TokenKind, kind.name? = some name ∧
      Reads (JavaScript.propertyKey name).toList [⟨"", kind⟩] := by
  by_cases bare : JavaScript.isIdentifier name = true
  · rw [JavaScript.propertyKey, if_pos bare]
    exact ⟨.word name, rfl, word (isWord_of_isIdentifier bare)⟩
  · rw [JavaScript.propertyKey, if_neg bare]
    exact ⟨.quoted '"' name, rfl, quoted plain⟩

end Reads

end ComponentGen.Declaration
