import ComponentGen.Proofs.Declaration.Reading
import Mathlib.Data.List.Infix
import Mathlib.Data.List.TakeWhile
/-!
# Cutting a text without loss

A text is the gaps and the tokens of its stream in turn. What may stand in a gap and what a token of
each kind looks like is said here without the scanner: by the characters of the token and by those
on both sides of it. In particular a word is never cut in two, a string ends at the first quote that
is not escaped, and a quote or a slash stands alone only where nothing behind it makes it the start
of a string or of a comment.
-/

namespace ComponentGen.Declaration

/-- A character behind these ones is escaped: the run of backslashes in front of it is odd. -/
def EscapesNext (front : List Char) : Prop :=
  (front.reverse.takeWhile (· == '\\')).length % 2 = 1

/-- No quote of the given kind in the text is more than a part of an escape. -/
def EscapesAll (mark : Char) (cs : List Char) : Prop :=
  ∀ front back, cs = front ++ mark :: back → EscapesNext front

instance (front : List Char) : Decidable (EscapesNext front) :=
  inferInstanceAs (Decidable (_ = _))

/-- White space and comments. A line comment goes up to a line feed, or up to the end of the text if
the gap is the last one. A block comment goes up to the first `*/`. -/
inductive IsGap (last : Bool) : List Char → Prop
  | nil : IsGap last []
  | blank {c : Char} {gap : List Char} (white : c ∈ [' ', '\t', '\r', '\n'])
      (more : IsGap last gap) : IsGap last (c :: gap)
  | lineComment {text gap : List Char} (oneLine : '\n' ∉ text)
      (ends : gap.head? = some '\n' ∨ gap = [] ∧ last = true) (more : IsGap last gap) :
      IsGap last ('/' :: '/' :: (text ++ gap))
  | blockComment {text gap : List Char} (first : ¬ ['*', '/'] <:+: text)
      (more : IsGap last gap) : IsGap last ('/' :: '*' :: (text ++ ['*', '/'] ++ gap))

/-- A token of the given kind stands between these characters. -/
inductive IsLexeme (before after : List Char) : TokenKind → Prop
  | word {text : String} (nonempty : text ≠ "")
      (inside : ∀ c ∈ text.toList, Text.isWordChar c = true)
      (starts : ∀ c ∈ before.getLast?, Text.isWordChar c = false)
      (ends : ∀ c ∈ after.head?, Text.isWordChar c = false) : IsLexeme before after (.word text)
  | quoted {mark : Char} {contents : String} (isMark : mark = '"' ∨ mark = '\x27')
      (inside : EscapesAll mark contents.toList)
      (closes : ¬ EscapesNext contents.toList) : IsLexeme before after (.quoted mark contents)
  | punct {c : Char} (notWhite : c ∉ [' ', '\t', '\r', '\n'])
      (notWord : Text.isWordChar c = false)
      (unclosed : c = '"' ∨ c = '\x27' → EscapesAll c after)
      (noLine : c = '/' → after.head? ≠ some '/')
      (noBlock : c = '/' → ∀ text, after = '*' :: text → ¬ ['*', '/'] <:+: text) :
      IsLexeme before after (.punct c)

/-- The source is the gaps and the tokens of the stream in turn, each token at its byte span. -/
structure IsLossless (source : String) (stream : TokenStream) : Prop where
  whole : stream.text = source
  gaps : ∀ token ∈ stream.tokens, IsGap false token.gap.toList
  tail : IsGap true stream.tail.toList
  kinds : stream.spans.map (·.1) = stream.tokens.map (·.kind)
  lexemes : ∀ kind first last, (kind, first, last) ∈ stream.spans →
    ∃ before after : String, source = before ++ kind.raw ++ after ∧
      before.utf8ByteSize = first ∧ (before ++ kind.raw).utf8ByteSize = last ∧
      first < last ∧ IsLexeme before.toList after.toList kind
  ascending : stream.spans.Pairwise fun span next => span.2.2 ≤ next.2.1

/-! ## Gaps -/

theorem isBlank_iff {c : Char} : isBlank c = true ↔ c ∈ [' ', '\t', '\r', '\n'] := by
  simp only [isBlank, Bool.or_eq_true, beq_iff_eq, List.mem_cons, List.not_mem_nil, or_false]
  constructor
  · rintro (((blank | tab) | feed) | carriage)
    · exact .inl blank
    · exact .inr (.inl tab)
    · exact .inr (.inr (.inr feed))
    · exact .inr (.inr (.inl carriage))
  · rintro (blank | tab | carriage | feed)
    · exact .inl (.inl (.inl blank))
    · exact .inl (.inl (.inr tab))
    · exact .inr carriage
    · exact .inl (.inr feed)

/-- The closing mark of a comment is found where it comes first. -/
theorem exists_of_splitComment? {cs body after : List Char}
    (closed : splitComment? cs = some (body, after)) :
    ∃ text, body = text ++ ['*', '/'] ∧ ¬ ['*', '/'] <:+: text := by
  fun_induction splitComment? cs generalizing body after with
  | case1 => cases closed
  | case2 rest =>
      cases closed
      refine ⟨[], rfl, ?_⟩
      intro inside
      cases List.infix_nil.1 inside
  | case3 c rest notClose ih =>
      obtain ⟨⟨inner, after'⟩, found, same⟩ := Option.map_eq_some_iff.1 closed
      cases same
      obtain ⟨text, rfl, first⟩ := ih found
      refine ⟨c :: text, rfl, ?_⟩
      intro inside
      rcases List.infix_cons_iff.1 inside with here | later
      · obtain ⟨more, isHere⟩ := here
        obtain ⟨rfl, rfl⟩ := List.cons.inj isHere
        have whole := splitComment?_append found
        exact notClose _ rfl whole.symm
      · exact first later

theorem splitComment?_eq_none_iff {cs : List Char} :
    splitComment? cs = none ↔ ¬ ['*', '/'] <:+: cs := by
  fun_induction splitComment? cs with
  | case1 =>
      refine iff_of_true rfl ?_
      intro inside
      cases List.infix_nil.1 inside
  | case2 rest =>
      refine iff_of_false (Option.some_ne_none _) (not_not_intro ?_)
      exact ⟨[], rest, rfl⟩
  | case3 c rest notClose ih =>
      rw [Option.map_eq_none_iff, ih, List.infix_cons_iff, not_or]
      refine ⟨fun later => ⟨?_, later⟩, fun both => both.2⟩
      rintro ⟨more, isHere⟩
      obtain ⟨rfl, rfl⟩ := List.cons.inj isHere
      exact notClose more rfl rfl

/-- A gap is white space and comments, and only the last gap can end within a line comment. -/
theorem isGap_splitGap (cs : List Char) : IsGap (splitGap cs).2.isEmpty (splitGap cs).1 := by
  fun_induction splitGap cs with
  | case1 => exact .nil
  | case2 rest found ih =>
      refine .lineComment ?_ ?_ ih
      · intro member
        have := List.mem_takeWhile_imp member
        cases this
      · -- What is left of the line is nothing, or starts with the line feed.
        cases left : rest.dropWhile (· != '\n') with
        | nil =>
            refine .inr ?_
            simp [found, left, splitGap]
        | cons c more =>
            have isFeed : c = '\n' := by
              have stops := List.head?_dropWhile_not (· != '\n') rest
              simpa [left] using stops
            subst isFeed
            refine .inl ?_
            simp only [found, left]
            rw [splitGap_blank rfl]
            rfl
  | case3 rest body after closed found ih =>
      obtain ⟨text, rfl, first⟩ := exists_of_splitComment? closed
      exact .blockComment first ih
  | case4 => exact .nil
  | case5 c rest _ _ blank found ih => exact .blank (isBlank_iff.1 blank) ih
  | case6 => exact .nil

/-- A gap leaves neither white space nor the start of a comment in front of a token. -/
theorem token_of_splitGap {cs gap rest : List Char} {c : Char}
    (found : splitGap cs = (gap, c :: rest)) :
    isBlank c = false ∧ (c = '/' → rest.head? ≠ some '/') ∧
      (c = '/' → ∀ text, rest = '*' :: text → ¬ ['*', '/'] <:+: text) := by
  induction cs using splitGap.induct generalizing gap with
  | case1 =>
      rw [splitGap.eq_1] at found
      cases found
  | case2 rest' ih =>
      rw [splitGap.eq_2] at found
      exact ih (Prod.ext rfl (Prod.mk.inj found).2)
  | case3 rest' body after closed ih =>
      rw [splitGap_comment closed] at found
      exact ih (Prod.ext rfl (Prod.mk.inj found).2)
  | case4 rest' notClosed =>
      rw [splitGap_openComment notClosed] at found
      cases found
      refine ⟨rfl, fun _ => by simp, ?_⟩
      intro _ text isText
      cases isText
      exact splitComment?_eq_none_iff.1 notClosed
  | case5 c' rest' _ _ blank ih =>
      rw [splitGap_blank blank] at found
      exact ih (Prod.ext rfl (Prod.mk.inj found).2)
  | case6 c' rest' noLine noBlock notBlank =>
      rw [splitGap.eq_4 _ _ noLine noBlock, if_neg notBlank] at found
      cases found
      refine ⟨Bool.eq_false_iff.2 notBlank, ?_, ?_⟩
      · intro isSlash first
        cases rest with
        | nil => cases first
        | cons d more =>
            cases first
            exact noLine more isSlash rfl
      · intro isSlash text isText
        exact absurd isText (noBlock text isSlash)

/-- No word reaches out of a gap in front of a token. -/
theorem IsGap.getLast?_notWord {gap : List Char} (isGap : IsGap false gap) :
    ∀ c ∈ gap.getLast?, Text.isWordChar c = false := by
  have skip (front : List Char) {back : List Char}
      (h : ∀ c ∈ back.getLast?, Text.isWordChar c = false) (nonempty : back ≠ []) :
      ∀ c ∈ (front ++ back).getLast?, Text.isWordChar c = false := by
    rw [List.getLast?_append_of_ne_nil _ nonempty]
    exact h
  induction isGap with
  | nil =>
      intro c member
      cases member
  | @blank c gap white more ih =>
      by_cases empty : gap = []
      · subst empty
        intro d member
        obtain rfl : c = d := Option.some.inj member
        rw [List.mem_cons, List.mem_cons, List.mem_cons, List.mem_singleton] at white
        rcases white with rfl | rfl | rfl | rfl
        all_goals decide
      · exact skip [c] ih empty
  | @lineComment text gap oneLine ends more ih =>
      have nonempty : gap ≠ [] := by
        rintro rfl
        rcases ends with feed | ⟨-, isLast⟩
        · cases feed
        · cases isLast
      exact skip ('/' :: '/' :: text) ih nonempty
  | @blockComment text gap first more ih =>
      by_cases empty : gap = []
      · subst empty
        rw [List.append_nil]
        have mark : ∀ c ∈ ['*', '/'].getLast?, Text.isWordChar c = false := by
          intro c isLast
          cases isLast
          decide
        exact skip ('/' :: '*' :: text) mark (List.cons_ne_nil _ _)
      · exact skip ('/' :: '*' :: (text ++ ['*', '/'])) ih empty

/-! ## Quotes -/

/-- What is complete in itself does not escape anything behind it. -/
theorem escapesNext_append {before : List Char} (complete : ¬ EscapesNext before)
    (front : List Char) : EscapesNext (before ++ front) ↔ EscapesNext front := by
  rw [EscapesNext] at complete
  rw [EscapesNext, EscapesNext, List.reverse_append, List.takeWhile_append]
  split
  · next whole =>
      rw [List.length_append, whole]
      omega
  · rfl

theorem not_escapesNext_single {c : Char} (notBackslash : c ≠ '\\') : ¬ EscapesNext [c] := by
  rw [EscapesNext, List.reverse_singleton, List.takeWhile_cons_of_neg (by simpa using notBackslash)]
  decide

/-- A backslash and the character that it takes along are complete. -/
theorem not_escapesNext_pair (c : Char) : ¬ EscapesNext ['\\', c] := by
  by_cases backslash : c = '\\'
  · subst backslash
    decide
  · rw [← List.singleton_append, EscapesNext, List.reverse_append, List.reverse_singleton,
      List.singleton_append, List.takeWhile_cons_of_neg (by simpa using backslash)]
    decide

namespace EscapesAll

theorem nil (mark : Char) : EscapesAll mark [] := by
  intro front back isNil
  cases front <;> cases isNil

theorem append {mark : Char} {before rest : List Char} (inBefore : EscapesAll mark before)
    (complete : ¬ EscapesNext before) (inRest : EscapesAll mark rest) :
    EscapesAll mark (before ++ rest) := by
  intro front back split
  rcases List.append_eq_append_iff.1 split with ⟨more, rfl, inside⟩ | ⟨more, isBefore, isRest⟩
  · exact (escapesNext_append complete more).2 (inRest more back inside)
  · cases more with
    | nil =>
        have bare : EscapesNext [] := inRest [] back isRest.symm
        exact absurd bare (by decide)
    | cons c more =>
        obtain ⟨rfl, -⟩ := List.cons.inj isRest
        exact inBefore front more isBefore

theorem single {mark c : Char} (different : c ≠ mark) : EscapesAll mark [c] := by
  intro front back split
  cases front with
  | nil => exact absurd (List.cons.inj split).1 different
  | cons d front => cases front <;> cases (List.cons.inj split).2

/-- A quote behind a backslash is taken along by it. -/
theorem pair {mark : Char} (notBackslash : mark ≠ '\\') (c : Char) :
    EscapesAll mark ['\\', c] := by
  intro front back split
  cases front with
  | nil => exact absurd (List.cons.inj split).1.symm notBackslash
  | cons d front =>
      obtain ⟨rfl, later⟩ := List.cons.inj split
      cases front with
      | nil => decide
      | cons e front => cases front <;> cases (List.cons.inj later).2

end EscapesAll

/-- The contents of a string end at the first quote that is not escaped. -/
theorem escapes_of_splitQuoted? {mark : Char} (notBackslash : mark ≠ '\\')
    {cs contents after : List Char} (closed : splitQuoted? mark cs = some (contents, after)) :
    EscapesAll mark contents ∧ ¬ EscapesNext contents := by
  induction cs using splitQuoted?.induct mark generalizing contents after with
  | case1 => cases closed
  | case2 c rest ih =>
      obtain ⟨⟨inner, after'⟩, found, same⟩ := Option.map_eq_some_iff.1 closed
      cases same
      obtain ⟨inside, complete⟩ := ih found
      have escape := not_escapesNext_pair c
      refine ⟨(EscapesAll.pair notBackslash c).append escape inside, ?_⟩
      exact mt (escapesNext_append escape inner).1 complete
  | case3 rest isLast =>
      rw [splitQuoted?.eq_3 _ _ _ isLast, if_pos rfl] at closed
      cases closed
  | case4 rest _ _ =>
      rw [splitQuoted?_plain notBackslash, if_pos rfl] at closed
      cases closed
      exact ⟨.nil mark, by decide⟩
  | case5 c rest _ notHere different ih =>
      rw [splitQuoted?_plain notHere, if_neg different] at closed
      obtain ⟨⟨inner, after'⟩, found, same⟩ := Option.map_eq_some_iff.1 closed
      cases same
      obtain ⟨inside, complete⟩ := ih found
      have plain := not_escapesNext_single notHere
      refine ⟨(EscapesAll.single different).append plain inside, ?_⟩
      exact mt (escapesNext_append plain inner).1 complete

/-- A quote stands alone only where all quotes behind it are escaped. -/
theorem escapesAll_of_splitQuoted?_eq_none {mark : Char} (notBackslash : mark ≠ '\\')
    {cs : List Char} (notClosed : splitQuoted? mark cs = none) : EscapesAll mark cs := by
  induction cs using splitQuoted?.induct mark with
  | case1 => exact .nil mark
  | case2 c rest ih =>
      rw [splitQuoted?.eq_2, Option.map_eq_none_iff] at notClosed
      exact (EscapesAll.pair notBackslash c).append (not_escapesNext_pair c) (ih notClosed)
  | case3 rest isLast =>
      cases rest with
      | nil => exact .single (Ne.symm notBackslash)
      | cons c more => exact absurd rfl (isLast c more rfl)
  | case4 rest _ _ =>
      rw [splitQuoted?_plain notBackslash, if_pos rfl] at notClosed
      cases notClosed
  | case5 c rest _ notHere different ih =>
      rw [splitQuoted?_plain notHere, if_neg different, Option.map_eq_none_iff] at notClosed
      exact (EscapesAll.single different).append (not_escapesNext_single notHere) (ih notClosed)

/-! ## Tokens -/

theorem isQuote_iff {c : Char} : isQuote c = true ↔ c = '"' ∨ c = '\x27' := by
  rw [isQuote, Bool.or_eq_true, beq_iff_eq, beq_iff_eq]

/-- What is scanned behind a gap has the form of a token of its kind. -/
theorem isLexeme_scanToken {before cs gap rest : List Char} {c : Char}
    (found : splitGap cs = (gap, c :: rest))
    (seam : ∀ d ∈ before.getLast?, Text.isWordChar d = true → Text.isWordChar c = false) :
    IsLexeme before (scanToken c rest).2 (scanToken c rest).1 := by
  obtain ⟨notBlank, noLine, noBlock⟩ := token_of_splitGap found
  have notWhite : c ∉ [' ', '\t', '\r', '\n'] := by
    rw [← isBlank_iff, notBlank]
    exact Bool.false_ne_true
  unfold scanToken
  split
  · next quote =>
      have notBackslash : c ≠ '\\' := by
        rintro rfl
        exact absurd quote (by decide)
      split
      · next contents after closed =>
          obtain ⟨inside, closes⟩ := escapes_of_splitQuoted? notBackslash closed
          refine .quoted (isQuote_iff.1 quote) ?_ ?_
          · rwa [String.toList_ofList]
          · rwa [String.toList_ofList]
      · next notClosed =>
          refine .punct notWhite ?_ ?_ noLine noBlock
          · rcases isQuote_iff.1 quote with rfl | rfl
            all_goals decide
          · exact fun _ => escapesAll_of_splitQuoted?_eq_none notBackslash notClosed
  · next notQuote =>
      split
      · next isWord =>
          refine .word ?_ ?_ ?_ ?_
          · simp
          · intro d member
            rw [String.toList_ofList] at member
            rcases List.mem_cons.1 member with rfl | later
            · exact isWord
            · exact List.mem_takeWhile_imp later
          · intro d member
            cases word : Text.isWordChar d with
            | false => rfl
            | true =>
                rw [seam d member word] at isWord
                cases isWord
          · intro d member
            have stops := List.head?_dropWhile_not Text.isWordChar rest
            rw [Option.mem_def.1 member] at stops
            simpa using stops
      · next notWord =>
          refine .punct notWhite (Bool.eq_false_iff.2 notWord) ?_ noLine noBlock
          intro quote
          exact absurd (isQuote_iff.2 quote) notQuote

namespace IsLexeme

variable {before after : List Char} {kind : TokenKind} (lexeme : IsLexeme before after kind)

include lexeme

theorem raw_ne_empty : kind.raw ≠ "" := by
  cases lexeme with
  | word nonempty => exact nonempty
  | quoted => simp [TokenKind.raw]
  | punct => simp [TokenKind.raw]

/-- A word does not go on behind its token. -/
theorem breaks : ∀ c ∈ kind.raw.toList.getLast?, Text.isWordChar c = true → Breaks after := by
  intro c member isWord
  cases lexeme with
  | word nonempty inside starts ends =>
      intro d rest isAfter
      subst isAfter
      exact ends d rfl
  | @quoted mark contents isMark =>
      have isLast : mark = c := by simpa [TokenKind.raw, List.getLast?_cons] using member
      subst isLast
      rcases isMark with rfl | rfl
      all_goals exact absurd isWord (by decide)
  | @punct d notWhite notWord =>
      have isLast : d = c := by simpa [TokenKind.raw] using member
      subst isLast
      rw [notWord] at isWord
      cases isWord

end IsLexeme

theorem gaps_tokensOf (cs : List Char) :
    (∀ token ∈ (tokensOf cs).1, IsGap false token.gap.toList) ∧ IsGap true (tokensOf cs).2 := by
  induction cs using tokensOf.induct with
  | case1 cs gap found =>
      have isGap := isGap_splitGap cs
      rw [found] at isGap
      rw [tokensOf_end found]
      exact ⟨fun token member => absurd member List.not_mem_nil, isGap⟩
  | case2 cs gap c rest found ih =>
      have isGap := isGap_splitGap cs
      rw [found] at isGap
      rw [tokensOf_step found]
      refine ⟨?_, ih.2⟩
      intro token member
      rcases List.mem_cons.1 member with rfl | later
      · rw [String.toList_ofList]
        exact isGap
      · exact ih.1 token later

/-- Each token stands at its bytes in the text, and has the form of a token of its kind there. -/
theorem lexemes_tokensOf {before : String} {cs : List Char}
    (seam : ∀ c ∈ before.toList.getLast?, Text.isWordChar c = true → Breaks cs)
    {span : TokenKind × Nat × Nat}
    (member : span ∈ Token.spans before.utf8ByteSize (tokensOf cs).1) :
    ∃ front back : String, before ++ String.ofList cs = front ++ span.1.raw ++ back ∧
      front.utf8ByteSize = span.2.1 ∧ (front ++ span.1.raw).utf8ByteSize = span.2.2 ∧
      IsLexeme front.toList back.toList span.1 := by
  induction cs using tokensOf.induct generalizing before with
  | case1 cs gap found =>
      rw [tokensOf_end found] at member
      cases member
  | case2 cs gap c rest found ih =>
      have whole := splitGap_append cs
      rw [found] at whole
      -- In front of the token no word is under way, whether or not there is a gap.
      have seamHere : ∀ d ∈ (before ++ String.ofList gap).toList.getLast?,
          Text.isWordChar d = true → Text.isWordChar c = false := by
        intro d isLast isWord
        rw [String.toList_append, String.toList_ofList] at isLast
        by_cases empty : gap = []
        · subst empty
          rw [List.append_nil] at isLast
          exact seam d isLast isWord c rest whole.symm
        · rw [List.getLast?_append_of_ne_nil _ empty] at isLast
          have isGap := isGap_splitGap cs
          rw [found] at isGap
          rw [isGap.getLast?_notWord d isLast] at isWord
          cases isWord
      have lexeme := isLexeme_scanToken found seamHere
      have raw := scanToken_append c rest
      generalize kind_eq : (scanToken c rest).1 = kind at lexeme raw
      have text : before ++ String.ofList cs = before ++ String.ofList gap ++ kind.raw ++
          String.ofList (scanToken c rest).2 := by
        rw [← String.toList_inj]
        simp only [String.toList_append, String.toList_ofList, List.append_assoc]
        rw [raw, whole]
      rw [tokensOf_step found, kind_eq, Token.spans] at member
      rcases List.mem_cons.1 member with rfl | later
      · refine ⟨before ++ String.ofList gap, String.ofList (scanToken c rest).2, text, ?_, ?_, ?_⟩
        · rw [String.utf8ByteSize_append]
        · rw [String.utf8ByteSize_append, String.utf8ByteSize_append]
        · rwa [String.toList_ofList]
      · rw [← String.utf8ByteSize_append, ← String.utf8ByteSize_append] at later
        rw [text]
        refine ih ?_ later
        intro d isLast isWord
        rw [String.toList_append, List.getLast?_append_of_ne_nil] at isLast
        · exact lexeme.breaks d isLast isWord
        · exact mt String.toList_eq_nil_iff.1 lexeme.raw_ne_empty

theorem spans_ascending (start : Nat) (tokens : List Token) :
    (∀ span ∈ Token.spans start tokens, start ≤ span.2.1 ∧ span.2.1 ≤ span.2.2) ∧
      (Token.spans start tokens).Pairwise fun span next => span.2.2 ≤ next.2.1 := by
  induction tokens generalizing start with
  | nil => exact ⟨fun span member => absurd member List.not_mem_nil, .nil⟩
  | cons token rest ih =>
      obtain ⟨inside, ascending⟩ :=
        ih (start + token.gap.utf8ByteSize + token.kind.raw.utf8ByteSize)
      rw [Token.spans]
      refine ⟨?_, List.pairwise_cons.2 ⟨fun next member => (inside next member).1, ascending⟩⟩
      intro span member
      rcases List.mem_cons.1 member with rfl | later
      · dsimp only
        omega
      · have := inside span later
        omega

theorem kinds_spans (start : Nat) (tokens : List Token) :
    (Token.spans start tokens).map (·.1) = tokens.map (·.kind) := by
  induction tokens generalizing start with
  | nil => rfl
  | cons token rest ih => rw [Token.spans, List.map_cons, ih, List.map_cons]

/-- Every text is cut into tokens without loss, up to its end. -/
theorem isLossless_tokenize (source : String) : IsLossless source (tokenize source) where
  whole := text_tokenize source
  gaps := (gaps_tokensOf source.toList).1
  tail := by
    rw [tokenize, String.toList_ofList]
    exact (gaps_tokensOf source.toList).2
  kinds := kinds_spans 0 (tokenize source).tokens
  lexemes := by
    intro kind first last member
    have seam : ∀ c ∈ "".toList.getLast?, Text.isWordChar c = true → Breaks source.toList := by
      intro c isLast
      cases isLast
    obtain ⟨before, after, whole, begins, ends, lexeme⟩ := lexemes_tokensOf seam member
    rw [String.empty_append, String.ofList_toList] at whole
    refine ⟨before, after, whole, begins, ends, ?_, lexeme⟩
    have size : kind.raw.utf8ByteSize ≠ 0 :=
      mt String.utf8ByteSize_eq_zero_iff.1 lexeme.raw_ne_empty
    rw [String.utf8ByteSize_append] at ends
    dsimp only at begins ends
    omega
  ascending := (spans_ascending 0 (tokenize source).tokens).2

end ComponentGen.Declaration
