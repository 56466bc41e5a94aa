import ComponentGen.Declaration.Token
/-!
# Cutting a text at a seam

Two texts in a row are cut into the tokens of the first and the tokens of the second, provided that
nothing at the end of the first reaches over the seam. A quote or a slash that stands alone could:
it might find its partner in the second text. So could a word, unless the second text begins with a
character that is no part of a word, and a line comment, unless it begins with a line feed.
-/

namespace ComponentGen.Declaration

/-- The token is a quote or a slash that stands alone. -/
def Token.isLoose (token : Token) : Bool :=
  ['"', '\x27', '/'].any token.isPunct

/-- No string and no comment is left open. -/
def Settled (tokens : List Token) : Prop :=
  ∀ token ∈ tokens, token.isLoose = false

/-- The text does not go on with a word that ends in front of it. -/
def Breaks (cs : List Char) : Prop :=
  ∀ c rest, cs = c :: rest → Text.isWordChar c = false

/-- What was cut from a text in front of which more white space and comments stand. -/
def pushGap (gap : List Char) : List Token × List Char → List Token × List Char
  | ([], tail) => ([], gap ++ tail)
  | (token :: rest, tail) => ({ token with gap := String.ofList gap ++ token.gap } :: rest, tail)

instance (tokens : List Token) : Decidable (Settled tokens) :=
  inferInstanceAs (Decidable (∀ token ∈ tokens, token.isLoose = false))

theorem isLoose_punct {gap : String} {c : Char} :
    (Token.mk gap (.punct c)).isLoose = (isQuote c || c == '/') := by
  simp [Token.isLoose, Token.isPunct, isQuote, Bool.or_assoc, Bool.beq_eq_decide_eq]

theorem breaks_nil : Breaks [] := by
  intro c rest isCons
  cases isCons

theorem breaks_cons {c : Char} {rest : List Char} (notWord : Text.isWordChar c = false) :
    Breaks (c :: rest) := by
  intro c' rest' isCons
  cases isCons
  exact notWord

theorem pushGap_nil (found : List Token × List Char) : pushGap [] found = found := by
  obtain ⟨tokens, tail⟩ := found
  cases tokens with
  | nil => rfl
  | cons token rest => simp [pushGap]

theorem pushGap_pushGap (front back : List Char) (found : List Token × List Char) :
    pushGap front (pushGap back found) = pushGap (front ++ back) found := by
  obtain ⟨tokens, tail⟩ := found
  cases tokens with
  | nil => simp [pushGap]
  | cons token rest => simp [pushGap, String.append_assoc]

/-! ## Gaps -/

/-- A comment that is closed stays closed at the same place. -/
theorem splitComment?_append_right {cs body after : List Char}
    (closed : splitComment? cs = some (body, after)) (ds : List Char) :
    splitComment? (cs ++ ds) = some (body, after ++ ds) := by
  fun_induction splitComment? cs generalizing body after with
  | case1 => cases closed
  | case2 rest =>
      cases closed
      rfl
  | case3 c rest notClose ih =>
      obtain ⟨⟨inner, after'⟩, found, same⟩ := Option.map_eq_some_iff.1 closed
      cases same
      have notClose' : ∀ more, c = '*' → rest ++ ds = '/' :: more → False := by
        intro more isStar isSlash
        cases rest with
        | nil => cases found
        | cons c' rest' =>
            cases isSlash
            exact notClose rest' isStar rfl
      rw [List.cons_append, splitComment?.eq_3 _ _ notClose', ih found]
      rfl

theorem splitGap_blank {c : Char} (blank : isBlank c = true) (cs : List Char) :
    splitGap (c :: cs) = (c :: (splitGap cs).1, (splitGap cs).2) := by
  have notSlash : c ≠ '/' := by
    rintro rfl
    cases blank
  rw [splitGap.eq_4 _ _ (fun _ isSlash => absurd isSlash notSlash)
    (fun _ isSlash => absurd isSlash notSlash), if_pos blank]

theorem splitGap_token {c : Char} (notBlank : isBlank c = false) (notSlash : c ≠ '/')
    (cs : List Char) : splitGap (c :: cs) = ([], c :: cs) := by
  rw [splitGap.eq_4 _ _ (fun _ isSlash => absurd isSlash notSlash)
    (fun _ isSlash => absurd isSlash notSlash), if_neg (by rw [notBlank]; exact Bool.false_ne_true)]

theorem splitGap_comment {cs body after : List Char}
    (closed : splitComment? cs = some (body, after)) :
    splitGap ('/' :: '*' :: cs) =
      ('/' :: '*' :: body ++ (splitGap after).1, (splitGap after).2) := by
  rw [splitGap.eq_3]
  split
  · next body' after' closed' =>
      rw [closed] at closed'
      cases closed'
      rfl
  · next notClosed =>
      rw [closed] at notClosed
      cases notClosed

theorem splitGap_openComment {cs : List Char} (notClosed : splitComment? cs = none) :
    splitGap ('/' :: '*' :: cs) = ([], '/' :: '*' :: cs) := by
  rw [splitGap.eq_3]
  split
  · next body after closed =>
      rw [closed] at notClosed
      cases notClosed
  · rfl

/-- A line comment that ends in front of a line feed ends there whatever follows. -/
theorem splitGap_lineComment_append {cs : List Char}
    (ends : cs.dropWhile (· != '\n') ≠ []) (ds : List Char) :
    splitGap ('/' :: '/' :: (cs ++ ds)) =
      ('/' :: '/' :: cs.takeWhile (· != '\n') ++ (splitGap (cs.dropWhile (· != '\n') ++ ds)).1,
        (splitGap (cs.dropWhile (· != '\n') ++ ds)).2) := by
  have goesOn : ¬ (cs.dropWhile (· != '\n')).isEmpty = true :=
    fun isEnd => ends (List.isEmpty_iff.1 isEnd)
  have short : ¬ (cs.takeWhile (· != '\n')).length = cs.length := by
    intro whole
    have split := List.takeWhile_append_dropWhile (p := (· != '\n')) (l := cs)
    have lengths := congrArg List.length split
    rw [List.length_append, whole] at lengths
    exact ends (List.length_eq_zero_iff.1 (by omega))
  rw [splitGap.eq_2, List.dropWhile_append, if_neg goesOn, List.takeWhile_append, if_neg short]

/-- The gap in front of a token does not depend on what follows the token, unless that is a slash
that stands alone. -/
theorem splitGap_append_of_token {cs gap rest : List Char} {c : Char}
    (found : splitGap cs = (gap, c :: rest)) (notSlash : c ≠ '/') (ds : List Char) :
    splitGap (cs ++ ds) = (gap, c :: (rest ++ ds)) := by
  -- One blank or comment at a time; only a comment that ends in `cs` can have a token behind it.
  induction cs using splitGap.induct generalizing gap with
  | case1 =>
      rw [splitGap.eq_1] at found
      cases found
  | case2 rest' ih =>
      rw [splitGap.eq_2] at found
      obtain ⟨rfl, left⟩ := Prod.mk.inj found
      have ends : rest'.dropWhile (· != '\n') ≠ [] := by
        intro isEnd
        rw [isEnd, splitGap.eq_1] at left
        cases left
      rw [List.cons_append, List.cons_append, splitGap_lineComment_append ends,
        ih (Prod.ext rfl left)]
  | case3 rest' body after closed ih =>
      rw [splitGap_comment closed] at found
      obtain ⟨rfl, left⟩ := Prod.mk.inj found
      rw [List.cons_append, List.cons_append,
        splitGap_comment (splitComment?_append_right closed ds), ih (Prod.ext rfl left)]
  | case4 rest' notClosed =>
      rw [splitGap_openComment notClosed] at found
      cases found
      exact absurd rfl notSlash
  | case5 c' rest' _ _ blank ih =>
      rw [splitGap_blank blank] at found
      obtain ⟨rfl, left⟩ := Prod.mk.inj found
      rw [List.cons_append, splitGap_blank blank, ih (Prod.ext rfl left)]
  | case6 c' rest' _ _ notBlank =>
      rw [splitGap.eq_4 _ _ ‹_› ‹_›, if_neg notBlank] at found
      cases found
      rw [List.cons_append, splitGap_token (Bool.eq_false_iff.2 notBlank) notSlash]

/-- A line feed ends whatever white space and comments stand in front of it. -/
theorem splitGap_append_newline {cs gap : List Char} (found : splitGap cs = (gap, []))
    (ds : List Char) :
    splitGap (cs ++ '\n' :: ds) =
      (gap ++ (splitGap ('\n' :: ds)).1, (splitGap ('\n' :: ds)).2) := by
  induction cs using splitGap.induct generalizing gap with
  | case1 =>
      rw [splitGap.eq_1] at found
      cases found
      rfl
  | case2 rest' ih =>
      rw [splitGap.eq_2] at found
      obtain ⟨rfl, left⟩ := Prod.mk.inj found
      by_cases isEnd : rest'.dropWhile (· != '\n') = []
      · -- The comment reaches up to the line feed at the seam.
        have whole := List.takeWhile_append_dropWhile (p := (· != '\n')) (l := rest')
        rw [isEnd, List.append_nil] at whole
        rw [List.cons_append, List.cons_append, splitGap.eq_2, List.dropWhile_append,
          List.takeWhile_append, isEnd, whole, splitGap.eq_1]
        simp
      · rw [List.cons_append, List.cons_append, splitGap_lineComment_append isEnd,
          ih (Prod.ext rfl left), List.cons_append, List.append_assoc]
        rfl
  | case3 rest' body after closed ih =>
      rw [splitGap_comment closed] at found
      obtain ⟨rfl, left⟩ := Prod.mk.inj found
      rw [List.cons_append, List.cons_append,
        splitGap_comment (splitComment?_append_right closed _), ih (Prod.ext rfl left)]
      simp
  | case4 rest' notClosed =>
      rw [splitGap_openComment notClosed] at found
      cases found
  | case5 c' rest' _ _ blank ih =>
      rw [splitGap_blank blank] at found
      obtain ⟨rfl, left⟩ := Prod.mk.inj found
      rw [List.cons_append, splitGap_blank blank, ih (Prod.ext rfl left)]
      rfl
  | case6 c' rest' _ _ notBlank =>
      rw [splitGap.eq_4 _ _ ‹_› ‹_›, if_neg notBlank] at found
      cases found

/-! ## Tokens -/

theorem splitQuoted?_plain {mark c : Char} (notBackslash : c ≠ '\\') (cs : List Char) :
    splitQuoted? mark (c :: cs) =
      if c = mark then some ([], cs)
      else (splitQuoted? mark cs).map fun (contents, after) => (c :: contents, after) := by
  rw [splitQuoted?.eq_3 _ _ _ (fun _ _ isBackslash => absurd isBackslash notBackslash),
    if_neg notBackslash]

/-- A string that is closed stays closed at the same quote. -/
theorem splitQuoted?_append_right {mark : Char} {cs contents after : List Char}
    (closed : splitQuoted? mark cs = some (contents, after)) (ds : List Char) :
    splitQuoted? mark (cs ++ ds) = some (contents, after ++ ds) := by
  induction cs using splitQuoted?.induct mark generalizing contents after with
  | case1 => cases closed
  | case2 c rest ih =>
      obtain ⟨⟨inner, after'⟩, found, same⟩ := Option.map_eq_some_iff.1 closed
      cases same
      rw [List.cons_append, List.cons_append, splitQuoted?.eq_2, ih found]
      rfl
  | case3 rest isLast =>
      rw [splitQuoted?.eq_3 _ _ _ isLast, if_pos rfl] at closed
      cases closed
  | case4 rest _ notBackslash =>
      rw [splitQuoted?_plain notBackslash, if_pos rfl] at closed
      cases closed
      rw [List.cons_append, splitQuoted?_plain notBackslash, if_pos rfl]
  | case5 c rest _ notBackslash notMark ih =>
      rw [splitQuoted?_plain notBackslash, if_neg notMark] at closed
      obtain ⟨⟨inner, after'⟩, found, same⟩ := Option.map_eq_some_iff.1 closed
      cases same
      rw [List.cons_append, splitQuoted?_plain notBackslash, if_neg notMark, ih found]
      rfl

/-- A word ends at the seam if not before. -/
theorem span_append_of_breaks {ds : List Char} (breaks : Breaks ds) (cs : List Char) :
    (cs ++ ds).takeWhile Text.isWordChar = cs.takeWhile Text.isWordChar ∧
      (cs ++ ds).dropWhile Text.isWordChar = cs.dropWhile Text.isWordChar ++ ds := by
  induction cs with
  | nil =>
      cases ds with
      | nil => exact ⟨rfl, rfl⟩
      | cons d ds =>
          have notWord : ¬ Text.isWordChar d = true := by
            rw [breaks d ds rfl]
            exact Bool.false_ne_true
          exact ⟨List.takeWhile_cons_of_neg notWord, List.dropWhile_cons_of_neg notWord⟩
  | cons c cs ih =>
      by_cases word : Text.isWordChar c = true
      · rw [List.cons_append, List.takeWhile_cons_of_pos word, List.takeWhile_cons_of_pos word,
          List.dropWhile_cons_of_pos word, List.dropWhile_cons_of_pos word, ih.1]
        exact ⟨rfl, ih.2⟩
      · rw [List.cons_append, List.takeWhile_cons_of_neg word, List.takeWhile_cons_of_neg word,
          List.dropWhile_cons_of_neg word, List.dropWhile_cons_of_neg word]
        exact ⟨rfl, rfl⟩

theorem scanToken_append_right {gap : String} {c : Char} {rest ds : List Char}
    (settled : (Token.mk gap (scanToken c rest).1).isLoose = false) (breaks : Breaks ds) :
    scanToken c (rest ++ ds) = ((scanToken c rest).1, (scanToken c rest).2 ++ ds) := by
  obtain ⟨word, after⟩ := span_append_of_breaks breaks rest
  unfold scanToken at settled ⊢
  by_cases quote : isQuote c = true
  · rw [if_pos quote] at settled
    rw [if_pos quote, if_pos quote]
    cases closed : splitQuoted? c rest with
    | none =>
        rw [closed, isLoose_punct, quote] at settled
        cases settled
    | some found => rw [splitQuoted?_append_right closed]
  · rw [if_neg quote, if_neg quote, word, after]
    split <;> rfl

/-! ## Token lists -/

theorem tokensOf_end {cs gap : List Char} (found : splitGap cs = (gap, [])) :
    tokensOf cs = ([], gap) := by
  rw [tokensOf]
  split
  · next gap' found' =>
      rw [found] at found'
      cases found'
      rfl
  · next found' =>
      rw [found] at found'
      cases found'

theorem tokensOf_step {cs gap rest : List Char} {c : Char}
    (found : splitGap cs = (gap, c :: rest)) :
    tokensOf cs =
      (⟨String.ofList gap, (scanToken c rest).1⟩ :: (tokensOf (scanToken c rest).2).1,
        (tokensOf (scanToken c rest).2).2) := by
  rw [tokensOf]
  split
  · next found' =>
      rw [found] at found'
      cases found'
  · next found' =>
      rw [found] at found'
      cases found'
      rfl

theorem tokensOf_pushGap {cs ds front : List Char}
    (found : splitGap cs = (front ++ (splitGap ds).1, (splitGap ds).2)) :
    tokensOf cs = pushGap front (tokensOf ds) := by
  cases left : (splitGap ds).2 with
  | nil =>
      rw [left] at found
      rw [tokensOf_end found, tokensOf_end (Prod.ext rfl left)]
      rfl
  | cons c rest =>
      rw [left] at found
      rw [tokensOf_step found, tokensOf_step (Prod.ext rfl left), String.ofList_append]
      rfl

/-- The text of several tokens with the gaps in front of them. -/
def joined (tokens : List Token) : String :=
  String.join (tokens.map fun token => token.gap ++ token.kind.raw)

theorem joined_cons (token : Token) (rest : List Token) :
    joined (token :: rest) = token.gap ++ token.kind.raw ++ joined rest :=
  String.join_cons

theorem joined_append (front back : List Token) :
    joined (front ++ back) = joined front ++ joined back := by
  rw [joined, List.map_append, String.join_append]
  rfl

theorem joined_eq_gap_append (token : Token) (rest : List Token) :
    joined (token :: rest) = token.gap ++ Token.sourceText (token :: rest) := by
  rw [joined_cons, Token.sourceText, String.append_assoc]
  rfl

theorem toList_tokensOf (cs : List Char) :
    (String.join ((tokensOf cs).1.map fun t => t.gap ++ t.kind.raw)).toList ++ (tokensOf cs).2 =
      cs := by
  induction cs using tokensOf.induct with
  | case1 cs gap found =>
      have whole := splitGap_append cs
      rw [found, List.append_nil] at whole
      rw [tokensOf_end found]
      exact whole
  | case2 cs gap c rest found ih =>
      have whole := splitGap_append cs
      have token := scanToken_append c rest
      rw [found] at whole
      rw [tokensOf_step found]
      dsimp only
      rw [List.map_cons, String.join_cons, String.toList_append, String.toList_append,
        String.toList_ofList, List.append_assoc, ih, List.append_assoc, token, whole]

/-- Nothing of a text is lost when it is cut into tokens. -/
theorem text_tokenize (source : String) : (tokenize source).text = source := by
  rw [← String.toList_inj, TokenStream.text, String.toList_append]
  have whole := toList_tokensOf source.toList
  rw [← String.toList_ofList (l := (tokensOf source.toList).2)] at whole
  exact whole

/-- Two texts in a row are cut one after the other, if the first one leaves no string and no comment
open, and the second one does not begin within a word or a line comment of the first. -/
theorem tokensOf_append {cs ds : List Char} (settled : Settled (tokensOf cs).1)
    (seam : (tokensOf cs).2 = [] ∧ Breaks ds ∨ ∃ rest, ds = '\n' :: rest) :
    tokensOf (cs ++ ds) =
      ((tokensOf cs).1 ++ (pushGap (tokensOf cs).2 (tokensOf ds)).1,
        (pushGap (tokensOf cs).2 (tokensOf ds)).2) := by
  have breaks : Breaks ds := by
    rcases seam with ⟨-, breaks⟩ | ⟨rest, rfl⟩
    · exact breaks
    · exact breaks_cons (by decide)
  induction cs using tokensOf.induct with
  | case1 cs gap found =>
      rw [tokensOf_end found] at seam ⊢
      refine tokensOf_pushGap ?_
      rcases seam with ⟨rfl, -⟩ | ⟨rest, rfl⟩
      · have empty := splitGap_append cs
        rw [found] at empty
        obtain rfl : [] = cs := empty
        rfl
      · exact splitGap_append_newline found rest
  | case2 cs gap c rest found ih =>
      -- The seam is behind this token, so its gap and the token itself are cut as before.
      rw [tokensOf_step found] at settled seam ⊢
      have here := settled _ List.mem_cons_self
      have notSlash : c ≠ '/' := by
        rintro rfl
        cases here
      have later := ih (fun token member => settled token (List.mem_cons_of_mem _ member)) seam
      rw [tokensOf_step (splitGap_append_of_token found notSlash ds),
        scanToken_append_right here breaks, later]
      rfl

end ComponentGen.Declaration
