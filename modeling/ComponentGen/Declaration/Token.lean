import ComponentGen.Text.WordChar
/-!
# Tokens of declaration text

Declaration text is cut into words, quoted strings and single punctuation characters. White space
and comments between tokens are not thrown away: each token carries the gap in front of it, and a
token stream carries the gap at its end, so a stream determines its text. Positions of tokens are
derived from that and not stored.
-/

namespace ComponentGen.Declaration

/-- What a token is. -/
inductive TokenKind where
  /-- A run of word characters. -/
  | word (text : String)
  /-- The contents of a quoted string, as written, and the quote around it. -/
  | quoted (mark : Char) (contents : String)
  /-- Any other character. -/
  | punct (c : Char)
deriving DecidableEq, Repr

/-- A token and the white space and comments in front of it. -/
structure Token where
  gap : String
  kind : TokenKind
deriving DecidableEq, Repr

/-- The tokens of a text and what follows the last one. -/
structure TokenStream where
  tokens : List Token
  tail : String
deriving DecidableEq, Repr

namespace TokenKind

/-- The token as it stands in the text. -/
def raw : TokenKind → String
  | word text => text
  | quoted mark contents => String.ofList (mark :: contents.toList ++ [mark])
  | punct c => String.ofList [c]

/-- The word or string contents, if the token can name a member. -/
def name? : TokenKind → Option String
  | word text => some text
  | quoted _ contents => some contents
  | punct _ => none

end TokenKind

namespace Token

/-- The token is the given punctuation character. -/
def isPunct (token : Token) (c : Char) : Bool :=
  token.kind == .punct c

/-- The token is the given word. -/
def isWord (token : Token) (word : String) : Bool :=
  token.kind == .word word

/-- The word or string contents, if the token can name a member. -/
def name? (token : Token) : Option String :=
  token.kind.name?

/-- The source text from the first to the last of several tokens that follow each other: the gaps
between them are kept, the gap in front of the first is not. -/
def sourceText : List Token → String
  | [] => ""
  | token :: rest => token.kind.raw ++ String.join (rest.map fun t => t.gap ++ t.kind.raw)

/-- The tokens with their first and last byte positions, the last one excluded, when the first
gap starts at the byte `start`. -/
def spans (start : Nat) : List Token → List (TokenKind × Nat × Nat)
  | [] => []
  | token :: rest =>
    let first := start + token.gap.utf8ByteSize
    let last := first + token.kind.raw.utf8ByteSize
    (token.kind, first, last) :: spans last rest

end Token

namespace TokenStream

/-- The text that a stream was cut from. -/
def text (stream : TokenStream) : String :=
  String.join (stream.tokens.map fun t => t.gap ++ t.kind.raw) ++ stream.tail

/-- The tokens with their byte positions in the text. -/
def spans (stream : TokenStream) : List (TokenKind × Nat × Nat) :=
  Token.spans 0 stream.tokens

end TokenStream

/-! ## Gaps -/

/-- White space between tokens. -/
def isBlank (c : Char) : Bool :=
  c == ' ' || c == '\t' || c == '\n' || c == '\r'

/-- The text up to and including the first `*/`, and what follows it. -/
def splitComment? : List Char → Option (List Char × List Char)
  | [] => none
  | '*' :: '/' :: rest => some (['*', '/'], rest)
  | c :: rest => (splitComment? rest).map fun (body, after) => (c :: body, after)

/-- Nothing is lost between a comment and the rest. -/
theorem splitComment?_append {cs body after : List Char}
    (found : splitComment? cs = some (body, after)) : body ++ after = cs := by
  fun_induction splitComment? cs generalizing body after with
  | case1 => simp at found
  | case2 rest =>
    simp only [Option.some.injEq, Prod.mk.injEq] at found
    obtain ⟨rfl, rfl⟩ := found
    rfl
  | case3 c rest _ ih =>
    simp only [Option.map_eq_some_iff, Prod.mk.injEq] at found
    obtain ⟨⟨body', after'⟩, inner, rfl, rfl⟩ := found
    simp [ih inner]

/-- The rest after a block comment is no longer than the text. -/
theorem length_splitComment? {cs body after : List Char}
    (found : splitComment? cs = some (body, after)) : after.length ≤ cs.length := by
  rw [← splitComment?_append found]
  simp

/-- The white space and comments at the front of a text, and what follows them. A line comment
ends in front of the line feed; a block comment that is never closed is no comment. -/
def splitGap : List Char → List Char × List Char
  | [] => ([], [])
  | '/' :: '/' :: rest =>
    let found := splitGap (rest.dropWhile (· != '\n'))
    ('/' :: '/' :: rest.takeWhile (· != '\n') ++ found.1, found.2)
  | '/' :: '*' :: rest =>
    match _closed : splitComment? rest with
    | some (body, after) =>
      let found := splitGap after
      ('/' :: '*' :: body ++ found.1, found.2)
    | none => ([], '/' :: '*' :: rest)
  | c :: rest =>
    if isBlank c then
      let found := splitGap rest
      (c :: found.1, found.2)
    else ([], c :: rest)
termination_by cs => cs.length
decreasing_by
  · have := (List.dropWhile_sublist (l := rest) (· != '\n')).length_le
    simp only [List.length_cons]
    omega
  · have := length_splitComment? _closed
    simp only [List.length_cons]
    omega
  · simp

/-- Nothing is lost between a gap and the rest. -/
theorem splitGap_append (cs : List Char) : (splitGap cs).1 ++ (splitGap cs).2 = cs := by
  fun_induction splitGap cs with
  | case1 => rfl
  | case2 rest found ih => simp [found, ih, List.takeWhile_append_dropWhile]
  | case3 rest body after closed found ih =>
    simp [found, ih, splitComment?_append closed]
  | case4 => rfl
  | case5 c rest _ _ _ found ih => simp [found, ih]
  | case6 => rfl

/-- What follows a gap is no longer than the text. -/
theorem length_splitGap (cs : List Char) : (splitGap cs).2.length ≤ cs.length := by
  have whole := congrArg List.length (splitGap_append cs)
  simp only [List.length_append] at whole
  omega

/-! ## Tokens -/

/-- The contents of a quoted string up to its closing quote, as written, and what follows the
quote. A backslash takes the character after it along. -/
def splitQuoted? (mark : Char) : List Char → Option (List Char × List Char)
  | [] => none
  | '\\' :: c :: rest =>
    (splitQuoted? mark rest).map fun (contents, after) => ('\\' :: c :: contents, after)
  | c :: rest =>
    if c = '\\' then none
    else if c = mark then some ([], rest)
    else (splitQuoted? mark rest).map fun (contents, after) => (c :: contents, after)

/-- Nothing is lost between the contents, the closing quote and the rest. -/
theorem splitQuoted?_append {mark : Char} {cs contents after : List Char}
    (found : splitQuoted? mark cs = some (contents, after)) :
    contents ++ mark :: after = cs := by
  fun_induction splitQuoted? mark cs generalizing contents after with
  | case1 => simp at found
  | case2 c rest ih =>
    simp only [Option.map_eq_some_iff, Prod.mk.injEq] at found
    obtain ⟨⟨contents', after'⟩, inner, rfl, rfl⟩ := found
    simp [ih inner]
  | case3 => simp at found
  | case4 rest _ _ =>
    simp only [Option.some.injEq, Prod.mk.injEq] at found
    obtain ⟨rfl, rfl⟩ := found
    rfl
  | case5 c rest _ _ _ ih =>
    simp only [Option.map_eq_some_iff, Prod.mk.injEq] at found
    obtain ⟨⟨contents', after'⟩, inner, rfl, rfl⟩ := found
    simp [ih inner]

/-- A character that can open and close a quoted string. -/
def isQuote (c : Char) : Bool :=
  c == '"' || c == '\x27'

/-- The token that starts with the character `c`, where `rest` follows `c`, and what follows the
token. A quote that is never closed is punctuation. -/
def scanToken (c : Char) (rest : List Char) : TokenKind × List Char :=
  if isQuote c then
    match splitQuoted? c rest with
    | some (contents, after) => (.quoted c (String.ofList contents), after)
    | none => (.punct c, rest)
  else if Text.isWordChar c then
    (.word (String.ofList (c :: rest.takeWhile Text.isWordChar)), rest.dropWhile Text.isWordChar)
  else (.punct c, rest)

/-- Nothing is lost between a token and the rest. -/
theorem scanToken_append (c : Char) (rest : List Char) :
    (scanToken c rest).1.raw.toList ++ (scanToken c rest).2 = c :: rest := by
  unfold scanToken
  split
  · split
    · rename_i contents after found
      simp [TokenKind.raw, splitQuoted?_append found]
    · simp [TokenKind.raw]
  · split
    · simp [TokenKind.raw, List.takeWhile_append_dropWhile]
    · simp [TokenKind.raw]

/-- What follows a token is shorter than the text from the token on. -/
theorem length_scanToken (c : Char) (rest : List Char) :
    (scanToken c rest).2.length ≤ rest.length := by
  unfold scanToken
  split
  · split
    · rename_i contents after found
      have whole := congrArg List.length (splitQuoted?_append found)
      simp only [List.length_append, List.length_cons] at whole
      simp
      omega
    · simp
  · split
    · exact (List.dropWhile_sublist _).length_le
    · simp

/-- The tokens of a text and its last gap. -/
def tokensOf (cs : List Char) : List Token × List Char :=
  match _split : splitGap cs with
  | (gap, []) => ([], gap)
  | (gap, c :: rest) =>
    let found := tokensOf (scanToken c rest).2
    (⟨String.ofList gap, (scanToken c rest).1⟩ :: found.1, found.2)
termination_by cs.length
decreasing_by
  have short := length_splitGap cs
  have shorter := length_scanToken c rest
  rw [_split] at short
  simp only [List.length_cons] at short
  omega

/-- Cut a text into tokens. -/
def tokenize (source : String) : TokenStream :=
  let found := tokensOf source.toList
  ⟨found.1, String.ofList found.2⟩

end ComponentGen.Declaration
