import ComponentGen.Proofs.Declaration.Positions.Basic
import ComponentGen.Proofs.Declaration.Seam
/-!
# Ranges of positions

A range of positions stands for the tokens in it. Taking a token from the front of the list is
moving on by one position, and splitting the list is splitting the range. The text between two
positions is the source text of the tokens between them: bytes of tokens are bytes where characters
begin or end, and a token does not end before it begins.
-/

namespace ComponentGen.Declaration.Positions

theorem bind_of_ok {α β : Type} {step : Except Fault α} {result : α} (succeeds : step = .ok result)
    (next : α → Except Fault β) : (step >>= next) = next result := by
  rw [succeeds]
  rfl

/-- The tokens from `first` up to `last`, the last one excluded. -/
def Window (tokens : List Token) (first last : Nat) (inside : List Token) : Prop :=
  ∃ before after, tokens = before ++ inside ++ after ∧ before.length = first ∧
    first + inside.length = last

namespace Window

variable {tokens : List Token} {first last : Nat}

theorem whole (tokens : List Token) : Window tokens 0 tokens.length tokens :=
  ⟨[], [], by simp, rfl, Nat.zero_add _⟩

theorem length {inside : List Token} (window : Window tokens first last inside) :
    first + inside.length = last := by
  obtain ⟨-, -, -, -, size⟩ := window
  exact size

/-- The window behind the tokens in front. -/
theorem behind {front back : List Token} (window : Window tokens first last (front ++ back)) :
    Window tokens (first + front.length) last back := by
  obtain ⟨before, after, rfl, rfl, rfl⟩ := window
  refine ⟨before ++ front, after, ?_, ?_, ?_⟩
  · simp only [List.append_assoc]
  · exact List.length_append
  · rw [List.length_append, Nat.add_assoc]

/-- The window of the tokens in front. -/
theorem front {front back : List Token} (window : Window tokens first last (front ++ back)) :
    Window tokens first (first + front.length) front := by
  obtain ⟨before, after, rfl, rfl, rfl⟩ := window
  exact ⟨before, back ++ after, by simp only [List.append_assoc], rfl, rfl⟩

variable {token : Token} {rest : List Token}

theorem next (window : Window tokens first last (token :: rest)) :
    Window tokens (first + 1) last rest :=
  @behind tokens first last [token] rest window

theorem lt (window : Window tokens first last (token :: rest)) : first < last := by
  have := window.length
  rw [List.length_cons] at this
  omega

theorem getElem? (window : Window tokens first last (token :: rest)) :
    tokens[first]? = some token := by
  obtain ⟨before, after, rfl, rfl, -⟩ := window
  rw [List.append_assoc, List.getElem?_append_right (Nat.le_refl _), Nat.sub_self]
  rfl

theorem tokenAt (window : Window tokens first last (token :: rest)) :
    Positions.tokenAt tokens first = .ok token := by
  rw [Positions.tokenAt, window.getElem?]

theorem eq_of_nil (window : Window tokens first last []) : first = last :=
  window.length

theorem not_lt_of_nil (window : Window tokens first last []) : ¬ first < last := by
  have := window.eq_of_nil
  omega

end Window

/-! ## Bytes -/

theorem splitBytes?_append (front back : List Char) :
    splitBytes? (String.ofList front).utf8ByteSize (front ++ back) = some (front, back) := by
  induction front with
  | nil =>
      cases back <;> rfl
  | cons c front ih =>
      have size : (String.ofList (c :: front)).utf8ByteSize =
          c.utf8Size + (String.ofList front).utf8ByteSize := by
        rw [← List.singleton_append, String.ofList_append, String.utf8ByteSize_append]
        simp
      have positive := c.utf8Size_pos
      obtain ⟨n, isSucc⟩ : ∃ n, c.utf8Size + (String.ofList front).utf8ByteSize = n + 1 :=
        ⟨_, (Nat.succ_pred_eq_of_pos (by omega)).symm⟩
      rw [size, isSucc, List.cons_append, splitBytes?, if_pos (by omega), ← isSucc,
        Nat.add_sub_cancel_left, ih]
      rfl

theorem slice_append (before text after : String) :
    slice (before ++ text ++ after) before.utf8ByteSize (before ++ text).utf8ByteSize =
      .ok text := by
  have begins := splitBytes?_append before.toList (text.toList ++ after.toList)
  have ends := splitBytes?_append text.toList after.toList
  rw [String.ofList_toList] at begins ends
  rw [slice, String.toList_append, String.toList_append, List.append_assoc, begins,
    String.utf8ByteSize_append]
  dsimp only
  rw [if_pos (Nat.le_add_right _ _), Nat.add_sub_cancel_left, ends]
  dsimp only
  rw [String.ofList_toList]

theorem spans_append (start : Nat) (front back : List Token) :
    Token.spans start (front ++ back) =
      Token.spans start front ++ Token.spans (start + (joined front).utf8ByteSize) back := by
  induction front generalizing start with
  | nil => rfl
  | cons token rest ih =>
      rw [List.cons_append, Token.spans, Token.spans, ih, joined_cons, String.utf8ByteSize_append,
        String.utf8ByteSize_append, List.cons_append, Nat.add_assoc, Nat.add_assoc, Nat.add_assoc]

theorem length_spans (start : Nat) (tokens : List Token) :
    (Token.spans start tokens).length = tokens.length := by
  induction tokens generalizing start with
  | nil => rfl
  | cons token rest ih => rw [Token.spans, List.length_cons, ih, List.length_cons]

theorem spanAt_append (before after : List Token) (token : Token) :
    spanAt (before ++ token :: after) before.length =
      .ok ((joined before ++ token.gap).utf8ByteSize,
        (joined before ++ token.gap ++ token.kind.raw).utf8ByteSize) := by
  rw [spanAt, spans_append, List.getElem?_append_right (Nat.le_of_eq (length_spans 0 before)),
    length_spans, Nat.sub_self, Token.spans]
  simp only [List.getElem?_cons_zero, Nat.zero_add, String.utf8ByteSize_append]

/-- The bytes of two positions are those of the tokens between them, without the first gap. -/
theorem textBetween_append (before inside after : List Token) (token : Token) (tail : String)
    {first last : Nat} (begins : before.length = first)
    (ends : first + inside.length = last) :
    textBetween (joined (before ++ token :: inside ++ after) ++ tail)
        (before ++ token :: inside ++ after) first last =
      .ok (Token.sourceText (token :: inside)) := by
  obtain ⟨front, final, split⟩ : ∃ front final, token :: inside = front ++ [final] :=
    ⟨_, _, (List.dropLast_concat_getLast (List.cons_ne_nil token inside)).symm⟩
  have start : spanAt (before ++ token :: inside ++ after) first =
      .ok ((joined before ++ token.gap).utf8ByteSize,
        (joined before ++ token.gap ++ token.kind.raw).utf8ByteSize) := by
    rw [List.append_assoc, List.cons_append, ← begins, spanAt_append]
  have finish : spanAt (before ++ token :: inside ++ after) last =
      .ok ((joined (before ++ front) ++ final.gap).utf8ByteSize,
        (joined (before ++ front) ++ final.gap ++ final.kind.raw).utf8ByteSize) := by
    have atFinal : (before ++ front).length = last := by
      have sizes := congrArg List.length split
      rw [List.length_append, List.length_cons, List.length_singleton] at sizes
      rw [List.length_append]
      omega
    rw [split, ← List.append_assoc, List.append_assoc, List.singleton_append, ← atFinal,
      spanAt_append]
  -- Up to the end of the last token stand the gap in front and the tokens.
  have upToFinal : joined (before ++ front) ++ final.gap ++ final.kind.raw =
      joined before ++ token.gap ++ Token.sourceText (token :: inside) :=
    calc joined (before ++ front) ++ final.gap ++ final.kind.raw
        = joined (before ++ front) ++ joined [final] := by
          rw [joined_cons, String.append_assoc]
          exact congrArg _ String.append_empty.symm
      _ = joined before ++ joined (token :: inside) := by
          rw [← joined_append, List.append_assoc, ← split, joined_append]
      _ = joined before ++ token.gap ++ Token.sourceText (token :: inside) := by
          rw [joined_eq_gap_append, String.append_assoc]
  have source : joined (before ++ token :: inside ++ after) ++ tail =
      joined before ++ token.gap ++ Token.sourceText (token :: inside) ++
        (joined after ++ tail) := by
    rw [joined_append, joined_append, joined_eq_gap_append]
    simp only [String.append_assoc]
  rw [textBetween, bind_of_ok start]
  dsimp only
  rw [bind_of_ok finish]
  dsimp only
  rw [upToFinal, source]
  exact slice_append _ _ _

/-- The text between two positions is the text of the tokens between them. -/
theorem textBetween_window {stream : TokenStream} {first last : Nat} {token : Token}
    {inside : List Token} (window : Window stream.tokens first (last + 1) (token :: inside)) :
    textBetween stream.text stream.tokens first last =
      .ok (Token.sourceText (token :: inside)) := by
  obtain ⟨before, after, split, begins, ends⟩ := window
  rw [List.length_cons, ← Nat.add_assoc] at ends
  have text : stream.text = joined stream.tokens ++ stream.tail := rfl
  rw [text, split]
  exact textBetween_append before inside after token stream.tail begins (Nat.succ.inj ends)

end ComponentGen.Declaration.Positions
