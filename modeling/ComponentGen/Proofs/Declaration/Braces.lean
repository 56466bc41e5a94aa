import ComponentGen.Declaration.Extraction
import ComponentGen.Proofs.Declaration.Seam
import Mathlib.Data.List.Infix
/-!
# Balanced braces

The brace level of a token list is the number of braces it opens less the number it closes. Finding
the brace that closes a block is described by levels alone: it is the first closing brace that takes
the level below where the block began. Everything that is said about blocks, closed or left open,
follows from that description.
-/

namespace ComponentGen.Declaration

/-- What one token adds to the brace level. -/
def Token.rise (token : Token) : Int :=
  if token.isPunct '{' then 1 else if token.isPunct '}' then -1 else 0

/-- Opening braces less closing braces. -/
def braceLevel : List Token → Int
  | [] => 0
  | token :: rest => token.rise + braceLevel rest

/-- No prefix closes more braces than it opens, and in total as many are closed as are opened. -/
structure BracesBalance (tokens : List Token) : Prop where
  prefixes : ∀ before, before <+: tokens → 0 ≤ braceLevel before
  total : braceLevel tokens = 0

/-! ## Levels -/

theorem isPunct_iff {token : Token} {c : Char} : token.isPunct c = true ↔ token.kind = .punct c :=
  beq_iff_eq

theorem rise_of_opening {token : Token} (opening : token.isPunct '{' = true) : token.rise = 1 :=
  if_pos opening

theorem rise_of_closing {token : Token} (closing : token.isPunct '}' = true) :
    token.rise = -1 := by
  have notOpening : ¬ token.isPunct '{' = true := by
    rw [isPunct_iff] at closing ⊢
    rw [closing]
    decide
  rw [Token.rise, if_neg notOpening, if_pos closing]

theorem rise_of_other {token : Token} (notOpening : ¬ token.isPunct '{' = true)
    (notClosing : ¬ token.isPunct '}' = true) : token.rise = 0 := by
  rw [Token.rise, if_neg notOpening, if_neg notClosing]

@[simp] theorem braceLevel_nil : braceLevel [] = 0 := rfl

@[simp] theorem braceLevel_cons (token : Token) (rest : List Token) :
    braceLevel (token :: rest) = token.rise + braceLevel rest := rfl

@[simp] theorem braceLevel_append (first second : List Token) :
    braceLevel (first ++ second) = braceLevel first + braceLevel second := by
  induction first with
  | nil => exact (Int.zero_add _).symm
  | cons token rest ih => rw [List.cons_append, braceLevel, braceLevel, ih, Int.add_assoc]

/-- A prefix of two lists in a row ends in the first or in the second. -/
theorem prefix_append_cases {before first second : List Token} (h : before <+: first ++ second) :
    before <+: first ∨ ∃ more, more <+: second ∧ before = first ++ more := by
  rcases List.prefix_or_prefix_of_prefix h (List.prefix_append first second) with inside | beyond
  · exact .inl inside
  · obtain ⟨more, rfl⟩ := beyond
    exact .inr ⟨more, (List.prefix_append_right_inj first).1 h, rfl⟩

/-! ## Balance -/

namespace BracesBalance

theorem nil : BracesBalance [] where
  prefixes := by
    intro before inside
    rw [List.prefix_nil.1 inside]
    exact Int.le_refl 0
  total := rfl

theorem append {first second : List Token} (front : BracesBalance first)
    (back : BracesBalance second) : BracesBalance (first ++ second) where
  prefixes := by
    intro before inside
    rcases prefix_append_cases inside with inFirst | ⟨more, inSecond, rfl⟩
    · exact front.prefixes before inFirst
    · rw [braceLevel_append, front.total, Int.zero_add]
      exact back.prefixes more inSecond
  total := by rw [braceLevel_append, front.total, back.total, Int.add_zero]

/-- A token that is no brace keeps the balance. -/
theorem cons {token : Token} {rest : List Token} (noBrace : token.rise = 0)
    (balance : BracesBalance rest) : BracesBalance (token :: rest) where
  prefixes := by
    intro before inside
    rcases List.prefix_cons_iff.1 inside with rfl | ⟨more, rfl, inRest⟩
    · exact Int.le_refl 0
    · rw [braceLevel_cons, noBrace, Int.zero_add]
      exact balance.prefixes more inRest
  total := by rw [braceLevel_cons, noBrace, Int.zero_add, balance.total]

/-- A balanced list between two braces is balanced. -/
theorem wrap {opening closing : Token} {body : List Token}
    (opens : opening.isPunct '{' = true) (closes : closing.isPunct '}' = true)
    (balance : BracesBalance body) : BracesBalance (opening :: body ++ [closing]) where
  prefixes := by
    intro before inside
    rcases List.prefix_cons_iff.1 inside with rfl | ⟨rest, rfl, inRest⟩
    · exact Int.le_refl 0
    · rw [braceLevel_cons, rise_of_opening opens]
      rcases prefix_append_cases inRest with inBody | ⟨last, inLast, rfl⟩
      · have := balance.prefixes rest inBody
        omega
      · rw [braceLevel_append, balance.total]
        rcases List.prefix_cons_iff.1 inLast with rfl | ⟨none, rfl, inNone⟩
        · decide
        · rw [List.prefix_nil.1 inNone, braceLevel_cons, rise_of_closing closes]
          decide
  total := by
    rw [braceLevel_append, braceLevel_cons, rise_of_opening opens, balance.total,
      braceLevel_cons, rise_of_closing closes]
    rfl

/-- The balance does not depend on the white space and the comments in front. -/
theorem pushGap {found : List Token × List Char} (balance : BracesBalance found.1)
    (gap : List Char) : BracesBalance (pushGap gap found).1 := by
  match found with
  | ([], _) => exact balance
  | (token :: rest, _) =>
      constructor
      · intro before inside
        rcases List.prefix_cons_iff.1 inside with rfl | ⟨more, rfl, inRest⟩
        · exact Int.le_refl 0
        · exact balance.prefixes (token :: more) ((List.prefix_cons_inj token).2 inRest)
      · exact balance.total

end BracesBalance

/-- The balance can be checked prefix by prefix. -/
instance (tokens : List Token) : Decidable (BracesBalance tokens) :=
  decidable_of_iff
    ((∀ before ∈ tokens.inits, 0 ≤ braceLevel before) ∧ braceLevel tokens = 0)
    ⟨fun h => ⟨fun before inside => h.1 before ((List.mem_inits before tokens).2 inside), h.2⟩,
      fun h => ⟨fun before member => h.prefixes before ((List.mem_inits before tokens).1 member),
        h.total⟩⟩

/-! ## The closing brace -/

/-- The level never falls below the given number of braces that were opened before. -/
def StaysWithin (depth : Nat) (tokens : List Token) : Prop :=
  ∀ before, before <+: tokens → 0 ≤ depth + braceLevel before

theorem staysWithin_cons {depth : Nat} {token : Token} {rest : List Token} :
    StaysWithin depth (token :: rest) ↔
      ∀ before, before <+: rest → 0 ≤ depth + (token.rise + braceLevel before) := by
  constructor
  · intro within before inside
    rw [← braceLevel_cons]
    exact within _ ((List.prefix_cons_inj token).2 inside)
  · intro within before inside
    rcases List.prefix_cons_iff.1 inside with rfl | ⟨more, rfl, inRest⟩
    · rw [braceLevel_nil]
      omega
    · rw [braceLevel_cons]
      exact within more inRest

/-- A block goes on behind a token that leaves `next` braces open. -/
theorem inside_eq_some_iff {depth next : Nat} {token close : Token} {rest body after : List Token}
    (level : (next : Int) = depth + token.rise)
    (closed : ∀ body, splitClose? next rest = some (body, close, after) ↔
      rest = body ++ close :: after ∧ close.isPunct '}' = true ∧
        StaysWithin next body ∧ next + braceLevel body = 0) :
    ((splitClose? next rest).map fun (body, close, after) => (token :: body, close, after)) =
        some (body, close, after) ↔
      token :: rest = body ++ close :: after ∧ close.isPunct '}' = true ∧
        StaysWithin depth body ∧ depth + braceLevel body = 0 := by
  rw [Option.map_eq_some_iff]
  constructor
  · rintro ⟨⟨inner, close', after'⟩, found, same⟩
    obtain ⟨rfl, rfl, rfl⟩ : token :: inner = body ∧ close' = close ∧ after' = after := by
      simpa using same
    obtain ⟨rfl, closing, within, total⟩ := (closed inner).1 found
    refine ⟨rfl, closing, staysWithin_cons.2 fun before inside => ?_, ?_⟩
    · have := within before inside
      omega
    · rw [braceLevel_cons]
      omega
  · rintro ⟨split, closing, within, total⟩
    cases body with
    | nil =>
        -- A closing brace here would have left one brace fewer open than none.
        obtain ⟨rfl, -⟩ := List.cons.inj split
        rw [rise_of_closing closing] at level
        rw [braceLevel_nil] at total
        omega
    | cons first inner =>
        rw [List.cons_append] at split
        obtain ⟨rfl, rest_eq⟩ := List.cons.inj split
        rw [braceLevel_cons] at total
        refine ⟨(inner, close, after), (closed inner).2 ⟨rest_eq, closing, ?_, ?_⟩, rfl⟩
        · intro before inside
          have := staysWithin_cons.1 within before inside
          omega
        · omega

/-- The brace that closes a block, inside of which `depth` braces are open, is the first closing
brace that takes the level below zero. -/
theorem splitClose?_eq_some_iff {depth : Nat} {tokens body after : List Token} {close : Token} :
    splitClose? depth tokens = some (body, close, after) ↔
      tokens = body ++ close :: after ∧ close.isPunct '}' = true ∧
        StaysWithin depth body ∧ depth + braceLevel body = 0 := by
  -- Each brace changes the depth by what it adds to the level of the body.
  induction tokens generalizing depth body with
  | nil => simp [splitClose?]
  | cons token rest ih =>
      rw [splitClose?.eq_def]
      dsimp only
      by_cases opening : token.isPunct '{' = true
      · rw [if_pos opening]
        refine inside_eq_some_iff ?_ fun body => ih
        rw [rise_of_opening opening]
        rfl
      rw [if_neg opening]
      by_cases closing : token.isPunct '}' = true
      · rw [if_pos closing]
        cases depth with
        | zero =>
            constructor
            · intro found
              obtain ⟨rfl, rfl, rfl⟩ : [] = body ∧ token = close ∧ rest = after := by
                simpa using found
              refine ⟨rfl, closing, ?_, rfl⟩
              intro before inside
              rw [List.prefix_nil.1 inside]
              exact Int.le_refl 0
            · rintro ⟨split, -, within, -⟩
              cases body with
              | nil =>
                  obtain ⟨rfl, rfl⟩ := List.cons.inj split
                  rfl
              | cons first inner =>
                  obtain ⟨rfl, -⟩ := List.cons.inj split
                  have := staysWithin_cons.1 within [] List.nil_prefix
                  rw [rise_of_closing closing, braceLevel_nil] at this
                  omega
        | succ depth =>
            refine inside_eq_some_iff ?_ fun body => ih
            rw [rise_of_closing closing]
            omega
      · rw [if_neg closing]
        refine inside_eq_some_iff ?_ fun body => ih
        rw [rise_of_other opening closing, Int.add_zero]

theorem splitClose?_of_balance {body after : List Token} {close : Token}
    (balance : BracesBalance body) (closing : close.isPunct '}' = true) :
    splitClose? 0 (body ++ close :: after) = some (body, close, after) := by
  refine splitClose?_eq_some_iff.2 ⟨rfl, closing, ?_, ?_⟩
  · intro before inside
    have := balance.prefixes before inside
    omega
  · rw [balance.total]
    rfl

/-- A closed block stays closed at the same brace, whatever follows. -/
theorem splitClose?_append_of_closed {depth : Nat} {tokens body after : List Token}
    {close : Token} (closed : splitClose? depth tokens = some (body, close, after))
    (more : List Token) :
    splitClose? depth (tokens ++ more) = some (body, close, after ++ more) := by
  obtain ⟨rfl, closing, within, total⟩ := splitClose?_eq_some_iff.1 closed
  exact splitClose?_eq_some_iff.2 ⟨by simp, closing, within, total⟩

/-- A block that is left open is not closed by a list that closes only what it opens. -/
theorem splitClose?_append_of_open {depth : Nat} {tokens more : List Token}
    (isOpen : splitClose? depth tokens = none) (balance : BracesBalance more) :
    splitClose? depth (tokens ++ more) = none := by
  rw [Option.eq_none_iff_forall_ne_some]
  rintro ⟨body, close, after⟩ found
  obtain ⟨split, closing, within, total⟩ := splitClose?_eq_some_iff.1 found
  rcases List.append_eq_append_iff.1 split with ⟨beyond, rfl, inMore⟩ | ⟨left, inTokens, rest⟩
  · -- The block would be closed in `more`, below the level where `more` begins.
    have atSeam := within tokens (List.prefix_append tokens beyond)
    have upToClose := balance.prefixes (beyond ++ [close]) ⟨after, by simp [inMore]⟩
    rw [braceLevel_append] at total
    rw [braceLevel_append, braceLevel_cons, rise_of_closing closing, braceLevel_nil] at upToClose
    omega
  · cases left with
    | nil =>
        rw [List.append_nil] at inTokens
        rw [List.nil_append] at rest
        have first := balance.prefixes [close] ⟨after, rest⟩
        rw [braceLevel_cons, rise_of_closing closing, braceLevel_nil] at first
        omega
    | cons head left =>
        obtain ⟨rfl, rfl⟩ := List.cons.inj rest
        rw [splitClose?_eq_some_iff.2 ⟨inTokens, closing, within, total⟩] at isOpen
        cases isOpen

/-! ## Bodies -/

theorem bodies_of_no_header {token : Token} {rest : List Token}
    (none_here : header? (token :: rest) = none) : bodies (token :: rest) = bodies rest := by
  rw [bodies]
  split
  · rfl
  · next found =>
      rw [none_here] at found
      cases found

theorem bodies_of_closed {tokens inside body after : List Token} {name : String} {close : Token}
    (found : header? tokens = some (name, inside))
    (closed : splitClose? 0 inside = some (body, close, after)) :
    bodies tokens = (name, body) :: bodies after := by
  cases tokens with
  | nil => cases found
  | cons token rest =>
      rw [bodies]
      split
      · next none_here =>
          rw [found] at none_here
          cases none_here
      · next found' =>
          rw [found] at found'
          cases found'
          split
          · next closed' =>
              rw [closed] at closed'
              cases closed'
              rfl
          · next isOpen =>
              rw [closed] at isOpen
              cases isOpen

theorem bodies_of_open {tokens inside : List Token} {name : String}
    (found : header? tokens = some (name, inside)) (isOpen : splitClose? 0 inside = none) :
    bodies tokens = (name, (splitAtHeader inside).1) :: bodies (splitAtHeader inside).2 := by
  cases tokens with
  | nil => cases found
  | cons token rest =>
      rw [bodies]
      split
      · next none_here =>
          rw [found] at none_here
          cases none_here
      · next found' =>
          rw [found] at found'
          cases found'
          split
          · next closed =>
              rw [isOpen] at closed
              cases closed
          · rfl

end ComponentGen.Declaration
