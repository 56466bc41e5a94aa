import ComponentGen.Proofs.Declaration.Members
import ComponentGen.Proofs.Declaration.Positions.Windows
/-!
# Extraction by positions has no faults

Extraction by positions finds on every text what extraction from the front of the token list finds.
So none of its checks ever fails: every token that is read exists, nothing is taken below zero,
every slice of the text is one, and every turn of every loop moves on. Each scan is compared with the list
function for the tokens in its range; the position it ends at is where the rest of the list begins.
-/

namespace ComponentGen.Declaration.Positions

/-! ## Loops -/

section Loop

variable {σ ρ : Type} {turn : σ → Nat → Except Fault (Turn σ ρ)} {ending : σ → Nat → ρ}
  {stop position : Nat} {state : σ}

theorem loop_stop (atStop : ¬ position < stop) :
    loop turn ending stop state position = .ok (ending state position) := by
  rw [loop, if_neg atStop]

theorem loop_leave {result : ρ} (more : position < stop)
    (leaves : turn state position = .ok (.leave result)) :
    loop turn ending stop state position = .ok result := by
  rw [loop, if_pos more, leaves]

theorem loop_goOn {later : σ} {next : Nat} (more : position < stop)
    (goesOn : turn state position = .ok (.goOn later next)) (progress : position < next) :
    loop turn ending stop state position = loop turn ending stop later next := by
  rw [loop, if_pos more, goesOn]
  exact if_pos progress

end Loop

theorem exists_of_rel_some {α β : Type} {r : α → β → Prop} {found? : Option α} {b : β}
    (rel : Option.Rel r found? (some b)) : ∃ a, found? = some a ∧ r a b := by
  cases rel with
  | some both => exact ⟨_, rfl, both⟩

theorem eq_none_of_rel_none {α β : Type} {r : α → β → Prop} {found? : Option α}
    (rel : Option.Rel r found? none) : found? = none := by
  cases rel
  rfl

variable {tokens : List Token} {first last : Nat} {inside : List Token}

/-- Fewer tokens are left behind a later position. -/
theorem Window.progress {next : Nat} {rest : List Token}
    (window : Window tokens first last inside) (later : Window tokens next last rest)
    (fewer : rest.length < inside.length) : first < next := by
  have := window.length
  have := later.length
  omega

theorem Window.atEnd (window : Window tokens first last inside) : Window tokens last last [] := by
  have behind := @Window.behind tokens first last inside [] (by rwa [List.append_nil])
  rwa [window.length] at behind

theorem skipPunct_window (marks : List Char) (window : Window tokens first last inside) :
    ∃ next, skipPunct tokens marks first last = .ok next ∧
      Window tokens next last (dropPunct marks inside) := by
  cases inside with
  | nil =>
      refine ⟨first, ?_, window⟩
      rw [skipPunct, if_neg window.not_lt_of_nil]
      rfl
  | cons token rest =>
      rw [skipPunct, if_pos window.lt, bind_of_ok window.tokenAt, dropPunct]
      by_cases marked : marks.any token.isPunct = true
      · rw [if_pos marked, if_pos marked]
        exact ⟨first + 1, rfl, window.next⟩
      · rw [if_neg marked, if_neg marked]
        exact ⟨first, rfl, window⟩

/-! ## Braces -/

/-- One token further on, the closing brace is one position less away. -/
theorem map_position_cons (token : Token) (found : Option (List Token × Token × List Token)) :
    (found.map fun (body, close, after) => (token :: body, close, after)).map
        (fun split => first + split.1.length) =
      found.map fun split => first + 1 + split.1.length := by
  cases found with
  | none => rfl
  | some split =>
      rw [Option.map_some, Option.map_some, Option.map_some, List.length_cons]
      congr 1
      omega

/-- Inside a block one brace more is open by positions, that of the block itself, so the depth is
never zero in front of a closing brace. -/
theorem loop_closingTurn (depth : Nat) (window : Window tokens first last inside) :
    loop (closingTurn tokens) (fun _ _ => none) last (depth + 1) first =
      .ok ((splitClose? depth inside).map fun split => first + split.1.length) := by
  induction inside generalizing depth first with
  | nil => exact loop_stop window.not_lt_of_nil
  | cons token rest ih =>
      have step : closingTurn tokens (depth + 1) first = _ := bind_of_ok window.tokenAt _
      have further := Nat.lt_succ_self first
      rw [splitClose?.eq_def]
      dsimp only
      by_cases opening : token.isPunct '{' = true
      · rw [if_pos opening] at step ⊢
        rw [loop_goOn window.lt step further, ih (depth + 1) window.next, map_position_cons]
      rw [if_neg opening] at step ⊢
      by_cases closing : token.isPunct '}' = true
      · rw [if_pos closing] at step ⊢
        cases depth with
        | zero => exact loop_leave window.lt step
        | succ depth =>
            rw [loop_goOn window.lt step further, ih depth window.next, map_position_cons]
      · rw [if_neg closing] at step ⊢
        rw [loop_goOn window.lt step further, ih depth window.next, map_position_cons]

/-- The position handed over is that of an opening brace, so the search starts inside of a block. -/
theorem closingBrace_window {token : Token} (window : Window tokens first last (token :: inside))
    (opening : token.isPunct '{' = true) :
    closingBrace tokens first last =
      .ok ((splitClose? 0 inside).map fun split => first + 1 + split.1.length) := by
  have step : closingTurn tokens 0 first = _ := bind_of_ok window.tokenAt _
  rw [if_pos opening] at step
  rw [closingBrace, loop_goOn window.lt step (Nat.lt_succ_self first),
    loop_closingTurn 0 window.next]

/-! ## Types -/

theorem loop_typeTurn (depth : Nat) (window : Window tokens first last inside) :
    loop (typeTurn tokens) (fun _ i => i) last depth first =
      .ok (first + (splitType depth inside).1.length) := by
  induction inside generalizing depth first with
  | nil => exact loop_stop window.not_lt_of_nil
  | cons token rest ih =>
      have step : typeTurn tokens depth first = _ := bind_of_ok window.tokenAt _
      rw [splitType]
      by_cases ends : (depth = 0 && [';', ',', '}'].any token.isPunct) = true
      · rw [if_pos ends] at step ⊢
        exact loop_leave window.lt step
      · rw [if_neg ends] at step ⊢
        rw [loop_goOn window.lt step (Nat.lt_succ_self first), ih _ window.next, List.length_cons,
          Nat.add_assoc, Nat.add_comm 1]

/-- The range of positions that stands for a type. -/
inductive TypeRange.Stands (tokens : List Token) : TypeRange → MemberType → Prop
  | text (type : List Token) : Stands tokens (.text (Token.sourceText type)) (.text type)
  | block {first last : Nat} {opening closing : Token} {body : List Token}
      (window : Window tokens first (last + 1) (opening :: (body ++ [closing]))) :
      Stands tokens (.block (first + 1) last) (.block opening body closing)
  | unclosed : Stands tokens .unclosed .unclosed

/-- The member by positions is the member of the list. -/
structure MemberAt.Stands (tokens : List Token) (found : MemberAt) (m : Member) : Prop where
  name : found.name = m.name
  type : found.type.Stands tokens m.type

section Stream

variable {stream : TokenStream}

theorem textBetween_front {type rest : List Token}
    (window : Window stream.tokens first last (type ++ rest)) (final : Nat)
    (size : first + type.length = final + 1) (nonempty : type ≠ []) :
    textBetween stream.text stream.tokens first final = .ok (Token.sourceText type) := by
  cases type with
  | nil => exact absurd rfl nonempty
  | cons token more =>
      refine textBetween_window ?_
      rw [← size]
      exact window.front

/-- The type, and where it leaves off. -/
def TypeFound (stream : TokenStream) (last : Nat) :
    Option (TypeRange × Nat) → Option (MemberType × List Token) → Prop :=
  Option.Rel fun found split =>
    found.1.Stands stream.tokens split.1 ∧ Window stream.tokens found.2 last split.2

theorem typeFound_object {token : Token}
    (window : Window stream.tokens first last (token :: inside))
    (opening : token.isPunct '{' = true) :
    ∃ found, typeAt stream.text stream.tokens first last = .ok found ∧
      TypeFound stream last found (memberType? (token :: inside)) := by
  have start : typeAt stream.text stream.tokens first last = _ :=
    (if_pos window.lt).trans (bind_of_ok window.tokenAt _)
  rw [if_pos opening, bind_of_ok (closingBrace_window window opening)] at start
  rw [memberType?, if_pos opening]
  cases closed : splitClose? 0 inside with
  | none =>
      rw [closed] at start
      exact ⟨_, start, .some ⟨.unclosed, window.atEnd⟩⟩
  | some split =>
      obtain ⟨body, close, after⟩ := split
      obtain ⟨rfl, -⟩ := splitClose?_eq_some_iff.1 closed
      rw [closed] at start
      have whole : token :: (body ++ close :: after) = token :: (body ++ [close]) ++ after := by
        simp
      have size : first + (token :: (body ++ [close])).length = first + 1 + body.length + 1 := by
        simp only [List.length_cons, List.length_append, List.length_nil]
        omega
      rw [whole] at window
      refine ⟨_, start, .some ⟨.block ?_, ?_⟩⟩
      · rw [← size]
        exact window.front
      · dsimp only
        rw [← size]
        exact window.behind

theorem typeFound_plain {token : Token}
    (window : Window stream.tokens first last (token :: inside))
    (notOpening : ¬ token.isPunct '{' = true) :
    ∃ found, typeAt stream.text stream.tokens first last = .ok found ∧
      TypeFound stream last found (memberType? (token :: inside)) := by
  have start : typeAt stream.text stream.tokens first last = _ :=
    (if_pos window.lt).trans (bind_of_ok window.tokenAt _)
  have ending : typeEnd stream.tokens first last = _ := loop_typeTurn 0 window
  rw [if_neg notOpening, bind_of_ok ending] at start
  have whole := splitType_append 0 (token :: inside)
  rw [memberType?, if_neg notOpening]
  rcases divided : splitType 0 (token :: inside) with ⟨type, after⟩
  rw [divided] at whole start
  rw [← whole] at window
  dsimp only at window start ⊢
  cases type with
  | nil =>
      have nothing : first + ([] : List Token).length = first := Nat.add_zero first
      rw [if_pos nothing] at start
      exact ⟨none, start, .none⟩
  | cons head more =>
      have notEmpty : ¬ first + (head :: more).length = first := by
        rw [List.length_cons]
        omega
      have before : predecessor (first + (head :: more).length) = .ok (first + more.length) := rfl
      have text := textBetween_front window (first + more.length) rfl (List.cons_ne_nil _ _)
      obtain ⟨next, skipped, behind⟩ := skipPunct_window [';', ','] window.behind
      rw [if_neg notEmpty, bind_of_ok before, bind_of_ok text, bind_of_ok skipped] at start
      exact ⟨_, start, .some ⟨.text _, behind⟩⟩

theorem typeFound_window (window : Window stream.tokens first last inside) :
    ∃ found, typeAt stream.text stream.tokens first last = .ok found ∧
      TypeFound stream last found (memberType? inside) := by
  cases inside with
  | nil =>
      refine ⟨none, ?_, .none⟩
      rw [typeAt, if_neg window.not_lt_of_nil]
      rfl
  | cons token rest =>
      by_cases opening : token.isPunct '{' = true
      · exact typeFound_object window opening
      · exact typeFound_plain window opening

/-! ## Members -/

theorem skipReadonly_window (window : Window tokens first last inside) :
    ∃ next, skipReadonly tokens first last = .ok next ∧
      Window tokens next last (dropReadonly inside) := by
  match inside with
  | [] =>
      refine ⟨first, ?_, window⟩
      have := window.not_lt_of_nil
      rw [skipReadonly, if_neg (by omega)]
      rfl
  | [only] =>
      refine ⟨first, ?_, window⟩
      have := window.next.not_lt_of_nil
      rw [skipReadonly, if_neg this]
      rfl
  | key :: second :: rest =>
      have start : skipReadonly tokens first last = _ :=
        (if_pos window.next.lt).trans (bind_of_ok window.tokenAt _)
      rw [dropReadonly]
      by_cases readonly : key.isWord "readonly" = true
      · rw [if_pos readonly, bind_of_ok window.next.tokenAt] at start
        rw [readonly, Bool.true_and]
        by_cases named : second.name?.isSome = true
        · rw [if_pos named] at start ⊢
          exact ⟨first + 1, start, window.next⟩
        · rw [if_neg named] at start ⊢
          exact ⟨first, start, window⟩
      · rw [if_neg readonly] at start
        rw [Bool.eq_false_iff.2 readonly, Bool.false_and, if_neg Bool.false_ne_true]
        exact ⟨first, start, window⟩

/-- The member, and where it leaves off. -/
def MemberFound (stream : TokenStream) (last : Nat) :
    Option MemberAt → Option (Member × List Token) → Prop :=
  Option.Rel fun found split =>
    found.Stands stream.tokens split.1 ∧ Window stream.tokens found.next last split.2

theorem memberFound_window (window : Window stream.tokens first last inside) :
    ∃ found, memberAt stream.text stream.tokens first last = .ok found ∧
      MemberFound stream last found (member? inside) := by
  obtain ⟨key, isKey, window⟩ := skipReadonly_window window
  have start : memberAt stream.text stream.tokens first last = _ := bind_of_ok isKey _
  rw [member?]
  cases kept : dropReadonly inside with
  | nil =>
      rw [kept] at window
      rw [if_neg window.not_lt_of_nil] at start
      exact ⟨none, start, .none⟩
  | cons token rest =>
      rw [kept] at window
      rw [if_pos window.lt, bind_of_ok window.tokenAt] at start
      dsimp only
      cases named : token.name? with
      | none =>
          rw [named] at start
          exact ⟨none, start, .none⟩
      | some name =>
          obtain ⟨colon, isColon, window⟩ := skipPunct_window ['?'] window.next
          rw [named] at start
          dsimp only at start ⊢
          rw [bind_of_ok isColon] at start
          cases marked : dropPunct ['?'] rest with
          | nil =>
              rw [marked] at window
              rw [if_neg window.not_lt_of_nil] at start
              exact ⟨none, start, .none⟩
          | cons mark value =>
              rw [marked] at window
              rw [if_pos window.lt, bind_of_ok window.tokenAt] at start
              dsimp only
              by_cases isMark : mark.isPunct ':' = true
              · obtain ⟨found, typed, stands⟩ := typeFound_window window.next
                rw [if_pos isMark, bind_of_ok typed] at start
                rw [if_pos isMark]
                refine ⟨_, start, ?_⟩
                generalize memberType? value = split at stands
                cases stands with
                | none => exact .none
                | some both => exact .some ⟨⟨rfl, both.1⟩, both.2⟩
              · rw [if_neg isMark] at start ⊢
                exact ⟨none, start, .none⟩

theorem skipAt_window (depth : Nat) (window : Window tokens first last inside) :
    ∃ next, loop (skipTurn tokens) (fun _ _ => last) last depth first = .ok next ∧
      Window tokens next last (skipMember depth inside) := by
  induction inside generalizing depth first with
  | nil => exact ⟨last, loop_stop window.not_lt_of_nil, window.atEnd⟩
  | cons token rest ih =>
      have step : skipTurn tokens depth first = _ := bind_of_ok window.tokenAt _
      have further := Nat.lt_succ_self first
      rw [skipMember]
      by_cases opens : ['{', '(', '['].any token.isPunct = true
      · rw [if_pos opens] at step ⊢
        rw [loop_goOn window.lt step further]
        exact ih (depth + 1) window.next
      rw [if_neg opens] at step ⊢
      by_cases closes : ['}', ')', ']'].any token.isPunct = true
      · rw [if_pos closes] at step ⊢
        rw [loop_goOn window.lt step further]
        exact ih (depth - 1) window.next
      rw [if_neg closes] at step ⊢
      by_cases separates : (depth = 0 && [';', ','].any token.isPunct) = true
      · rw [if_pos separates] at step ⊢
        exact ⟨first + 1, loop_leave window.lt step, window.next⟩
      · rw [if_neg separates] at step ⊢
        rw [loop_goOn window.lt step further]
        exact ih depth window.next

/-- The members of a range are visited in order, if each visit is without a fault. -/
theorem forEachMember_window {σ : Type} {visit : σ → MemberAt → Except Fault σ}
    {take : σ → Member → σ}
    (visits : ∀ state found m, MemberAt.Stands stream.tokens found m →
      visit state found = .ok (take state m))
    (state : σ) (window : Window stream.tokens first last inside) :
    forEachMember stream.text stream.tokens visit state first last =
      .ok ((members inside).foldl take state) := by
  rw [forEachMember]
  induction inside using members.induct generalizing state first with
  | case1 =>
      rw [members]
      exact loop_stop window.not_lt_of_nil
  | case2 token rest m after found ih =>
      obtain ⟨found?, isFound, rel⟩ := memberFound_window window
      rw [found] at rel
      obtain ⟨foundAt, rfl, stands, later⟩ := exists_of_rel_some rel
      have step : memberTurn stream.text stream.tokens visit last state first = _ :=
        bind_of_ok isFound _
      dsimp only at step
      rw [bind_of_ok (visits state foundAt m stands)] at step
      rw [members_of_member? found, List.foldl_cons,
        loop_goOn window.lt step (window.progress later (length_member? found))]
      exact ih _ later
  | case3 token rest none_here ih =>
      obtain ⟨found?, isFound, rel⟩ := memberFound_window window
      rw [none_here] at rel
      obtain rfl := eq_none_of_rel_none rel
      obtain ⟨next, skipped, later⟩ := skipAt_window 0 window
      have step : memberTurn stream.text stream.tokens visit last state first = _ :=
        bind_of_ok isFound _
      dsimp only at step
      have skips : skipAt stream.tokens first last = .ok next := skipped
      rw [bind_of_ok skips] at step
      have fewer := length_skipMember 0 token rest
      rw [members_of_no_member none_here, loop_goOn window.lt step
        (window.progress later (Nat.lt_succ_of_le fewer))]
      exact ih _ later

/-! ## Blocks -/

/-- Take up a member of a block as a field. -/
def takeField (declared : OrderedMap String) (m : Member) : OrderedMap String :=
  match m.field? with
  | some (name, type) => declared.insert name type
  | none => declared

theorem foldl_takeField (block : List Member) (declared : OrderedMap String) :
    block.foldl takeField declared = declared.insertAll (block.filterMap Member.field?) := by
  induction block generalizing declared with
  | nil => rfl
  | cons m rest ih =>
      rw [List.foldl_cons, ih, List.filterMap_cons, takeField]
      cases m.field? <;> rfl

theorem addField_stands (declared : OrderedMap String) {found : MemberAt} {m : Member}
    (stands : found.Stands stream.tokens m) :
    addField stream.text stream.tokens declared found = .ok (takeField declared m) := by
  obtain ⟨named, typed⟩ := stands
  obtain ⟨name, range, next⟩ := found
  obtain ⟨name', type⟩ := m
  obtain rfl : name = name' := named
  cases typed with
  | text type => rfl
  | block window =>
      exact (bind_of_ok rfl _).trans (bind_of_ok (textBetween_window window) _)
  | unclosed => rfl

theorem fieldsBetween_window (window : Window stream.tokens first last inside) :
    fieldsBetween stream.text stream.tokens first last = .ok (fields inside) := by
  have visits : ∀ declared found m, MemberAt.Stands stream.tokens found m →
      addField stream.text stream.tokens declared found = .ok (takeField declared m) :=
    fun declared _ _ stands => addField_stands declared stands
  rw [fieldsBetween, forEachMember_window visits .empty window, foldl_takeField]
  rfl

theorem blockFieldsAt_stands (declared : Option (OrderedMap String)) {range : TypeRange}
    {type : MemberType} (stands : range.Stands stream.tokens type) :
    blockFieldsAt stream.text stream.tokens declared range =
      .ok (type.blockFields declared) := by
  cases stands with
  | text type => rfl
  | @block first last opening closing body window =>
      -- The range of the body is the one of the block without its braces.
      have size := window.length
      simp only [List.length_cons, List.length_append, List.length_nil] at size
      have inner := window.next.front
      have ends : first + 1 + body.length = last := by omega
      rw [ends] at inner
      exact bind_of_ok (fieldsBetween_window inner) _
  | unclosed => rfl

theorem addMemberAt_stands (i : Interface) {found : MemberAt} {m : Member}
    (stands : found.Stands stream.tokens m) :
    addMemberAt stream.text stream.tokens i found = .ok (addMember i m) := by
  rw [addMemberAt, addMember, stands.name]
  split
  · exact bind_of_ok (blockFieldsAt_stands i.styleFields stands.type) _
  · split
    · exact bind_of_ok (blockFieldsAt_stands i.dataFields stands.type) _
    · split
      · rfl
      · rfl

theorem interfaceBetween_window (name : String)
    (window : Window stream.tokens first last inside) :
    interfaceBetween stream.text stream.tokens name first last = .ok (interfaceOf name inside) :=
  forEachMember_window (fun i _ _ stands => addMemberAt_stands i stands) (.empty name) window

/-! ## Headers -/

/-- An opening brace stands at the position, and this behind it. -/
def Opens (tokens : List Token) (opening : Nat) (rest : List Token) : Prop :=
  ∃ brace : Token, brace.isPunct '{' = true ∧
    Window tokens opening tokens.length (brace :: rest)

theorem openingBrace?_window (window : Window tokens first tokens.length inside) :
    Option.Rel (Opens tokens) (openingBrace? first inside) (openBody? inside) := by
  induction inside generalizing first with
  | nil => exact .none
  | cons token rest ih =>
      rw [openingBrace?, openBody?]
      by_cases opening : token.isPunct '{' = true
      · rw [if_pos opening, if_pos opening]
        exact .some ⟨token, opening, window⟩
      rw [if_neg opening, if_neg opening]
      by_cases givenUp : (token.isPunct '}' || token.isPunct ';') = true
      · rw [if_pos givenUp, if_pos givenUp]
        exact .none
      · rw [if_neg givenUp, if_neg givenUp]
        exact ih window.next

/-- The header found by positions is the one of the list. -/
def HeaderFound (tokens : List Token) :
    Option (String × Nat) → Option (String × List Token) → Prop :=
  Option.Rel fun found split => found.1 = split.1 ∧ Opens tokens found.2 split.2

theorem tokensFrom_window (window : Window tokens first tokens.length inside) :
    tokensFrom tokens first = .ok inside := by
  obtain ⟨before, after, split, rfl, size⟩ := window
  have noneBehind : after = [] := by
    have lengths := congrArg List.length split
    simp only [List.length_append] at lengths
    exact List.length_eq_zero_iff.1 (by omega)
  rw [noneBehind, List.append_nil] at split
  rw [tokensFrom, if_pos (by omega), split, List.drop_left]

theorem headerAt_window (window : Window tokens first tokens.length inside) :
    ∃ found, headerAt tokens first = .ok found ∧ HeaderFound tokens found (header? inside) := by
  match inside with
  | [] =>
      have outside : tokens[first]? = none := by
        rw [List.getElem?_eq_none_iff, window.eq_of_nil]
      refine ⟨none, ?_, .none⟩
      rw [headerAt, outside]
  | [only] =>
      have outside : tokens[first + 1]? = none := by
        rw [List.getElem?_eq_none_iff, window.next.eq_of_nil]
      refine ⟨none, ?_, .none⟩
      rw [headerAt, window.getElem?, outside]
      exact ite_self _
  | key :: second :: rest =>
      rw [headerAt, window.getElem?, header?]
      dsimp only
      by_cases keyword : key.isWord "interface" = true
      · rw [if_pos keyword, window.next.getElem?, keyword]
        obtain ⟨gap, kind⟩ := second
        cases kind with
        | word name =>
            refine ⟨_, bind_of_ok (tokensFrom_window window.next.next) _, ?_⟩
            have opens := openingBrace?_window window.next.next
            dsimp only
            generalize openBody? rest = split, openingBrace? (first + 2) rest = brace at opens ⊢
            cases opens with
            | none => exact .none
            | some opens => exact .some ⟨rfl, opens⟩
        | quoted mark contents => exact ⟨none, rfl, .none⟩
        | punct c => exact ⟨none, rfl, .none⟩
      · rw [if_neg keyword, Bool.eq_false_iff.2 keyword]
        exact ⟨none, rfl, .none⟩

theorem nextHeader_window (window : Window tokens first tokens.length inside) :
    ∃ found, nextHeader tokens first = .ok found ∧
      found.getD tokens.length = first + (splitAtHeader inside).1.length := by
  rw [nextHeader]
  induction inside generalizing first with
  | nil => exact ⟨none, loop_stop window.not_lt_of_nil, window.length.symm⟩
  | cons token rest ih =>
      obtain ⟨header, isHeader, rel⟩ := headerAt_window window
      have step : headerTurn tokens () first = _ := bind_of_ok isHeader _
      rw [splitAtHeader]
      cases here : header? (token :: rest) with
      | some split =>
          rw [here] at rel
          obtain ⟨found, rfl, -⟩ := exists_of_rel_some rel
          exact ⟨some first, loop_leave window.lt step, rfl⟩
      | none =>
          rw [here] at rel
          obtain rfl := eq_none_of_rel_none rel
          obtain ⟨found, later, position⟩ := ih window.next
          refine ⟨found, ?_, ?_⟩
          · rw [loop_goOn window.lt step (Nat.lt_succ_self first)]
            exact later
          · rw [position]
            show _ = first + ((splitAtHeader rest).1.length + 1)
            omega

/-! ## Interfaces -/

/-- The body of an interface and what follows it. -/
def splitBody (inside : List Token) : List Token × List Token :=
  match splitClose? 0 inside with
  | some (body, _, after) => (body, after)
  | none => splitAtHeader inside

theorem bodyEnd_window {opening : Nat} (opens : Opens tokens opening inside) :
    ∃ finish next, bodyEnd tokens opening = .ok (finish, next) ∧
      Window tokens (opening + 1) finish (splitBody inside).1 ∧
      Window tokens next tokens.length (splitBody inside).2 := by
  obtain ⟨brace, isBrace, window⟩ := opens
  have start : bodyEnd tokens opening = _ := bind_of_ok (closingBrace_window window isBrace) _
  have behind := window.next
  rw [splitBody]
  cases closed : splitClose? 0 inside with
  | some split =>
      obtain ⟨body, close, after⟩ := split
      obtain ⟨rfl, -⟩ := splitClose?_eq_some_iff.1 closed
      rw [closed] at start
      exact ⟨_, _, start, behind.front, behind.behind.next⟩
  | none =>
      obtain ⟨header, isHeader, position⟩ := nextHeader_window behind
      rw [closed] at start
      dsimp only [Option.map_none] at start
      rw [bind_of_ok isHeader, position] at start
      rw [← splitAtHeader_append inside] at behind
      exact ⟨_, _, start, behind.front, behind.behind⟩

theorem length_splitBody (inside : List Token) :
    (splitBody inside).2.length ≤ inside.length := by
  rw [splitBody]
  cases closed : splitClose? 0 inside with
  | some split => exact Nat.le_of_lt (length_splitClose? closed)
  | none => exact length_splitAtHeader inside

theorem bodies_of_header {inside' : List Token} {name : String}
    (found : header? inside = some (name, inside')) :
    bodies inside = (name, (splitBody inside').1) :: bodies (splitBody inside').2 := by
  rw [splitBody]
  cases closed : splitClose? 0 inside' with
  | some split => exact bodies_of_closed found closed
  | none => exact bodies_of_open found closed

theorem interfaces_window (table : InterfaceTable)
    (window : Window stream.tokens first stream.tokens.length inside) :
    loop (interfaceTurn stream.text stream.tokens) (fun table _ => table) stream.tokens.length
        table first =
      .ok (((bodies inside).map fun (name, body) => interfaceOf name body).foldl
        InterfaceTable.insert table) := by
  induction length : inside.length using Nat.strong_induction_on
    generalizing inside first table with
  | _ size ih =>
  cases inside with
  | nil =>
      rw [bodies]
      exact loop_stop window.not_lt_of_nil
  | cons token rest =>
      obtain ⟨header, isHeader, rel⟩ := headerAt_window window
      have step : interfaceTurn stream.text stream.tokens table first = _ :=
        bind_of_ok isHeader _
      cases here : header? (token :: rest) with
      | none =>
          rw [here] at rel
          obtain rfl := eq_none_of_rel_none rel
          rw [loop_goOn window.lt step (Nat.lt_succ_self first), bodies_of_no_header here]
          exact ih rest.length (by rw [← length]; exact Nat.lt_succ_self _) table window.next rfl
      | some split =>
          obtain ⟨name, after⟩ := split
          rw [here] at rel
          obtain ⟨⟨name', opening⟩, rfl, rfl, opens⟩ := exists_of_rel_some rel
          obtain ⟨finish, next, ends, body, later⟩ := bodyEnd_window opens
          dsimp only at step
          rw [bind_of_ok ends] at step
          dsimp only at step
          rw [bind_of_ok (interfaceBetween_window _ body)] at step
          have fewer : (splitBody after).2.length < (token :: rest).length :=
            Nat.lt_of_le_of_lt (length_splitBody after) (length_header? here)
          rw [loop_goOn window.lt step (window.progress later fewer), bodies_of_header here,
            List.map_cons, List.foldl_cons]
          exact ih _ (by rw [← length]; exact fewer) _ later rfl

end Stream

/-- On every text extraction by positions is without a fault and finds what extraction finds. -/
theorem extract_eq_ok (source : String) :
    Positions.extract source = .ok (Declaration.extract source) := by
  have window := Window.whole (tokenize source).tokens
  have found := interfaces_window .empty window
  rw [text_tokenize] at found
  exact found

end ComponentGen.Declaration.Positions
