import ComponentGen.Proofs.Declaration.Braces
/-!
# Closed blocks

Between an opening brace and the one that closes it, every brace that opens is closed as well,
wherever one begins to look: the level in front of such a brace is at least that of the block, and
the level at the end of the block is lower than the one behind the brace. The members of a block are
read from what is left of it, so their object types are closed within the block, although the scan
for members counts other brackets along with braces, and passes over what is no member.
-/

namespace ComponentGen.Declaration

/-! ## Braces that are closed -/

/-- Every brace that opens is closed behind it, among the tokens. -/
def ClosesBraces (tokens : List Token) : Prop :=
  ∀ brace rest, brace.isPunct '{' = true → brace :: rest <:+ tokens →
    (splitClose? 0 rest).isSome = true

/-- What is left open closes no more braces than are open. -/
theorem staysWithin_of_open {depth : Nat} {tokens : List Token}
    (isOpen : splitClose? depth tokens = none) : StaysWithin depth tokens := by
  induction tokens generalizing depth with
  | nil =>
      intro before inside
      rw [List.prefix_nil.1 inside, braceLevel_nil]
      omega
  | cons token rest ih =>
      have goOn {next : Nat} (level : (next : Int) = depth + token.rise)
          (later : splitClose? next rest = none) : StaysWithin depth (token :: rest) := by
        refine staysWithin_cons.2 fun before inside => ?_
        have within := ih later before inside
        omega
      rw [splitClose?.eq_def] at isOpen
      dsimp only at isOpen
      by_cases opening : token.isPunct '{' = true
      · rw [if_pos opening, Option.map_eq_none_iff] at isOpen
        refine goOn ?_ isOpen
        rw [rise_of_opening opening]
        rfl
      rw [if_neg opening] at isOpen
      by_cases closing : token.isPunct '}' = true
      · rw [if_pos closing] at isOpen
        cases depth with
        | zero => cases isOpen
        | succ depth =>
            refine goOn ?_ (Option.map_eq_none_iff.1 isOpen)
            rw [rise_of_closing closing]
            omega
      · rw [if_neg closing, Option.map_eq_none_iff] at isOpen
        refine goOn ?_ isOpen
        rw [rise_of_other opening closing, Int.add_zero]

theorem balance_of_closed {tokens body after : List Token} {close : Token}
    (closed : splitClose? 0 tokens = some (body, close, after)) : BracesBalance body := by
  obtain ⟨-, -, within, total⟩ := splitClose?_eq_some_iff.1 closed
  constructor
  · intro before inside
    have := within before inside
    omega
  · omega

theorem BracesBalance.closesBraces {tokens : List Token} (balance : BracesBalance tokens) :
    ClosesBraces tokens := by
  rintro brace rest opens ⟨front, rfl⟩
  rw [Option.isSome_iff_ne_none]
  intro isOpen
  have inFront := balance.prefixes front (List.prefix_append front _)
  have behind := staysWithin_of_open isOpen rest (List.prefix_refl rest)
  have total := balance.total
  rw [braceLevel_append, braceLevel_cons, rise_of_opening opens] at total
  omega

/-- A range that ends at the brace that closes it closes every brace in it. -/
theorem closesBraces_of_closed {tokens body after : List Token} {close : Token}
    (closed : splitClose? 0 tokens = some (body, close, after)) : ClosesBraces body :=
  (balance_of_closed closed).closesBraces

/-! ## What is left behind a member -/

theorem dropReadonly_suffix (tokens : List Token) : dropReadonly tokens <:+ tokens := by
  unfold dropReadonly
  split
  · split
    · exact List.suffix_cons _ _
    · exact List.suffix_rfl
  · exact List.suffix_rfl

theorem dropPunct_suffix (marks : List Char) (tokens : List Token) :
    dropPunct marks tokens <:+ tokens := by
  unfold dropPunct
  split
  · split
    · exact List.suffix_cons _ _
    · exact List.suffix_rfl
  · exact List.suffix_rfl

theorem skipMember_suffix (depth : Nat) (tokens : List Token) :
    skipMember depth tokens <:+ tokens := by
  induction tokens generalizing depth with
  | nil => exact List.suffix_rfl
  | cons token rest ih =>
      unfold skipMember
      split
      · exact (ih _).trans (List.suffix_cons token rest)
      split
      · exact (ih _).trans (List.suffix_cons token rest)
      split
      · exact List.suffix_cons token rest
      · exact (ih _).trans (List.suffix_cons token rest)

/-- The type of a member is an object type, closed or not, or a plain one. -/
theorem memberType?_cases {tokens after : List Token} {type : MemberType}
    (found : memberType? tokens = some (type, after)) :
    (∃ brace rest, tokens = brace :: rest ∧ brace.isPunct '{' = true ∧
      ((splitClose? 0 rest = none ∧ type = .unclosed ∧ after = []) ∨
        ∃ body close, splitClose? 0 rest = some (body, close, after) ∧
          type = .block brace body close)) ∨
    ∃ text rest, tokens = text ++ rest ∧ type = .text text ∧ after = dropPunct [';', ','] rest := by
  unfold memberType? at found
  split at found
  · cases found
  next token rest =>
  split at found
  · next opens =>
      refine .inl ⟨token, rest, rfl, opens, ?_⟩
      split at found
      · next body close later closed =>
          cases found
          exact .inr ⟨body, close, closed, rfl⟩
      · next isOpen =>
          cases found
          exact .inl ⟨isOpen, rfl, rfl⟩
  · split at found
    · cases found
    · next text later _ divided =>
        cases found
        have whole := splitType_append 0 (token :: rest)
        rw [divided] at whole
        exact .inr ⟨text, later, whole.symm, rfl, rfl⟩

theorem suffix_of_memberType? {tokens after : List Token} {type : MemberType}
    (found : memberType? tokens = some (type, after)) : after <:+ tokens := by
  rcases memberType?_cases found with
    ⟨brace, rest, rfl, -, ⟨-, -, rfl⟩ | ⟨body, close, closed, -⟩⟩ | ⟨text, rest, rfl, -, rfl⟩
  · exact List.nil_suffix
  · obtain ⟨rfl, -⟩ := splitClose?_eq_some_iff.1 closed
    exact (List.suffix_cons close after).trans (List.suffix_append (brace :: body) _)
  · exact (dropPunct_suffix _ rest).trans (List.suffix_append text rest)

/-- The type of a member is read from what is left behind its name. -/
theorem exists_memberType?_of_member? {tokens after : List Token} {m : Member}
    (found : member? tokens = some (m, after)) :
    ∃ value, value <:+ tokens ∧ memberType? value = some (m.type, after) := by
  have start := dropReadonly_suffix tokens
  unfold member? at found
  split at found
  · cases found
  next token rest dropped =>
  rw [dropped] at start
  have mark := dropPunct_suffix ['?'] rest
  split at found
  · next name colon value _ marked =>
      rw [marked] at mark
      split at found
      · obtain ⟨⟨type, later⟩, typed, same⟩ := Option.map_eq_some_iff.1 found
        cases same
        refine ⟨value, ?_, typed⟩
        calc value <:+ colon :: value := List.suffix_cons colon value
          _ <:+ rest := mark
          _ <:+ token :: rest := List.suffix_cons token rest
          _ <:+ tokens := start
      · cases found
  · cases found

/-- The types of all members are read from what is left of the block. -/
theorem exists_memberType?_of_mem_members {tokens : List Token} {m : Member}
    (member : m ∈ members tokens) :
    ∃ value after, value <:+ tokens ∧ memberType? value = some (m.type, after) := by
  fun_induction members tokens with
  | case1 => cases member
  | case2 token rest first after found ih =>
      obtain ⟨value, isPart, typed⟩ := exists_memberType?_of_member? found
      rcases List.mem_cons.1 member with rfl | later
      · exact ⟨value, after, isPart, typed⟩
      · obtain ⟨other, otherAfter, isLater, otherTyped⟩ := ih later
        exact ⟨other, otherAfter,
          isLater.trans ((suffix_of_memberType? typed).trans isPart), otherTyped⟩
  | case3 token rest none_here ih =>
      obtain ⟨value, after, isLater, typed⟩ := ih member
      exact ⟨value, after, isLater.trans (skipMember_suffix 0 _), typed⟩

/-! ## Members of closed blocks -/

/-- Where every brace is closed, so is every object type of a member. -/
theorem ne_unclosed_of_mem_members {tokens : List Token} (closes : ClosesBraces tokens) {m : Member}
    (member : m ∈ members tokens) : m.type ≠ .unclosed := by
  obtain ⟨value, after, isPart, typed⟩ := exists_memberType?_of_mem_members member
  rcases memberType?_cases typed with
    ⟨brace, rest, rfl, opens, ⟨isOpen, -, -⟩ | ⟨body, close, -, isBlock⟩⟩ | ⟨text, rest, -, isText, -⟩
  · have isClosed := closes brace rest opens isPart
    rw [isOpen] at isClosed
    cases isClosed
  · rw [isBlock]
    exact nofun
  · rw [isText]
    exact nofun

/-- The block of an object type ends at the brace that closes it. -/
theorem closesBraces_of_block {tokens block : List Token} {opening closing : Token} {m : Member}
    (member : m ∈ members tokens) (isBlock : m.type = .block opening block closing) :
    ClosesBraces block := by
  obtain ⟨value, after, -, typed⟩ := exists_memberType?_of_mem_members member
  rw [isBlock] at typed
  rcases memberType?_cases typed with
    ⟨brace, rest, -, -, ⟨-, isOpen, -⟩ | ⟨body, close, closed, same⟩⟩ | ⟨text, rest, -, isText, -⟩
  · cases isOpen
  · cases same
    exact closesBraces_of_closed closed
  · cases isText

/-- Somewhere in the source stands the header of an interface whose brace is closed behind the
body. -/
def HasClosedInterface (source name : String) (body : List Token) : Prop :=
  ∃ tokens inside close after, tokens <:+ (tokenize source).tokens ∧
    header? tokens = some (name, inside) ∧ splitClose? 0 inside = some (body, close, after)

/-- A range that ends at the brace that closes it closes every brace in it. So an interface that is
closed loses no block: no member of its body is an object type that is left open, and no field in a
block of it is one. -/
theorem closed_interface_keeps_blocks :
    (∀ tokens body close after, splitClose? 0 tokens = some (body, close, after) →
      ClosesBraces body) ∧
    ∀ source name body, HasClosedInterface source name body →
      ∀ m ∈ members body, m.type ≠ .unclosed ∧
        ∀ opening block closing, m.type = .block opening block closing →
          ∀ field ∈ members block, field.type ≠ .unclosed := by
  refine ⟨fun tokens body close after => closesBraces_of_closed, ?_⟩
  rintro source name body ⟨tokens, inside, close, after, -, -, closed⟩ m member
  refine ⟨ne_unclosed_of_mem_members (closesBraces_of_closed closed) member, ?_⟩
  intro opening block closing isBlock field isField
  exact ne_unclosed_of_mem_members (closesBraces_of_block member isBlock) isField

/-- A card with braces in a field of its block, in a parameter, and in a member that is none. -/
def bracedCard : String :=
  "interface Card \x7b styleMap: \x7b gap: \x7b size: string \x7d \x7d; " ++
    "pick: (item: \x7b id: string \x7d) => void; ( \x7b skipped: \x7b \x7d \x7d \x7d"

theorem closed_interface_keeps_blocks_bracedCard :
    ∃ body, HasClosedInterface bracedCard "Card" body ∧ ClosesBraces body ∧
      ∀ m ∈ members body, m.type ≠ .unclosed ∧
        ∀ opening block closing, m.type = .block opening block closing →
          ∀ field ∈ members block, field.type ≠ .unclosed := by
  have isClosed : ((header? (tokenize bracedCard).tokens).bind fun header =>
      (splitClose? 0 header.2).map fun _ => header.1) = some "Card" := by decide +kernel
  obtain ⟨⟨name, inside⟩, header, closed⟩ := Option.bind_eq_some_iff.1 isClosed
  obtain ⟨⟨body, close, after⟩, closed, rfl⟩ := Option.map_eq_some_iff.1 closed
  have interface : HasClosedInterface bracedCard "Card" body :=
    ⟨_, inside, close, after, List.suffix_rfl, header, closed⟩
  exact ⟨body, interface, closed_interface_keeps_blocks.1 _ _ _ _ closed,
    closed_interface_keeps_blocks.2 _ _ _ interface⟩

end ComponentGen.Declaration
