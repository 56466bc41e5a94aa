import ComponentGen.Proofs.Declaration.Braces
import ComponentGen.Proofs.OrderedMap
/-!
# Declarations in two texts in a row

A text that begins with a header can be appended to any other text that ends with a brace or a
semicolon: the interfaces of both are read as if each text stood alone. No header of the first text
reaches into the second one, a brace that the first text leaves open is closed by nothing in the
second, and a body that is left open ends in front of the header of the second text, where it would
have ended with the first text itself.
-/

namespace ComponentGen

/-! ## Tables -/

namespace InterfaceTable

theorem entries_foldl_insert (interfaces : List Interface) (table : InterfaceTable) :
    (interfaces.foldl insert table).interfaces.entries =
      Entries.putAll table.interfaces.entries (interfaces.map fun i => (i.name, i)) := by
  induction interfaces generalizing table with
  | nil => rfl
  | cons i rest ih => exact ih (table.insert i)

theorem map_named_toList (table : InterfaceTable) :
    (table.toList.map fun i => (i.name, i)) = table.interfaces.entries := by
  rw [toList, OrderedMap.values, List.map_map]
  calc table.interfaces.entries.map ((fun i => (i.name, i)) ∘ Prod.snd)
      = table.interfaces.entries.map id :=
        List.map_congr_left fun entry member => Prod.ext (table.named entry member).symm rfl
    _ = table.interfaces.entries := List.map_id _

/-- Inserting the interfaces of a table is inserting the interfaces that the table was built from:
what was replaced in the table is replaced in the other one as well. -/
theorem foldl_insert_ofList (interfaces : List Interface) (table : InterfaceTable) :
    (ofList interfaces).toList.foldl insert table = interfaces.foldl insert table := by
  apply ext
  apply OrderedMap.ext
  have built : (ofList interfaces).interfaces.entries =
      Entries.putAll [] (interfaces.map fun i => (i.name, i)) :=
    entries_foldl_insert interfaces empty
  rw [entries_foldl_insert, entries_foldl_insert, map_named_toList, built,
    Entries.putAll_putAll_nil]

end InterfaceTable

namespace Declaration

/-- The last token, if there is one, is a brace or a semicolon. -/
def Stops (tokens : List Token) : Prop :=
  ∀ last ∈ tokens.getLast?, ['{', '}', ';'].any last.isPunct = true

instance (tokens : List Token) : Decidable (Stops tokens) :=
  inferInstanceAs (Decidable (∀ last ∈ tokens.getLast?, _))

/-- A header stands at the front. -/
def StartsWithHeader (tokens : List Token) : Prop :=
  (header? tokens).isSome = true

instance (tokens : List Token) : Decidable (StartsWithHeader tokens) :=
  inferInstanceAs (Decidable (_ = true))

namespace Stops

theorem of_suffix {tokens rest : List Token} (stops : Stops tokens) (suffix : rest <:+ tokens) :
    Stops rest := by
  intro last member
  obtain ⟨front, rfl⟩ := suffix
  exact stops last (List.mem_getLast?_append_of_mem_getLast? member)

theorem of_cons {token : Token} {rest : List Token} (stops : Stops (token :: rest)) : Stops rest :=
  stops.of_suffix (List.suffix_cons token rest)

theorem single {token : Token} (stops : Stops [token]) :
    token.isPunct '{' = true ∨ token.isPunct '}' = true ∨ token.isPunct ';' = true := by
  have last := stops token (by simp)
  simpa [Bool.or_assoc] using last

end Stops

/-! ## Headers -/

/-- A header that is opened or given up stays so, whatever follows. -/
theorem openBody?_append {tokens : List Token} (stops : Stops tokens) (some_token : tokens ≠ [])
    (more : List Token) :
    openBody? (tokens ++ more) = (openBody? tokens).map (· ++ more) := by
  induction tokens with
  | nil => exact absurd rfl some_token
  | cons token rest ih =>
      rw [List.cons_append, openBody?, openBody?]
      by_cases opening : token.isPunct '{' = true
      · rw [if_pos opening, if_pos opening]
        rfl
      rw [if_neg opening, if_neg opening]
      by_cases givenUp : (token.isPunct '}' || token.isPunct ';') = true
      · rw [if_pos givenUp, if_pos givenUp]
        rfl
      rw [if_neg givenUp, if_neg givenUp]
      refine ih stops.of_cons ?_
      rintro rfl
      rcases stops.single with stop | stop | stop
      · exact opening stop
      · exact givenUp (by rw [stop, Bool.true_or])
      · exact givenUp (by rw [stop, Bool.or_true])

/-- No header in a text that stops looks into what follows. -/
theorem header?_append {tokens : List Token} (stops : Stops tokens) (some_token : tokens ≠ [])
    (more : List Token) :
    header? (tokens ++ more) =
      (header? tokens).map fun (name, inside) => (name, inside ++ more) := by
  match tokens with
  | [] => exact absurd rfl some_token
  | [first] =>
      have noWord : first.isWord "interface" = false := by
        rcases stops.single with stop | stop | stop
        all_goals
          rw [Token.isWord, isPunct_iff.1 stop]
          rfl
      cases more with
      | nil => rfl
      | cons second more =>
          rw [List.cons_append, List.nil_append, header?, noWord]
          rfl
  | [first, second] =>
      -- The name of an interface is a word, and the second token is none.
      rcases stops.of_cons.single with stop | stop | stop
      all_goals
        rw [List.cons_append, List.cons_append, header?, header?, isPunct_iff.1 stop]
        cases first.isWord "interface" <;> rfl
  | first :: second :: third :: rest =>
      rw [List.cons_append, List.cons_append, header?, header?,
        openBody?_append stops.of_cons.of_cons (List.cons_ne_nil third rest)]
      split
      · rw [Option.map_map, Option.map_map]
        rfl
      · rfl

theorem header?_append_of_eq_some {tokens inside : List Token} {name : String}
    (stops : Stops tokens) (found : header? tokens = some (name, inside)) (more : List Token) :
    header? (tokens ++ more) = some (name, inside ++ more) := by
  have some_token : tokens ≠ [] := by
    rintro rfl
    cases found
  rw [header?_append stops some_token, found]
  rfl

theorem startsWithHeader_append {token : Token} {rest : List Token}
    (stops : Stops (token :: rest)) (more : List Token) :
    StartsWithHeader (token :: rest ++ more) ↔ StartsWithHeader (token :: rest) := by
  rw [StartsWithHeader, StartsWithHeader, header?_append stops (List.cons_ne_nil token rest),
    Option.isSome_map]

theorem suffix_of_openBody? {tokens inside : List Token} (opened : openBody? tokens = some inside) :
    inside <:+ tokens := by
  induction tokens with
  | nil => cases opened
  | cons token rest ih =>
      rw [openBody?] at opened
      split at opened
      · obtain rfl : rest = inside := Option.some.inj opened
        exact List.suffix_cons token rest
      · split at opened
        · cases opened
        · exact (ih opened).trans (List.suffix_cons token rest)

theorem suffix_of_header? {tokens inside : List Token} {name : String}
    (found : header? tokens = some (name, inside)) : inside <:+ tokens := by
  match tokens with
  | [] => cases found
  | [_] => cases found
  | first :: second :: rest =>
      rw [header?] at found
      split at found
      · obtain ⟨opened, isOpened, same⟩ := Option.map_eq_some_iff.1 found
        cases same
        exact (suffix_of_openBody? isOpened).trans
          ((List.suffix_cons second rest).trans (List.suffix_cons first _))
      · cases found

theorem splitAtHeader_of_header {tokens : List Token} (here : StartsWithHeader tokens) :
    splitAtHeader tokens = ([], tokens) := by
  cases tokens with
  | nil => rfl
  | cons token rest => exact if_pos here

theorem splitAtHeader_of_no_header {token : Token} {rest : List Token}
    (not_here : ¬ StartsWithHeader (token :: rest)) :
    splitAtHeader (token :: rest) = (token :: (splitAtHeader rest).1, (splitAtHeader rest).2) :=
  if_neg not_here

/-- The next header is the next one of a text that stops, or else the one behind it. -/
theorem splitAtHeader_append_of_header {tokens more : List Token} (stops : Stops tokens)
    (next : StartsWithHeader more) :
    splitAtHeader (tokens ++ more) =
      ((splitAtHeader tokens).1, (splitAtHeader tokens).2 ++ more) := by
  induction tokens with
  | nil => exact splitAtHeader_of_header next
  | cons token rest ih =>
      have same := startsWithHeader_append stops more
      by_cases here : StartsWithHeader (token :: rest)
      · rw [splitAtHeader_of_header here, splitAtHeader_of_header (same.2 here)]
      · have not_now : ¬ StartsWithHeader (token :: (rest ++ more)) := mt same.1 here
        rw [List.cons_append, splitAtHeader_of_no_header here,
          splitAtHeader_of_no_header not_now, ih stops.of_cons]

/-! ## Bodies -/

/-- The declarations of a token list that stops and of one that begins with a header are read one
after the other, also when the first list leaves a body open. -/
theorem bodies_append {tokens more : List Token} (stops : Stops tokens)
    (next : StartsWithHeader more) (balance : BracesBalance more) :
    bodies (tokens ++ more) = bodies tokens ++ bodies more := by
  induction tokens using bodies.induct with
  | case1 => rw [bodies, List.nil_append, List.nil_append]
  | case2 token rest none_here ih =>
      have none_now : header? (token :: (rest ++ more)) = none := by
        rw [← List.cons_append, header?_append stops (List.cons_ne_nil token rest), none_here]
        rfl
      rw [bodies_of_no_header none_here, List.cons_append, bodies_of_no_header none_now,
        ih stops.of_cons]
  | case3 token rest name inside found body close after closed ih =>
      have found_now := header?_append_of_eq_some stops found more
      have later : Stops after := by
        obtain ⟨rfl, -⟩ := splitClose?_eq_some_iff.1 closed
        refine (stops.of_suffix (suffix_of_header? found)).of_suffix ?_
        exact (List.suffix_cons close after).trans (List.suffix_append body _)
      rw [bodies_of_closed found closed,
        bodies_of_closed found_now (splitClose?_append_of_closed closed more), ih later]
      rfl
  | case4 token rest name inside found isOpen ih =>
      -- The body ends in front of the next header, which is the one of `more` if no other is left.
      have found_now := header?_append_of_eq_some stops found more
      have insideStops : Stops inside := stops.of_suffix (suffix_of_header? found)
      have later : Stops (splitAtHeader inside).2 :=
        insideStops.of_suffix ⟨(splitAtHeader inside).1, splitAtHeader_append inside⟩
      rw [bodies_of_open found isOpen,
        bodies_of_open found_now (splitClose?_append_of_open isOpen balance),
        splitAtHeader_append_of_header insideStops next, ih later]
      rfl

/-! ## Texts -/

section Regap

variable (gap : List Char) (found : List Token × List Char)

theorem header?_pushGap : header? (pushGap gap found).1 = header? found.1 := by
  match found with
  | ([], _) => rfl
  | ([_], _) => rfl
  | (_ :: _ :: _, _) => rfl

theorem bodies_pushGap (here : StartsWithHeader found.1) :
    bodies (pushGap gap found).1 = bodies found.1 := by
  obtain ⟨⟨name, inside⟩, header⟩ := Option.isSome_iff_exists.1 here
  have header_now : header? (pushGap gap found).1 = some (name, inside) := by
    rw [header?_pushGap, header]
  cases closed : splitClose? 0 inside with
  | none => rw [bodies_of_open header closed, bodies_of_open header_now closed]
  | some split =>
      obtain ⟨body, close, after⟩ := split
      rw [bodies_of_closed header closed, bodies_of_closed header_now closed]

end Regap

/-- The tokens of a text behind a line feed. -/
theorem tokens_append_newline {first : String} (settled : Settled (tokenize first).tokens)
    (second : String) :
    ∃ gap, (tokenize (first ++ "\n" ++ second)).tokens =
      (tokenize first).tokens ++ (pushGap gap (tokensOf second.toList)).1 := by
  have lineFeed : tokensOf ('\n' :: second.toList) = pushGap ['\n'] (tokensOf second.toList) :=
    tokensOf_pushGap (splitGap_blank rfl second.toList)
  have whole := tokensOf_append settled (.inr ⟨second.toList, rfl⟩)
  have text : (first ++ "\n" ++ second).toList = first.toList ++ '\n' :: second.toList := by
    rw [String.toList_append, String.toList_append, List.append_assoc]
    rfl
  refine ⟨(tokensOf first.toList).2 ++ ['\n'], ?_⟩
  rw [tokenize, text, whole, lineFeed, pushGap_pushGap]
  rfl

/-- Two texts in a row declare what the first one declares, and then what the second one declares,
whether or not the interfaces of the first text are closed. -/
theorem extract_append_newline {first second : String}
    (stops : Stops (tokenize first).tokens) (settled : Settled (tokenize first).tokens)
    (header : StartsWithHeader (tokenize second).tokens)
    (balance : BracesBalance (tokenize second).tokens) :
    extract (first ++ "\n" ++ second) =
      (extract second).toList.foldl InterfaceTable.insert (extract first) := by
  obtain ⟨gap, tokens⟩ := tokens_append_newline settled second
  have split : bodies (tokenize (first ++ "\n" ++ second)).tokens =
      bodies (tokenize first).tokens ++ bodies (tokenize second).tokens := by
    rw [tokens, bodies_append stops ?_ (balance.pushGap gap),
      bodies_pushGap gap _ header]
    · rfl
    · rw [StartsWithHeader, header?_pushGap]
      exact header
  calc extract (first ++ "\n" ++ second)
      = ((bodies (tokenize second).tokens).map fun (name, body) => interfaceOf name body).foldl
          InterfaceTable.insert (extract first) := by
        rw [extract, split, List.map_append, InterfaceTable.ofList, List.foldl_append]
        rfl
    _ = (extract second).toList.foldl InterfaceTable.insert (extract first) :=
        (InterfaceTable.foldl_insert_ofList _ _).symm

/-- A body and a block in it that are left open. -/
def openCard : String := "interface Card \x7b data: \x7b title: string;"

theorem extract_append_newline_openCard :
    extract (openCard ++ "\n" ++ "interface Button \x7b data: \x7b label: string \x7d \x7d") =
      (extract "interface Button \x7b data: \x7b label: string \x7d \x7d").toList.foldl
        InterfaceTable.insert (extract openCard) :=
  extract_append_newline (by decide +kernel) (by decide +kernel) (by decide +kernel)
    (by decide +kernel)

end Declaration

end ComponentGen
