import Mathlib.Data.List.Basic
/-!
# Texts that are read in one way

A text that is put together from pieces tells what the pieces are when it can be seen where each of
them ends. A run of characters of one kind ends in front of the first other character. Pieces behind
separators end where no separator follows, as long as what closes the list starts like none of them.
-/

namespace ComponentGen.Text

/-! ## Runs of characters -/

/-- A run of characters of a kind ends in front of this text. -/
def EndsRun (inRun : Char → Bool) (behind : List Char) : Prop :=
  ∀ c ∈ behind.head?, inRun c = false

theorem endsRun_cons {inRun : Char → Bool} {c : Char} (other : inRun c = false)
    (rest : List Char) : EndsRun inRun (c :: rest) := by
  intro first isFirst
  obtain rfl := Option.some.inj isFirst
  exact other

/-- Of a text that starts with a run, the run and what is behind it are known. -/
theorem run_append_inj {inRun : Char → Bool} {run other behind otherBehind : List Char}
    (inside : ∀ c ∈ run, inRun c = true) (otherInside : ∀ c ∈ other, inRun c = true)
    (ends : EndsRun inRun behind) (otherEnds : EndsRun inRun otherBehind)
    (same : run ++ behind = other ++ otherBehind) : run = other ∧ behind = otherBehind := by
  have upTo {run behind : List Char} (inside : ∀ c ∈ run, inRun c = true)
      (ends : EndsRun inRun behind) : (run ++ behind).takeWhile inRun = run := by
    rw [List.takeWhile_append_of_pos inside]
    cases behind with
    | nil => exact List.append_nil run
    | cons c rest =>
        rw [List.takeWhile_cons_of_neg (Bool.eq_false_iff.1 (ends c rfl)), List.append_nil]
  have runs : run = other := by
    rw [← upTo inside ends, same, upTo otherInside otherEnds]
  subst runs
  exact ⟨rfl, List.append_cancel_left same⟩

theorem toList_toString (n : Nat) : (toString n).toList = Nat.toDigits 10 n := by
  rw [Nat.toString_eq_repr, Nat.toList_repr]

theorem isDigit_of_mem_toDigits {n : Nat} {c : Char} (member : c ∈ Nat.toDigits 10 n) :
    c.isDigit = true :=
  Nat.isDigit_of_mem_toDigits (by decide) (by decide) member

/-- Numbers are known from their digits. -/
theorem toDigits_inj {n m : Nat} (same : Nat.toDigits 10 n = Nat.toDigits 10 m) : n = m := by
  have read := congrArg (fun digits => Nat.ofDigitChars 10 digits 0) same
  simpa using read

/-! ## Lists of items -/

variable {α : Type}

/-- Where the text of the item stands in front of one of the texts that may follow it, no other good
item can be read. -/
def ReadsOnlyAs (write : α → List Char) (good : α → Prop) (ends : List Char → Prop) (item : α) :
    Prop :=
  ∀ other, good other → ∀ behind otherBehind, ends behind → ends otherBehind →
    write item ++ behind = write other ++ otherBehind → item = other ∧ behind = otherBehind

/-- What lists of items have to do with the separator in front of each further item and with the text
that closes the list: neither an item nor a separator is taken for the closing text, and an item may
be followed by both. -/
structure Delimits (write : α → List Char) (good : α → Prop) (ends : List Char → Prop)
    (separator closing : List Char) : Prop where
  item_ne : ∀ item, good item → ∀ behind later, write item ++ behind ≠ closing ++ later
  separator_ne : ∀ item, good item → ∀ behind later,
    separator ++ (write item ++ behind) ≠ closing ++ later
  ends_separator : ∀ item, good item → ∀ behind, ends (separator ++ (write item ++ behind))
  ends_closing : ∀ behind, ends (closing ++ behind)

namespace Delimits

variable {write : α → List Char} {good : α → Prop} {ends : List Char → Prop}
  {separator closing behind otherBehind : List Char} {items others : List α}
  (delimits : Delimits write good ends separator closing)

include delimits

theorem ends_tail (areGood : ∀ item ∈ items, good item) :
    ends (items.flatMap (separator ++ write ·) ++ (closing ++ behind)) := by
  cases items with
  | nil => exact delimits.ends_closing behind
  | cons item rest =>
      rw [List.flatMap_cons, List.append_assoc, List.append_assoc]
      exact delimits.ends_separator item (areGood item List.mem_cons_self) _

/-- A separator in front of every item. -/
theorem tail_append_inj (each : ∀ item ∈ items, ReadsOnlyAs write good ends item)
    (areGood : ∀ item ∈ items, good item) (othersGood : ∀ item ∈ others, good item)
    (same : items.flatMap (separator ++ write ·) ++ (closing ++ behind) =
      others.flatMap (separator ++ write ·) ++ (closing ++ otherBehind)) :
    items = others ∧ behind = otherBehind := by
  induction items generalizing others with
  | nil =>
      cases others with
      | nil => exact ⟨rfl, List.append_cancel_left same⟩
      | cons other more =>
          rw [List.flatMap_cons, List.append_assoc, List.append_assoc] at same
          exact absurd same.symm
            (delimits.separator_ne other (othersGood other List.mem_cons_self) _ _)
  | cons item rest ih =>
      obtain ⟨isGood, restGood⟩ := List.forall_mem_cons.1 areGood
      cases others with
      | nil =>
          rw [List.flatMap_cons, List.append_assoc, List.append_assoc] at same
          exact absurd same (delimits.separator_ne item isGood _ _)
      | cons other more =>
          obtain ⟨otherGood, moreGood⟩ := List.forall_mem_cons.1 othersGood
          rw [List.flatMap_cons, List.flatMap_cons, List.append_assoc, List.append_assoc,
            List.append_assoc, List.append_assoc, List.append_right_inj] at same
          obtain ⟨rfl, later⟩ := each item List.mem_cons_self other otherGood _ _
            (delimits.ends_tail restGood) (delimits.ends_tail moreGood) same
          obtain ⟨rfl, closed⟩ := ih (fun item member => each item (List.mem_cons_of_mem _ member))
            restGood moreGood later
          exact ⟨rfl, closed⟩

/-- A separator between two items. -/
theorem intercalate_append_inj (each : ∀ item ∈ items, ReadsOnlyAs write good ends item)
    (areGood : ∀ item ∈ items, good item) (othersGood : ∀ item ∈ others, good item)
    (same : separator.intercalate (items.map write) ++ (closing ++ behind) =
      separator.intercalate (others.map write) ++ (closing ++ otherBehind)) :
    items = others ∧ behind = otherBehind := by
  have unfolded (item : α) (rest : List α) :
      separator.intercalate ((item :: rest).map write) =
        write item ++ rest.flatMap (separator ++ write ·) := by
    induction rest generalizing item with
    | nil => simp
    | cons next rest ih =>
        rw [List.map_cons, List.map_cons, List.intercalate_cons_cons, ← List.map_cons, ih,
          List.flatMap_cons, List.append_assoc, List.append_assoc]
  cases items with
  | nil =>
      cases others with
      | nil => exact ⟨rfl, List.append_cancel_left same⟩
      | cons other more =>
          rw [unfolded, List.append_assoc] at same
          exact absurd same.symm (delimits.item_ne other (othersGood other List.mem_cons_self) _ _)
  | cons item rest =>
      obtain ⟨isGood, restGood⟩ := List.forall_mem_cons.1 areGood
      cases others with
      | nil =>
          rw [unfolded, List.append_assoc] at same
          exact absurd same (delimits.item_ne item isGood _ _)
      | cons other more =>
          obtain ⟨otherGood, moreGood⟩ := List.forall_mem_cons.1 othersGood
          rw [unfolded, unfolded, List.append_assoc, List.append_assoc] at same
          obtain ⟨rfl, later⟩ := each item List.mem_cons_self other otherGood _ _
            (delimits.ends_tail restGood) (delimits.ends_tail moreGood) same
          obtain ⟨rfl, closed⟩ := delimits.tail_append_inj
            (fun item member => each item (List.mem_cons_of_mem _ member)) restGood moreGood later
          exact ⟨rfl, closed⟩

end Delimits

/-! ## Characters of joined texts -/

theorem mem_intercalate {c : Char} {separator : List Char} {pieces : List (List Char)}
    (member : c ∈ separator.intercalate pieces) : c ∈ separator ∨ ∃ piece ∈ pieces, c ∈ piece := by
  induction pieces with
  | nil => cases member
  | cons first rest ih =>
      cases rest with
      | nil => exact .inr ⟨first, List.mem_singleton_self first, by simpa using member⟩
      | cons second more =>
          rw [List.intercalate_cons_cons, List.mem_append, List.mem_append] at member
          rcases member with (inFirst | inSeparator) | later
          · exact .inr ⟨first, List.mem_cons_self, inFirst⟩
          · exact .inl inSeparator
          · exact (ih later).imp_right fun ⟨piece, isPiece, inPiece⟩ =>
              ⟨piece, List.mem_cons_of_mem _ isPiece, inPiece⟩

end ComponentGen.Text
