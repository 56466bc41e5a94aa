import ComponentGen.Generated.Story
import ComponentGen.Proofs.Component.Samples
import ComponentGen.Proofs.Placeholder.Declared
/-!
# The arguments of a story

The arguments of a story are looked up field by field, while whether there are any is decided by the
samples. Both come to the same, since every sample is one of a declared field: the arguments print
each sample once, in the block of its category and in the order of declaration.
-/

namespace ComponentGen

theorem Interface.nodup_fieldNames (i : Interface) (category : Category) :
    (i.fieldNames category).Nodup := by
  cases category with
  | style => exact OrderedMap.nodup_keys _
  | data => exact OrderedMap.nodup_keys _

namespace Samples

variable {i : Interface} {policy : CollisionPolicy} {index : PlaceholderIndex}

/-- Every sample is one of a declared field. -/
theorem declares_of_get?_find (built : PlaceholderIndex.build i policy = .ok index)
    {base merged : Node} {b : Binding} {sample : Json}
    (found : (find base merged index).get? b = some sample) : i.Declares b := by
  obtain ⟨site, key, isFirst⟩ := get?_find_eq_some_iff.1 found
  obtain ⟨value, -, s, target, -, resolved, rfl⟩ := isFirst.isSite.entry
  exact PlaceholderIndex.declares_of_resolve? built resolved

theorem isEmpty_iff {samples : Samples} : samples.isEmpty ↔ ∀ b, samples.get? b = none := by
  rw [isEmpty, Bool.and_eq_true, OrderedMap.isEmpty_iff, OrderedMap.isEmpty_iff]
  constructor
  · rintro ⟨styles, data⟩ ⟨category, key⟩
    cases category with
    | style => exact styles key
    | data => exact data key
  · intro nothing
    exact ⟨fun key => nothing ⟨.style, key⟩, fun key => nothing ⟨.data, key⟩⟩

theorem ofCategory_ne_nil {samples : Samples} {b : Binding} {sample : Json}
    (found : samples.get? b = some sample) : (samples.ofCategory b.category).entries ≠ [] :=
  List.ne_nil_of_mem (OrderedMap.mem_entries_of_get? found)

end Samples

namespace Generated.Story

/-- The entries are the samples of a category, each once, in the order of declaration. -/
structure ListsSamples (i : Interface) (samples : Samples) (category : Category)
    (printed : List (String × Json)) : Prop where
  once : printed.Perm (samples.ofCategory category).entries
  inOrder : (printed.map Prod.fst).Sublist (i.fieldNames category)

/-- The lines are arguments that print all samples: a line for the styles and one for the data,
where a block without samples has no line but one of the two is there. -/
def PrintsSamples (i : Interface) (samples : Samples) (lines : List String) : Prop :=
  ∃ styles data : List (String × Json),
    ListsSamples i samples .style styles ∧ ListsSamples i samples .data data ∧
    (styles ≠ [] ∨ data ≠ []) ∧
    lines = ["  args: \x7b"] ++ blockLine Category.style.block styles ++
      blockLine Category.data.block data ++ ["  \x7d,"]

variable {i : Interface} {policy : CollisionPolicy} {index : PlaceholderIndex}

theorem listsSamples_declared (built : PlaceholderIndex.build i policy = .ok index)
    (base merged : Node) (category : Category) :
    ListsSamples i (Samples.find base merged index) category
      (Samples.declared (i.fieldNames category)
        ((Samples.find base merged index).ofCategory category)) where
  once := by
    refine Samples.declared_perm (i.nodup_fieldNames category) fun key value isSample => ?_
    exact Samples.declares_of_get?_find (b := ⟨category, key⟩) built isSample
  inOrder := Samples.sublist_declared _ _

/-- A story has no arguments only if there are no samples, and otherwise it has arguments, whatever
else it could show, and they print every sample once. -/
theorem arguments_print_samples (built : PlaceholderIndex.build i policy = .ok index) (n : Node) :
    (arguments? i (Samples.find n n.merge index) = none ↔
      ∀ b, (Samples.find n n.merge index).get? b = none) ∧
    ∀ b sample, (Samples.find n n.merge index).get? b = some sample →
      ∃ lines, arguments? i (Samples.find n n.merge index) = some lines ∧
        PrintsSamples i (Samples.find n n.merge index) lines ∧
        ∀ options, chooseBody i (Samples.find n n.merge index) n.merge options =
          .arguments lines := by
  have given := listsSamples_declared built n n.merge
  constructor
  · rw [← Samples.isEmpty_iff, arguments?]
    split
    · next empty => exact iff_of_true rfl empty
    · next notEmpty => exact iff_of_false nofun notEmpty
  · intro b sample found
    have notEmpty : ¬ (Samples.find n n.merge index).isEmpty := by
      rw [Samples.isEmpty_iff]
      intro nothing
      rw [nothing b] at found
      cases found
    refine ⟨_, if_neg notEmpty, ⟨_, _, given .style, given .data, ?_, rfl⟩, fun options => ?_⟩
    · obtain ⟨category, key⟩ := b
      have listed := Samples.ofCategory_ne_nil found
      cases category with
      | style => exact .inl fun none => listed (List.nil_perm.1 (none ▸ (given .style).once))
      | data => exact .inr fun none => listed (List.nil_perm.1 (none ▸ (given .data).once))
    · rw [chooseBody, arguments?, if_neg notEmpty]

theorem arguments_print_samples_sampledTitleCard :
    PlaceholderIndex.build Samples.titleInterface .strict = .ok Samples.titleIndex ∧
    ∃ lines, lines = ["  args: \x7b", "    data: \x7b title: \"Hello\" \x7d,", "  \x7d,"] ∧
      PrintsSamples Samples.titleInterface (Samples.find Samples.sampledTitleCard
        Samples.sampledTitleCard.merge Samples.titleIndex) lines := by
  have built : PlaceholderIndex.build Samples.titleInterface .strict = .ok Samples.titleIndex := rfl
  obtain ⟨-, printed⟩ := arguments_print_samples built Samples.sampledTitleCard
  obtain ⟨lines, isArguments, prints, -⟩ :=
    printed ⟨.data, "title"⟩ (.string "Hello") rfl
  refine ⟨built, lines, ?_, prints⟩
  cases isArguments
  decide

end Generated.Story

end ComponentGen
