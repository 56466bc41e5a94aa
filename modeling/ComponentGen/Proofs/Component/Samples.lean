import ComponentGen.Component.Sample
import ComponentGen.Proofs.Component.Merging
import Mathlib.Data.List.Basic
/-!
# First samples

Where a tree holds placeholders, its merged form shows samples. A field may stand at several sites of
a tree; its sample is taken at the first of them where the merged form has a value, in pre-order,
styles before data. Merging keeps every key of a node that it shows, so a site is passed over only
below a node whose own children are replaced by those of its overlay.
-/

namespace ComponentGen

/-! ## Sites -/

/-- Where a value stands in a tree: the child indices that lead to its node, one of the two maps of
the node, and the index of its entry in that map. -/
structure Site where
  path : List Nat
  block : Category
  entry : Nat

namespace Site

/-- The order in which a tree is searched for samples. -/
inductive Before : Site → Site → Prop
  /-- Nodes are visited in pre-order. -/
  | path {path otherPath : List Nat} {block otherBlock : Category} {entry otherEntry : Nat}
      (earlier : path < otherPath) : Before ⟨path, block, entry⟩ ⟨otherPath, otherBlock, otherEntry⟩
  /-- The styles of a node come before its data. -/
  | block {path : List Nat} {entry otherEntry : Nat} :
      Before ⟨path, .style, entry⟩ ⟨path, .data, otherEntry⟩
  /-- The entries of a map come in their order. -/
  | entry {path : List Nat} {block : Category} {entry otherEntry : Nat}
      (earlier : entry < otherEntry) : Before ⟨path, block, entry⟩ ⟨path, block, otherEntry⟩

theorem Before.asymm {first second : Site} (before : first.Before second) :
    ¬ second.Before first := by
  intro after
  cases before with
  | path earlier =>
      cases after with
      | path later => exact List.lt_asymm earlier later
      | block => exact List.lt_irrefl _ earlier
      | entry => exact List.lt_irrefl _ earlier
  | block =>
      cases after with
      | path later => exact List.lt_irrefl _ later
  | entry earlier =>
      cases after with
      | path later => exact List.lt_irrefl _ later
      | entry later => exact Nat.lt_asymm earlier later

/-- The site in a tree of a site in the nested tree with the given index. -/
def below (i : Nat) (site : Site) : Site :=
  { site with path := i :: site.path }

theorem Before.below {first second : Site} (before : first.Before second) (i : Nat) :
    (first.below i).Before (second.below i) := by
  cases before with
  | path earlier => exact .path (List.cons_lt_cons_iff.2 (.inr ⟨rfl, earlier⟩))
  | block => exact .block
  | entry earlier => exact .entry earlier

end Site

namespace Node

/-- The node that is reached by descending along child indices. -/
def nodeAt? (n : Node) : List Nat → Option Node
  | [] => some n
  | i :: rest => n.childNodes[i]?.bind fun child => child.nodeAt? rest

theorem nodeAt?_cons (n : Node) (i : Nat) (rest : List Nat) :
    n.nodeAt? (i :: rest) = n.childNodes[i]?.bind fun child => child.nodeAt? rest := rfl

/-- The map of a node that holds a category. -/
def ofCategory (n : Node) : Category → OrderedMap Json
  | .style => n.styleMap
  | .data => n.data

/-- The key and the value at a site of a tree. -/
def entryAt? (n : Node) (site : Site) : Option (String × Json) :=
  (n.nodeAt? site.path).bind fun node => (node.ofCategory site.block).entries[site.entry]?

/-- The value that a tree has under a key, in the map that a site is in. -/
def underKey? (n : Node) (site : Site) (key : String) : Option Json :=
  (n.nodeAt? site.path).bind fun node => (node.ofCategory site.block).get? key

end Node

namespace Samples

/-- The value is a string that stands for the field. -/
def StandsFor (index : PlaceholderIndex) (value : Json) (b : Binding) : Prop :=
  ∃ s target, value = .string s ∧ index.resolve? s = some target ∧ target.binding = b

/-- A site of a field in two trees. The first tree holds a string there that stands for the field,
and the second tree has a node at the same position, whether or not it has a value under the key. -/
structure IsSite (index : PlaceholderIndex) (base merged : Node) (b : Binding) (site : Site)
    (key : String) : Prop where
  paired : (merged.nodeAt? site.path).isSome
  entry : ∃ value, base.entryAt? site = some (key, value) ∧ StandsFor index value b

/-- The first site of a field at which the second tree has a value. -/
structure IsFirstSite (index : PlaceholderIndex) (base merged : Node) (b : Binding) (site : Site)
    (key : String) (sample : Json) : Prop where
  isSite : IsSite index base merged b site key
  value : merged.underKey? site key = some sample
  first : ∀ other otherKey, IsSite index base merged b other otherKey →
    (merged.underKey? other otherKey).isSome → other = site ∨ site.Before other

end Samples

/-! ## The visited values -/

/-- The values at which two maps are compared, each with its site in the node of the maps. -/
def visitedMap (block : Category) (base merged : OrderedMap Json) :
    List (Site × Json × Option Json) :=
  base.entries.zipIdx.map fun (entry, i) => (⟨[], block, i⟩, entry.2, merged.get? entry.1)

theorem mem_visitedMap_iff {block : Category} {base merged : OrderedMap Json} {site : Site}
    {values : Json × Option Json} :
    (site, values) ∈ visitedMap block base merged ↔
      site.path = [] ∧ site.block = block ∧ ∃ key value,
        base.entries[site.entry]? = some (key, value) ∧ values = (value, merged.get? key) := by
  rw [visitedMap, List.mem_map]
  constructor
  · rintro ⟨⟨⟨key, value⟩, i⟩, member, same⟩
    obtain ⟨rfl, rfl⟩ := Prod.ext_iff.1 same
    exact ⟨rfl, rfl, key, value, List.mem_zipIdx_iff_getElem?.1 member, rfl⟩
  · obtain ⟨path, ownBlock, i⟩ := site
    rintro ⟨rfl, rfl, key, value, found, rfl⟩
    exact ⟨((key, value), i), List.mem_zipIdx_iff_getElem?.2 found, rfl⟩

theorem pairwise_visitedMap (block : Category) (base merged : OrderedMap Json) :
    (visitedMap block base merged).Pairwise fun first second => first.1.Before second.1 := by
  rw [visitedMap, List.pairwise_map]
  exact (pairwise_zipIdx base.entries).imp fun earlier => .entry earlier

namespace Node

/-- The values at which two trees are compared, each with its site. -/
def visited (base merged : Node) : List (Site × Json × Option Json) :=
  visitedMap .style base.styleMap merged.styleMap ++ visitedMap .data base.data merged.data ++
    (base.childNodes.zip merged.childNodes).zipIdx.attach.flatMap fun ⟨((child, other), i), _⟩ =>
      (visited child other).map fun (site, values) => (site.below i, values)
termination_by sizeOf base
decreasing_by
  have paired := List.fst_mem_of_mem_zipIdx ‹((child, other), i) ∈ _›
  exact sizeOf_lt_of_mem_childNodes (List.of_mem_zip paired).1

theorem visited_eq (base merged : Node) :
    base.visited merged =
      visitedMap .style base.styleMap merged.styleMap ++ visitedMap .data base.data merged.data ++
        (base.childNodes.zip merged.childNodes).zipIdx.flatMap fun ((child, other), i) =>
          (visited child other).map fun (site, values) => (site.below i, values) := by
  rw [visited]
  simp only [List.flatMap_subtype, List.unattach_attach]

theorem samplePairsList_eq_flatMap (nodes others : List Node) :
    samplePairsList nodes others =
      (nodes.zip others).flatMap fun (child, other) => child.samplePairs other := by
  induction nodes generalizing others with
  | nil => rfl
  | cons node rest ih =>
      cases others with
      | nil => rfl
      | cons other more => rw [samplePairsList, ih, List.zip_cons_cons, List.flatMap_cons]

theorem samplePairs_eq (base merged : Node) :
    base.samplePairs merged =
      mapPairs base.styleMap merged.styleMap ++ mapPairs base.data merged.data ++
        (base.childNodes.zip merged.childNodes).flatMap fun (child, other) =>
          child.samplePairs other := by
  obtain ⟨type, props, styleMap, data, children, sample⟩ := base
  rw [samplePairs]
  refine congrArg _ ?_
  cases children with
  | absent => rfl
  | single node => 
      cases merged.childNodes with
      | nil => rfl
      | cons other more => exact (List.append_nil _).symm
  | list nodes => exact samplePairsList_eq_flatMap nodes merged.childNodes

/-- The sites do not change which values are compared. -/
theorem map_snd_visited (base merged : Node) :
    (base.visited merged).map Prod.snd = base.samplePairs merged := by
  have ofMap (block : Category) (map other : OrderedMap Json) :
      (visitedMap block map other).map Prod.snd = mapPairs map other := by
    conv_rhs => rw [mapPairs, ← List.zipIdx_map_fst 0 map.entries, List.map_map]
    rw [visitedMap, List.map_map]
    rfl
  induction base using nested generalizing merged with
  | node base ih =>
      rw [visited_eq, samplePairs_eq, List.map_append, List.map_append, ofMap, ofMap,
        List.map_flatMap]
      refine congrArg _ ?_
      calc _ = (base.childNodes.zip merged.childNodes).zipIdx.flatMap fun pair =>
              pair.1.1.samplePairs pair.1.2 := by
            refine List.flatMap_congr ?_
            rintro ⟨⟨child, other⟩, i⟩ member
            have inZip := List.fst_mem_of_mem_zipIdx member
            rw [← ih child (List.of_mem_zip inZip).1 other, List.map_map]
            rfl
        _ = ((base.childNodes.zip merged.childNodes).zipIdx.map Prod.fst).flatMap fun pair =>
              pair.1.samplePairs pair.2 := by rw [List.flatMap_map]
        _ = _ := by rw [List.zipIdx_map_fst]

/-- What is compared at the root of two trees. -/
theorem mem_visited_nil_iff {base merged : Node} {block : Category} {i : Nat}
    {values : Json × Option Json} :
    (⟨[], block, i⟩, values) ∈ base.visited merged ↔
      ∃ key value, (base.ofCategory block).entries[i]? = some (key, value) ∧
        values = (value, (merged.ofCategory block).get? key) := by
  rw [visited_eq, List.mem_append, List.mem_append, mem_visitedMap_iff, mem_visitedMap_iff,
    List.mem_flatMap]
  constructor
  · rintro ((⟨-, rfl, found⟩ | ⟨-, rfl, found⟩) | ⟨pair, -, inside⟩)
    · exact found
    · exact found
    · obtain ⟨found, -, same⟩ := List.mem_map.1 inside
      cases congrArg (fun entry => entry.1.path) same
  · intro found
    cases block with
    | style => exact .inl (.inl ⟨rfl, rfl, found⟩)
    | data => exact .inl (.inr ⟨rfl, rfl, found⟩)

/-- What is compared below the root is compared in a pair of nested trees. -/
theorem mem_visited_cons_iff {base merged : Node} {i : Nat} {rest : List Nat} {block : Category}
    {entry : Nat} {values : Json × Option Json} :
    (⟨i :: rest, block, entry⟩, values) ∈ base.visited merged ↔
      ∃ child other, base.childNodes[i]? = some child ∧ merged.childNodes[i]? = some other ∧
        (⟨rest, block, entry⟩, values) ∈ child.visited other := by
  rw [visited_eq, List.mem_append, List.mem_append, mem_visitedMap_iff, mem_visitedMap_iff,
    List.mem_flatMap]
  constructor
  · rintro ((⟨atRoot, -⟩ | ⟨atRoot, -⟩) | ⟨⟨⟨child, other⟩, k⟩, paired, inside⟩)
    · cases atRoot
    · cases atRoot
    · obtain ⟨⟨site, _⟩, found, same⟩ := List.mem_map.1 inside
      cases same
      obtain ⟨here, there⟩ := List.getElem?_zip_eq_some.1 (List.mem_zipIdx_iff_getElem?.1 paired)
      exact ⟨child, other, here, there, found⟩
  · rintro ⟨child, other, here, there, found⟩
    have paired : ((child, other), i) ∈ (base.childNodes.zip merged.childNodes).zipIdx :=
      List.mem_zipIdx_iff_getElem?.2 (List.getElem?_zip_eq_some.2 ⟨here, there⟩)
    exact .inr ⟨_, paired, List.mem_map.2 ⟨_, found, rfl⟩⟩

/-- Two trees are compared at the sites of the first one whose nodes the second one has too. -/
theorem mem_visited_iff {base merged : Node} {site : Site} {value : Json} {other? : Option Json} :
    (site, value, other?) ∈ base.visited merged ↔
      (merged.nodeAt? site.path).isSome ∧
        ∃ key, base.entryAt? site = some (key, value) ∧ other? = merged.underKey? site key := by
  obtain ⟨path, block, i⟩ := site
  induction path generalizing base merged with
  | nil =>
      rw [mem_visited_nil_iff]
      constructor
      · rintro ⟨key, _, found, same⟩
        cases same
        exact ⟨rfl, key, found, rfl⟩
      · rintro ⟨-, key, found, rfl⟩
        exact ⟨key, value, found, rfl⟩
  | cons first rest ih =>
      rw [mem_visited_cons_iff]
      simp only [entryAt?, underKey?, nodeAt?_cons] at ih ⊢
      constructor
      · rintro ⟨child, other, here, there, inside⟩
        rw [here, there]
        exact ih.1 inside
      · rintro ⟨reached, key, found, same⟩
        obtain ⟨node, atNode, isEntry⟩ := Option.bind_eq_some_iff.1 found
        obtain ⟨child, here, below⟩ := Option.bind_eq_some_iff.1 atNode
        cases there : merged.childNodes[first]? with
        | none =>
            rw [there] at reached
            cases reached
        | some other =>
            rw [there] at reached same
            rw [here] at found
            exact ⟨child, other, here, rfl, ih.2 ⟨reached, key, found, same⟩⟩

/-- The values are compared in the order of their sites. -/
theorem pairwise_visited (base merged : Node) :
    (base.visited merged).Pairwise fun first second => first.1.Before second.1 := by
  induction base using nested generalizing merged with
  | node base ih =>
      rw [visited_eq, List.pairwise_append, List.pairwise_append, List.pairwise_flatMap]
      refine ⟨⟨pairwise_visitedMap _ _ _, pairwise_visitedMap _ _ _, ?_⟩, ⟨?_, ?_⟩, ?_⟩
      · rintro ⟨⟨path, block, i⟩, _⟩ inStyles ⟨⟨otherPath, otherBlock, k⟩, _⟩ inData
        obtain ⟨rfl, rfl, -⟩ := mem_visitedMap_iff.1 inStyles
        obtain ⟨rfl, rfl, -⟩ := mem_visitedMap_iff.1 inData
        exact .block
      · rintro ⟨⟨child, other⟩, i⟩ paired
        have inZip := List.fst_mem_of_mem_zipIdx paired
        rw [List.pairwise_map]
        exact (ih child (List.of_mem_zip inZip).1 other).imp fun before => before.below i
      · refine (pairwise_zipIdx _).imp ?_
        rintro ⟨pair, i⟩ ⟨otherPair, k⟩ earlier entry inside otherEntry inOther
        obtain ⟨found, -, rfl⟩ := List.mem_map.1 inside
        obtain ⟨otherFound, -, rfl⟩ := List.mem_map.1 inOther
        exact .path (List.cons_lt_cons_iff.2 (.inl earlier))
      · rintro ⟨⟨path, block, i⟩, _⟩ own entry below
        obtain ⟨pair, -, inside⟩ := List.mem_flatMap.1 below
        obtain ⟨found, -, rfl⟩ := List.mem_map.1 inside
        have atRoot : path = [] := by
          rcases List.mem_append.1 own with inStyles | inData
          · exact (mem_visitedMap_iff.1 inStyles).1
          · exact (mem_visitedMap_iff.1 inData).1
        subst atRoot
        exact .path (List.nil_lt_cons _ _)

end Node

/-! ## Samples of visited values -/

namespace Samples

variable {index : PlaceholderIndex} {b : Binding}

/-- A sample is recorded for a field that has none; all others stay. -/
theorem get?_record (s : Samples) (sample : Binding × Json) (b : Binding) :
    (s.record sample).get? b = (s.get? b).or (if b = sample.1 then some sample.2 else none) := by
  obtain ⟨⟨category, key⟩, value⟩ := sample
  rw [record]
  cases known : s.get? ⟨category, key⟩ with
  | some old =>
      rw [Option.isSome_some, if_pos rfl]
      by_cases same : b = ⟨category, key⟩
      · rw [same, known, Option.some_or]
      · rw [if_neg same, Option.or_none]
  | none =>
      obtain ⟨bCategory, bKey⟩ := b
      by_cases sameKey : bKey = key <;> cases category <;> cases bCategory <;>
        simp_all [get?, ofCategory, OrderedMap.get?_insert]

/-- Of several samples of a field the first one is kept. -/
theorem get?_foldl_record (samples : List (Binding × Json)) (s : Samples) (b : Binding) :
    (samples.foldl record s).get? b = (s.get? b).or (samples.lookup b) := by
  induction samples generalizing s with
  | nil => exact (Option.or_none).symm
  | cons sample rest ih =>
      rw [List.foldl_cons, ih, get?_record, Option.or_assoc, List.lookup_cons]
      by_cases same : b = sample.1
      · rw [if_pos same, beq_iff_eq.2 same, Option.some_or]
      · rw [if_neg same, beq_false_of_ne same, Option.none_or]

/-- The sample of a field that a pair of values gives. -/
def sampleOf? (index : PlaceholderIndex) (b : Binding) (values : Json × Option Json) :
    Option Json :=
  (ofPair? index values).bind fun sample => if sample.1 = b then some sample.2 else none

theorem lookup_filterMap_ofPair? (pairs : List (Json × Option Json)) :
    (pairs.filterMap (ofPair? index)).lookup b = pairs.findSome? (sampleOf? index b) := by
  induction pairs with
  | nil => rfl
  | cons values rest ih =>
      rw [List.filterMap_cons, List.findSome?_cons, sampleOf?]
      cases ofPair? index values with
      | none => exact ih
      | some sample =>
          rw [List.lookup_cons, ih, Option.bind_some]
          by_cases same : sample.1 = b
          · rw [if_pos same, beq_iff_eq.2 same.symm]
          · rw [if_neg same, beq_false_of_ne (Ne.symm same)]

theorem sampleOf?_eq_some_iff {values : Json × Option Json} {sample : Json} :
    sampleOf? index b values = some sample ↔ ofPair? index values = some (b, sample) := by
  rw [sampleOf?, Option.bind_eq_some_iff]
  constructor
  · rintro ⟨⟨other, value⟩, given, kept⟩
    rw [given]
    split at kept
    · next same =>
        obtain rfl : other = b := same
        obtain rfl : value = sample := Option.some.inj kept
        rfl
    · cases kept
  · intro given
    exact ⟨(b, sample), given, if_pos rfl⟩

theorem ofPair?_eq_some_iff {value sample : Json} {other? : Option Json} :
    ofPair? index (value, other?) = some (b, sample) ↔
      StandsFor index value b ∧ other? = some sample := by
  rw [ofPair?.eq_def]
  split
  · next s other same =>
      cases same
      rw [Option.map_eq_some_iff]
      constructor
      · rintro ⟨target, resolved, given⟩
        cases given
        exact ⟨⟨s, target, rfl, resolved, rfl⟩, rfl⟩
      · rintro ⟨⟨_, target, isString, resolved, rfl⟩, isSample⟩
        cases isString
        cases isSample
        exact ⟨target, resolved, rfl⟩
  · next _ other =>
      refine iff_of_false nofun ?_
      rintro ⟨⟨s, target, rfl, resolved, rfl⟩, rfl⟩
      exact other s sample rfl

/-- In an ordered list, what is found first is found at the least item of those where something is
found. -/
theorem findSome?_eq_some_iff_least {α β : Type} {before : α → α → Prop} {f : α → Option β}
    {items : List α} {result : β} (ascending : items.Pairwise before)
    (asymm : ∀ first second, before first second → ¬ before second first) :
    items.findSome? f = some result ↔
      ∃ item ∈ items, f item = some result ∧
        ∀ other ∈ items, (f other).isSome → other = item ∨ before item other := by
  rw [List.findSome?_eq_some_iff]
  constructor
  · rintro ⟨front, item, back, rfl, found, none⟩
    refine ⟨item, by simp, found, fun other member isFound => ?_⟩
    rcases List.mem_append.1 member with inFront | inBack
    · rw [none other inFront] at isFound
      cases isFound
    · rcases List.mem_cons.1 inBack with rfl | later
      · exact .inl rfl
      · exact .inr (List.rel_of_pairwise_cons (List.pairwise_append.1 ascending).2.1 later)
  · rintro ⟨item, member, found, least⟩
    obtain ⟨front, back, rfl⟩ := List.append_of_mem member
    refine ⟨front, item, back, rfl, found, fun other inFront => ?_⟩
    have earlier : before other item :=
      (List.pairwise_append.1 ascending).2.2 other inFront item List.mem_cons_self
    cases isFound : f other with
    | none => rfl
    | some value =>
        rcases least other (List.mem_append_left _ inFront) (by rw [isFound]; rfl) with rfl | later
        · exact absurd earlier (asymm _ _ earlier)
        · exact absurd later (asymm _ _ earlier)

/-- A visited value gives a sample of a field exactly at a site of the field at which the second
tree has a value. -/
theorem sample_visited_iff {base merged : Node} {site : Site} {value : Json} {other? : Option Json}
    {sample : Json} :
    ((site, value, other?) ∈ base.visited merged ∧
        sampleOf? index b (value, other?) = some sample) ↔
      ∃ key, base.entryAt? site = some (key, value) ∧ IsSite index base merged b site key ∧
        merged.underKey? site key = some sample ∧ other? = some sample := by
  rw [Node.mem_visited_iff, sampleOf?_eq_some_iff, ofPair?_eq_some_iff]
  constructor
  · rintro ⟨⟨paired, key, entry, rfl⟩, stands, given⟩
    exact ⟨key, entry, ⟨paired, value, entry, stands⟩, given, given⟩
  · rintro ⟨key, entry, ⟨paired, other, sameEntry, stands⟩, given, rfl⟩
    rw [entry] at sameEntry
    cases sameEntry
    exact ⟨⟨paired, key, entry, given.symm⟩, stands, rfl⟩

theorem get?_find (index : PlaceholderIndex) (base merged : Node) (b : Binding) :
    (find base merged index).get? b =
      (base.visited merged).findSome? fun entry => sampleOf? index b entry.2 := by
  have nothing : ({} : Samples).get? b = none := by
    obtain ⟨category, key⟩ := b
    cases category <;> rfl
  rw [find, get?_foldl_record, nothing, Option.none_or, lookup_filterMap_ofPair?,
    ← Node.map_snd_visited, List.findSome?_map]
  rfl

/-- The sample of a field is the value at its first site. -/
theorem get?_find_eq_some_iff {base merged : Node} {sample : Json} :
    (find base merged index).get? b = some sample ↔
      ∃ site key, IsFirstSite index base merged b site key sample := by
  rw [get?_find, findSome?_eq_some_iff_least (Node.pairwise_visited base merged)
    fun _ _ before => before.asymm]
  constructor
  · rintro ⟨⟨site, value, other?⟩, member, given, least⟩
    obtain ⟨key, -, isSite, isSample, -⟩ := sample_visited_iff.1 ⟨member, given⟩
    refine ⟨site, key, isSite, isSample, fun otherSite otherKey isOther hasValue => ?_⟩
    obtain ⟨otherValue, otherEntry, -⟩ := isOther.entry
    obtain ⟨otherSample, isOtherSample⟩ := Option.isSome_iff_exists.1 hasValue
    obtain ⟨otherMember, otherGiven⟩ :=
      sample_visited_iff.2 ⟨otherKey, otherEntry, isOther, isOtherSample, rfl⟩
    refine (least _ otherMember (Option.isSome_iff_exists.2 ⟨_, otherGiven⟩)).imp_left ?_
    exact congrArg Prod.fst
  · rintro ⟨site, key, isSite, isSample, first⟩
    obtain ⟨value, entry, -⟩ := isSite.entry
    obtain ⟨member, given⟩ := sample_visited_iff.2 ⟨key, entry, isSite, isSample, rfl⟩
    refine ⟨_, member, given, ?_⟩
    rintro ⟨otherSite, otherValue, other?⟩ otherMember isFound
    obtain ⟨otherSample, otherGiven⟩ := Option.isSome_iff_exists.1 isFound
    obtain ⟨otherKey, otherEntry, isOther, isOtherSample, rfl⟩ :=
      sample_visited_iff.1 ⟨otherMember, otherGiven⟩
    rcases first _ _ isOther (Option.isSome_iff_exists.2 ⟨_, isOtherSample⟩) with rfl | before
    · rw [entry] at otherEntry
      cases otherEntry
      rw [isSample] at isOtherSample
      exact .inl (isOtherSample ▸ rfl)
    · exact .inr before

/-- A field has a sample as soon as the second tree has a value at one of its sites. -/
theorem isSome_get?_find {base merged : Node} {site : Site} {key : String}
    (isSite : IsSite index base merged b site key) (hasValue : (merged.underKey? site key).isSome) :
    ((find base merged index).get? b).isSome := by
  obtain ⟨value, entry, -⟩ := isSite.entry
  obtain ⟨sample, isSample⟩ := Option.isSome_iff_exists.1 hasValue
  obtain ⟨member, given⟩ := sample_visited_iff.2 ⟨key, entry, isSite, isSample, rfl⟩
  rw [get?_find, List.findSome?_isSome_iff]
  exact ⟨_, member, Option.isSome_iff_exists.2 ⟨sample, given⟩⟩

/-! ### Samples in the order of declaration -/

/-- Samples are given in the order of the declared names. -/
theorem sublist_declared (names : List String) (samples : OrderedMap Json) :
    ((declared names samples).map Prod.fst).Sublist names := by
  induction names with
  | nil => exact List.Sublist.refl []
  | cons name rest ih =>
      rw [declared, List.filterMap_cons]
      cases samples.get? name with
      | none => exact ih.cons name
      | some value => exact ih.cons_cons name

theorem mem_declared_iff {names : List String} {samples : OrderedMap Json} {key : String}
    {value : Json} :
    (key, value) ∈ declared names samples ↔ key ∈ names ∧ samples.get? key = some value := by
  rw [declared, List.mem_filterMap]
  constructor
  · rintro ⟨name, member, found⟩
    obtain ⟨_, isSample, same⟩ := Option.map_eq_some_iff.1 found
    cases same
    exact ⟨member, isSample⟩
  · rintro ⟨member, isSample⟩
    exact ⟨key, member, by rw [isSample, Option.map_some]⟩

/-- When all samples are of declared names, each of them is given once. -/
theorem declared_perm {names : List String} {samples : OrderedMap Json} (distinct : names.Nodup)
    (all : ∀ key value, samples.get? key = some value → key ∈ names) :
    (declared names samples).Perm samples.entries := by
  have once : (declared names samples).Nodup :=
    List.Nodup.of_map Prod.fst ((sublist_declared names samples).nodup distinct)
  have entriesOnce : samples.entries.Nodup := List.Nodup.of_map Prod.fst samples.nodup_keys
  rw [List.perm_ext_iff_of_nodup once entriesOnce]
  rintro ⟨key, value⟩
  rw [mem_declared_iff]
  constructor
  · rintro ⟨-, isSample⟩
    exact OrderedMap.mem_entries_of_get? isSample
  · intro member
    have isSample := OrderedMap.get?_of_mem_entries member
    exact ⟨all key value isSample, isSample⟩

end Samples

/-! ## Merged trees -/

namespace Node

theorem shownChildren_of_kept {n : Node} (kept : n.sample.children = .absent) :
    n.shownChildren = n.children := by
  obtain ⟨type, props, styleMap, data, children, sample⟩ := n
  cases sample with
  | absent => rfl
  | present styleOver dataOver childrenOver =>
      obtain rfl : childrenOver = .absent := kept
      rfl

/-- As long as no overlay replaces children, a position leads to the merged node. -/
theorem nodeAt?_merge {base node : Node} {path : List Nat} (reached : base.nodeAt? path = some node)
    (kept : ∀ above n, above <+: path → above ≠ path → base.nodeAt? above = some n →
      n.sample.children = .absent) : base.merge.nodeAt? path = some node.merge := by
  induction path generalizing base with
  | nil =>
      cases reached
      rfl
  | cons i rest ih =>
      obtain ⟨child, here, below⟩ := Option.bind_eq_some_iff.1 reached
      have ownChildren := shownChildren_of_kept (kept [] base (by simp) (by simp) rfl)
      have merged : base.merge.childNodes[i]? = some child.merge := by
        rw [merge_eq, ownChildren, childNodes, Children.toList_map, List.getElem?_map]
        exact congrArg (Option.map merge) here
      rw [nodeAt?_cons, merged]
      refine ih below fun above n isAbove strictly found => ?_
      refine kept (i :: above) n (List.cons_prefix_cons.2 ⟨rfl, isAbove⟩) (by simpa) ?_
      rw [nodeAt?_cons, here]
      exact found

/-- Merging keeps every key of a node. -/
theorem isSome_get?_merge {n : Node} {block : Category} {key : String} {value : Json}
    (member : (key, value) ∈ (n.ofCategory block).entries) :
    ((n.merge.ofCategory block).get? key).isSome := by
  rw [merge_eq]
  cases block with
  | style =>
      simp only [ofCategory] at member ⊢
      rw [OrderedMap.get?_insertAll, OrderedMap.get?_of_mem_entries member, Option.isSome_or]
      simp
  | data =>
      simp only [ofCategory] at member ⊢
      rw [OrderedMap.get?_insertAll, OrderedMap.get?_of_mem_entries member, Option.isSome_or]
      simp

end Node

namespace Samples

/-- The sample of a field is the first value that the merged tree has where the tree holds a
placeholder of the field. There is such a value at every site, unless a node above it has its
children replaced by its overlay. Without overlays the placeholders are their own samples. -/
theorem find_merge_takes_first (base : Node) (index : PlaceholderIndex) :
    (∀ b sample, (find base base.merge index).get? b = some sample ↔
      ∃ site key, IsFirstSite index base base.merge b site key sample) ∧
    (∀ b site key, IsSite index base base.merge b site key →
      (base.merge.underKey? site key).isSome →
        ((find base base.merge index).get? b).isSome) ∧
    (∀ b site key, IsSite index base base.merge b site key →
      (∀ above n, above <+: site.path → above ≠ site.path → base.nodeAt? above = some n →
        n.sample.children = .absent) → (base.merge.underKey? site key).isSome) ∧
    ((∀ n ∈ base.preorder, n.sample = .absent) →
      ∀ b sample, (find base base.merge index).get? b = some sample →
        StandsFor index sample b) := by
  refine ⟨fun b sample => get?_find_eq_some_iff, ?_, ?_, ?_⟩
  · exact fun b site key isSite hasValue => isSome_get?_find isSite hasValue
  · intro b site key isSite kept
    obtain ⟨value, entry, -⟩ := isSite.entry
    obtain ⟨node, reached, listed⟩ := Option.bind_eq_some_iff.1 entry
    rw [Node.underKey?, Node.nodeAt?_merge reached kept]
    exact Node.isSome_get?_merge (List.mem_of_getElem? listed)
  · intro absent b sample found
    rw [Node.merge_of_samples_absent absent] at found
    obtain ⟨site, key, isSite, isSample, -⟩ := get?_find_eq_some_iff.1 found
    obtain ⟨value, entry, stands⟩ := isSite.entry
    obtain ⟨node, reached, listed⟩ := Option.bind_eq_some_iff.1 entry
    rw [Node.underKey?, reached, Option.bind_some,
      OrderedMap.get?_of_mem_entries (List.mem_of_getElem? listed)] at isSample
    cases isSample
    exact stands

/-- An interface with one data field. -/
def titleInterface : Interface where
  name := "Card"
  dataFields := some (.ofList [("title", "string")])

/-- The index of the interface. -/
def titleIndex : PlaceholderIndex where
  bindings := .ofList [("title", ⟨.data, "title"⟩)]

/-- A card whose text has a sample. -/
def sampledTitleCard : Node where
  type := "Card"
  children := .list [{
    type := "Text"
    data := .ofList [("content", .string "title")]
    sample := .present none (some (.ofList [("content", .string "Hello")])) .absent }]

theorem find_merge_takes_first_sampledTitleCard :
    IsSite titleIndex sampledTitleCard sampledTitleCard.merge ⟨.data, "title"⟩
      ⟨[0], .data, 0⟩ "content" ∧
    ((find sampledTitleCard sampledTitleCard.merge titleIndex).get? ⟨.data, "title"⟩).isSome := by
  obtain ⟨-, sampled, kept, -⟩ := find_merge_takes_first sampledTitleCard titleIndex
  have isSite : IsSite titleIndex sampledTitleCard sampledTitleCard.merge ⟨.data, "title"⟩
      ⟨[0], .data, 0⟩ "content" :=
    ⟨rfl, .string "title", rfl, "title", ⟨.data, "title", "title", false⟩, rfl, rfl, rfl⟩
  refine ⟨isSite, sampled _ _ _ isSite (kept _ _ _ isSite fun above n isAbove strictly found => ?_)⟩
  obtain rfl : above = [] := by
    rcases List.prefix_cons_iff.1 isAbove with rfl | ⟨rest, rfl, isNil⟩
    · rfl
    · rw [List.prefix_nil.1 isNil] at strictly
      exact absurd rfl strictly
  cases found
  rfl

/-- A card whose overlay replaces both texts, the first one by an image without data. -/
def replacedTextsCard : Node where
  type := "Card"
  children := .list [
    { type := "Text", data := .ofList [("content", .string "title")] },
    { type := "Text", data := .ofList [("label", .string "title")] }]
  sample := .present none none (.list [
    { type := "Image" },
    { type := "Text", data := .ofList [("label", .string "Hello")] }])

/-- The first site is passed over, since the merged tree has no value there, so the sample is the
value at a later one. -/
theorem find_merge_passes_over_replacedTextsCard :
    PlaceholderIndex.build titleInterface .strict = .ok titleIndex ∧
    IsSite titleIndex replacedTextsCard replacedTextsCard.merge ⟨.data, "title"⟩
      ⟨[0], .data, 0⟩ "content" ∧
    replacedTextsCard.merge.underKey? ⟨[0], .data, 0⟩ "content" = none ∧
    (find replacedTextsCard replacedTextsCard.merge titleIndex).get? ⟨.data, "title"⟩ =
      some (.string "Hello") ∧
    ¬ ∃ site key, IsSite titleIndex replacedTextsCard replacedTextsCard.merge ⟨.data, "title"⟩
        site key ∧
      (∀ other otherKey, IsSite titleIndex replacedTextsCard replacedTextsCard.merge
        ⟨.data, "title"⟩ other otherKey → other = site ∨ site.Before other) ∧
      replacedTextsCard.merge.underKey? site key = some (.string "Hello") := by
  have isSite : IsSite titleIndex replacedTextsCard replacedTextsCard.merge ⟨.data, "title"⟩
      ⟨[0], .data, 0⟩ "content" :=
    ⟨rfl, .string "title", rfl, "title", ⟨.data, "title", "title", false⟩, rfl, rfl, rfl⟩
  refine ⟨rfl, isSite, rfl, rfl, ?_⟩
  rintro ⟨site, key, ⟨-, value, entry, -⟩, first, isSample⟩
  rcases first _ _ isSite with rfl | before
  · cases entry
    cases isSample
  · -- The root and the styles of the first text are empty.
    cases before with
    | @path path _ block _ _ _ earlier =>
        match path with
        | [] => cases block <;> cases entry
        | i :: rest =>
            rcases List.cons_lt_cons_iff.1 earlier with less | ⟨-, less⟩
            · exact absurd less (Nat.not_lt_zero i)
            · exact absurd less (List.not_lt_nil rest)
    | block => cases entry
    | entry earlier => exact absurd earlier (Nat.not_lt_zero _)

end Samples

end ComponentGen
