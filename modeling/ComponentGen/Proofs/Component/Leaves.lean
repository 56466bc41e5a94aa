import ComponentGen.Proofs.Component.Samples
import ComponentGen.Proofs.Positions
import ComponentGen.Proofs.Resolved.Spelling
/-!
# The strings of a tree with their places

A string stands in one of the three maps of a node, at some depth of arrays and objects. Its place is
the position of the node, a list of child indices, together with the indices that lead from the three
maps to the string. The strings of a tree are listed with their places: each string that stands
somewhere is listed once for each place, nodes in pre-order and the strings of a node in the order in
which they are read.
-/

namespace ComponentGen

/-! ## Strings in a value -/

namespace Json

/-- The items of an array or the values of the members of an object. -/
def parts : Json → List Json
  | array items => items
  | object members => members.map Prod.snd
  | null | bool _ | number _ | string _ => []

/-- The string, if the value is one. -/
def ownString : Json → List String
  | string s => [s]
  | null | bool _ | number _ | array _ | object _ => []

/-- The value that is reached by descending along indices of items and members. -/
def valueAt? (value : Json) (path : List Nat) : Option Json :=
  partAt? parts value path

mutual

/-- The strings in a value with their positions. -/
def leaves : Json → List (List Nat × String)
  | string s => [([], s)]
  | array items => itemLeaves 0 items
  | object members => memberLeaves 0 members
  | null | bool _ | number _ => []

/-- The strings in the items of an array; the first item has the index `i`. -/
def itemLeaves (i : Nat) : List Json → List (List Nat × String)
  | [] => []
  | item :: rest => below i (leaves item) ++ itemLeaves (i + 1) rest

/-- The strings in the values of members; the first member has the index `i`. -/
def memberLeaves (i : Nat) : List (String × Json) → List (List Nat × String)
  | [] => []
  | (_, value) :: rest => below i (leaves value) ++ memberLeaves (i + 1) rest

end

theorem itemLeaves_eq_flatMap (i : Nat) (items : List Json) :
    itemLeaves i items = (items.zipIdx i).flatMap fun item => below item.2 item.1.leaves := by
  induction items generalizing i with
  | nil => rfl
  | cons item rest ih => rw [itemLeaves, ih, List.zipIdx_cons, List.flatMap_cons]

theorem memberLeaves_eq_itemLeaves (i : Nat) (members : List (String × Json)) :
    memberLeaves i members = itemLeaves i (members.map Prod.snd) := by
  induction members generalizing i with
  | nil => rfl
  | cons member rest ih => rw [memberLeaves, ih, List.map_cons, itemLeaves]

theorem locates_leaves : Locates parts ownString leaves where
  nested motive step value := by
    induction value using nested with
    | null => exact step _ fun _ absent => absurd absent List.not_mem_nil
    | bool b => exact step _ fun _ absent => absurd absent List.not_mem_nil
    | number n => exact step _ fun _ absent => absurd absent List.not_mem_nil
    | string s => exact step _ fun _ absent => absurd absent List.not_mem_nil
    | array items ih => exact step _ ih
    | object members ih => exact step _ (List.forall_mem_map.2 ih)
  locate_eq value := by
    cases value with
    | array items => rw [leaves, itemLeaves_eq_flatMap]; rfl
    | object members => rw [leaves, memberLeaves_eq_itemLeaves, itemLeaves_eq_flatMap]; rfl
    | _ => rfl

theorem mem_leaves_iff {value : Json} {path : List Nat} {s : String} :
    (path, s) ∈ value.leaves ↔ value.valueAt? path = some (.string s) := by
  have isString {part : Json} : s ∈ part.ownString ↔ part = .string s := by
    cases part <;> simp [ownString, eq_comm]
  rw [locates_leaves.mem_iff, valueAt?]
  simp only [isString, exists_eq_right]

theorem pairwise_leaves (value : Json) :
    value.leaves.Pairwise fun first second => first.1 < second.1 := by
  have single (part : Json) : part.ownString.Pairwise fun _ _ => False := by
    cases part <;> simp [ownString]
  exact (locates_leaves.pairwise single value).imp fun earlier => by simpa using earlier

theorem map_snd_leaves (value : Json) : value.leaves.map Prod.snd = value.strings := by
  induction value using nested with
  | array items ih =>
      rw [locates_leaves.map_snd, strings, itemStrings_eq_flatMap]
      exact List.flatMap_congr ih
  | object members ih =>
      rw [locates_leaves.map_snd, strings, memberStrings_eq_flatMap]
      exact (List.flatMap_map ..).trans (List.flatMap_congr ih)
  | _ => rfl

end Json

/-! ## Strings in a tree -/

namespace Node

/-- The props, the styles and the data of a node in one value, in the order in which they are read. -/
def contents (n : Node) : Json :=
  .array [.ofMap n.props, .ofMap n.styleMap, .ofMap n.data]

theorem nodeAt?_eq_partAt? (n : Node) (path : List Nat) :
    n.nodeAt? path = partAt? childNodes n path := by
  induction path generalizing n with
  | nil => rfl
  | cons i rest ih => rw [nodeAt?_cons, partAt?, funext ih]

mutual

/-- The strings of a tree with their places: the position of the node, and where the string is in the
contents of the node. Overlays do not count. -/
def leaves : Node → List (List Nat × List Nat × String)
  | ⟨type, props, styleMap, data, children, _⟩ =>
    (contents { type, props, styleMap, data }).leaves.map (([], ·)) ++ childrenLeaves children

/-- The strings of the given children. -/
def childrenLeaves : Children Node → List (List Nat × List Nat × String)
  | .absent => []
  | .single node => below 0 (leaves node)
  | .list nodes => listLeaves 0 nodes

/-- The strings of a list of trees; the first tree has the index `i`. -/
def listLeaves (i : Nat) : List Node → List (List Nat × List Nat × String)
  | [] => []
  | node :: rest => below i (leaves node) ++ listLeaves (i + 1) rest

end

theorem listLeaves_eq_flatMap (i : Nat) (nodes : List Node) :
    listLeaves i nodes = (nodes.zipIdx i).flatMap fun node => below node.2 node.1.leaves := by
  induction nodes generalizing i with
  | nil => rfl
  | cons node rest ih => rw [listLeaves, ih, List.zipIdx_cons, List.flatMap_cons]

theorem leaves_eq (n : Node) :
    n.leaves = n.contents.leaves.map (([], ·)) ++
      n.childNodes.zipIdx.flatMap fun child => below child.2 child.1.leaves := by
  obtain ⟨type, props, styleMap, data, children, sample⟩ := n
  rw [leaves]
  refine congrArg _ ?_
  cases children with
  | absent => rfl
  | single node => exact (List.append_nil _).symm
  | list nodes => exact listLeaves_eq_flatMap 0 nodes

theorem locates_leaves : Locates childNodes (fun node => node.contents.leaves) leaves where
  nested _ step n := by
    induction n using nested with
    | node n ih => exact step n ih
  locate_eq := leaves_eq

/-- A string is listed with a place exactly when it stands there. -/
theorem mem_leaves_iff {n : Node} {path inside : List Nat} {s : String} :
    (path, inside, s) ∈ n.leaves ↔ ∃ node, n.nodeAt? path = some node ∧
      node.contents.valueAt? inside = some (.string s) := by
  simp only [locates_leaves.mem_iff, Json.mem_leaves_iff, nodeAt?_eq_partAt?]

/-- No place is listed twice. -/
theorem pairwise_leaves (n : Node) :
    n.leaves.Pairwise fun first second =>
      first.1 < second.1 ∨ first.1 = second.1 ∧ first.2.1 < second.2.1 :=
  locates_leaves.pairwise (fun node => node.contents.pairwise_leaves) n

theorem strings_contents (n : Node) : n.contents.strings = n.ownStrings := by
  have ofMap (m : OrderedMap Json) : (Json.ofMap m).strings = m.values.flatMap Json.strings := by
    rw [Json.ofMap, Json.strings, Json.memberStrings_eq_flatMap, OrderedMap.values, List.flatMap_map]
  rw [contents, Json.strings, Json.itemStrings_eq_flatMap, ownStrings, List.flatMap_append,
    List.flatMap_append, ← ofMap, ← ofMap, ← ofMap, List.append_assoc]
  simp

/-- The strings of a tree without their places. -/
theorem map_leaves (n : Node) : (n.leaves.map fun leaf => leaf.2.2) = n.strings := by
  have own (node : Node) : node.contents.leaves.map Prod.snd = node.ownStrings := by
    rw [Json.map_snd_leaves, strings_contents]
  have unplaced (node : Node) : (node.leaves.map fun leaf => leaf.2.2) =
      (node.leaves.map Prod.snd).map Prod.snd := (List.map_map ..).symm
  induction n using nested with
  | node n ih =>
      rw [unplaced, locates_leaves.map_snd, List.map_append, own, List.map_flatMap, strings,
        preorder_eq, List.flatMap_cons, List.flatMap_assoc]
      exact congrArg _ (List.flatMap_congr fun child member =>
        (unplaced child).symm.trans (ih child member))

/-- Overlays have no part in the strings of a tree. -/
theorem leaves_withoutSamples (n : Node) : n.withoutSamples.leaves = n.leaves := by
  induction n using nested with
  | node n ih =>
      have children : n.withoutSamples.childNodes = n.childNodes.map withoutSamples := by
        rw [withoutSamples_eq]
        exact Children.toList_map _ _
      have own : n.withoutSamples.contents = n.contents := by
        rw [withoutSamples_eq]
        rfl
      rw [leaves_eq, leaves_eq, children, own, List.zipIdx_map, List.flatMap_map]
      refine congrArg _ (List.flatMap_congr fun child member => ?_)
      exact congrArg (below child.2) (ih child.1 (List.fst_mem_of_mem_zipIdx member))

/-- A text in a list of a list of data, one in a prop, and one in the styles of a nested node. The
texts of the overlay are not there. -/
example :
    let tree : Node :=
      { type := "Box"
        props := .ofList [("id", .string "hero")]
        data := .ofList [("rows", .array [.null, .array [.string "title"]])]
        children := .single
          { type := "Text"
            styleMap := .ofList [("color", .string "var(--title)")]
            sample := .present (some (.ofList [("color", .string "red")])) none .absent } }
    tree.leaves =
      [([], [0, 0], "hero"), ([], [2, 0, 1, 0], "title"), ([0], [1, 0], "var(--title)")] := by
  decide +kernel

end Node

end ComponentGen
