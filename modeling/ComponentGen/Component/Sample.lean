import ComponentGen.Component.Overlay
import ComponentGen.Placeholder.Index
/-!
# Sample values

The sample values of declared fields, for previews. A tree is compared with the same tree after
its overlays were applied: where the plain tree holds a placeholder, the merged one holds a sample
value of the field. The first sample of a field counts.
-/

namespace ComponentGen

/-- The values at which two maps are compared: each value of the first with the value that the
second has under the same key. -/
def mapPairs (base merged : OrderedMap Json) : List (Json × Option Json) :=
  base.entries.map fun (key, value) => (value, merged.get? key)

namespace Node

mutual

/-- The values at which two trees are compared, in order: styles before data, a node before its
children. Nodes are paired by position as long as both trees have one. -/
def samplePairs : Node → Node → List (Json × Option Json)
  | ⟨_, _, styleMap, data, children, _⟩, merged =>
    mapPairs styleMap merged.styleMap ++ mapPairs data merged.data ++
      samplePairsChildren children merged.childNodes

/-- The values at which children are compared with a list of trees. -/
def samplePairsChildren : Children Node → List Node → List (Json × Option Json)
  | .absent, _ => []
  | .single _, [] => []
  | .single node, merged :: _ => samplePairs node merged
  | .list nodes, merged => samplePairsList nodes merged

/-- The values at which two lists of trees are compared. -/
def samplePairsList : List Node → List Node → List (Json × Option Json)
  | node :: rest, merged :: more => samplePairs node merged ++ samplePairsList rest more
  | [], _ => []
  | _ :: _, [] => []

end

end Node

/-- Sample values by declared field. -/
structure Samples where
  style : OrderedMap Json := .empty
  data : OrderedMap Json := .empty
deriving DecidableEq

namespace Samples

/-- The sample values of one category. -/
def ofCategory (s : Samples) : Category → OrderedMap Json
  | .style => s.style
  | .data => s.data

/-- The sample value of a field. -/
def get? (s : Samples) (b : Binding) : Option Json :=
  (s.ofCategory b.category).get? b.key

/-- No field has a sample value. -/
def isEmpty (s : Samples) : Bool :=
  s.style.isEmpty && s.data.isEmpty

/-- Record a sample value, unless the field has one. -/
def record (s : Samples) (sample : Binding × Json) : Samples :=
  let (b, value) := sample
  if (s.get? b).isSome then s
  else match b.category with
    | .style => { s with style := s.style.insert b.key value }
    | .data => { s with data := s.data.insert b.key value }

/-- The sample that a pair of values gives: a placeholder in the plain tree and a value in the
merged one. -/
def ofPair? (index : PlaceholderIndex) : Json × Option Json → Option (Binding × Json)
  | (.string s, some value) => (index.resolve? s).map fun target => (target.binding, value)
  | _ => none

/-- The samples found by comparing a tree with its merged form. -/
def find (base merged : Node) (index : PlaceholderIndex) : Samples :=
  ((base.samplePairs merged).filterMap (ofPair? index)).foldl record {}

/-- The samples of the given fields, in the order of the fields. -/
def declared (names : List String) (samples : OrderedMap Json) : List (String × Json) :=
  names.filterMap fun name => (samples.get? name).map fun value => (name, value)

end Samples

end ComponentGen
