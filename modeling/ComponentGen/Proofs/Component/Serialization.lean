import ComponentGen.Composition.Record
import ComponentGen.Proofs.Component.Merging
/-!
# Component trees and records are read back

A tree is written with a member for each field that holds something, and read by looking each field
up among the members. Members of one field never have the key of another, so every field finds its
own member, or none where it was left out. An overlay or a list that is there but holds nothing is
written all the same, and a node is never written as an array, so a single child cannot be taken for
a list.

Values are trees that could repeat a key in an object, which no map of values does; `DistinctKeys`
says that they do not.
-/

namespace ComponentGen

/-! ## Values -/

namespace Json

theorem itemsDistinctKeys_iff {items : List Json} :
    ItemsDistinctKeys items ↔ ∀ item ∈ items, item.DistinctKeys := by
  induction items with
  | nil => simp [ItemsDistinctKeys]
  | cons item rest ih => simp [ItemsDistinctKeys, ih]

theorem membersDistinctKeys_iff {members : List (String × Json)} :
    MembersDistinctKeys members ↔ ∀ member ∈ members, member.2.DistinctKeys := by
  induction members with
  | nil => simp [MembersDistinctKeys]
  | cons member rest ih => simp [MembersDistinctKeys, ih]

theorem canonicalItems_eq_map (items : List Json) : canonicalItems items = items.map canonical := by
  induction items with
  | nil => rfl
  | cons item rest ih => rw [canonicalItems, ih, List.map_cons]

theorem canonicalMembers_eq_putAll (done members : List (String × Json)) :
    canonicalMembers done members =
      Entries.putAll done (members.map fun member => (member.1, member.2.canonical)) := by
  induction members generalizing done with
  | nil => rfl
  | cons member rest ih => exact ih _

/-- The meaning of a value in which no object repeats a key is the value itself. -/
theorem canonical_of_distinctKeys {value : Json} (distinct : value.DistinctKeys) :
    value.canonical = value := by
  induction value using Json.nested with
  | null | bool b | number n | string s => rfl
  | array items ih =>
      have each := itemsDistinctKeys_iff.1 distinct
      rw [canonical, canonicalItems_eq_map, List.map_congr_left fun item member =>
        ih item member (each item member), List.map_id']
  | object members ih =>
      obtain ⟨keys, values⟩ := distinct
      have each := membersDistinctKeys_iff.1 values
      have same : (members.map fun member => (member.1, member.2.canonical)) = members := by
        rw [List.map_congr_left fun member inMembers =>
          congrArg (Prod.mk member.1) (ih member inMembers (each member inMembers)), List.map_id']
      rw [canonical, canonicalMembers_eq_putAll, same, Entries.putAll_of_nodup keys, List.nil_append]

/-- No object among the values of a map repeats a key. -/
def MapDistinctKeys (m : OrderedMap Json) : Prop :=
  ∀ value ∈ m.values, value.DistinctKeys

theorem canonical_ofMap {m : OrderedMap Json} (distinct : MapDistinctKeys m) :
    (ofMap m).canonical = ofMap m := by
  refine canonical_of_distinctKeys ⟨m.nodup_keys, membersDistinctKeys_iff.2 ?_⟩
  intro member inMap
  exact distinct member.2 (List.mem_map_of_mem inMap)

/-- A map that is written as an object is read back. -/
theorem toMap?_ofMap {m : OrderedMap Json} (distinct : MapDistinctKeys m) :
    (ofMap m).toMap? = some m := by
  have same : (m.entries.map fun entry => (entry.1, entry.2.canonical)) = m.entries := by
    rw [List.map_congr_left fun entry member => congrArg (Prod.mk entry.1)
      (canonical_of_distinctKeys (distinct entry.2 (List.mem_map_of_mem member))), List.map_id']
  rw [ofMap, toMap?, same, OrderedMap.ofList_entries]

end Json

/-- Items that are all read as themselves are read as the list of them. -/
theorem mapM_of_eq_some {α : Type} {read : α → Option α} {items : List α}
    (each : ∀ item ∈ items, read item = some item) : items.mapM read = some items := by
  induction items with
  | nil => rfl
  | cons item rest ih =>
      rw [List.mapM_cons, each item List.mem_cons_self,
        ih fun other member => each other (List.mem_cons_of_mem item member)]
      rfl

/-! ## Fields -/

namespace Fields

variable {α ρ β : Type} {key : String} {missing : β}

/-- Only the members with the key of a field count for the field. -/
theorem optional_congr {fields own : Fields ρ} {read : ρ → Option β}
    (same : fields.filter (·.1 == key) = own.filter (·.1 == key)) :
    fields.optional key missing read = own.optional key missing read := by
  rw [optional, optional, same]

theorem filter_map (f : α → ρ) (members : Fields α) (key : String) :
    (members.map fun member => (member.1, f member.2)).filter (·.1 == key) =
      (members.filter (·.1 == key)).map fun member => (member.1, f member.2) :=
  List.filter_map

/-- A field of what is read from members is read from the member of the field. -/
theorem optional_map (f : α → ρ) (members : Fields α) (read : ρ → Option β) :
    Fields.optional (members.map fun member => (member.1, f member.2)) key missing read =
      members.optional key missing fun value => read (f value) := by
  rw [optional, optional, filter_map]
  generalize List.filter (·.1 == key) members = own
  rcases own with _ | ⟨first, _ | ⟨second, rest⟩⟩ <;> rfl

theorem required_map (f : α → ρ) (members : Fields α) (read : ρ → Option β) :
    Fields.required (members.map fun member => (member.1, f member.2)) key read =
      members.required key fun value => read (f value) := by
  rw [required, required, filter_map]
  generalize List.filter (·.1 == key) members = own
  rcases own with _ | ⟨first, _ | ⟨second, rest⟩⟩ <;> rfl

/-- Members that all have one key count for the field of that key and for no other. -/
theorem filter_of_keyed {fields : Fields ρ} (keyed : ∀ field ∈ fields, field.1 = key)
    (other : String) : fields.filter (·.1 == other) = if key = other then fields else [] := by
  split
  · next same =>
      refine List.filter_eq_self.2 fun field member => ?_
      rw [keyed field member, same, beq_self_eq_true]
  · next different =>
      refine List.filter_eq_nil_iff.2 fun field member => ?_
      rw [keyed field member, beq_iff_eq]
      exact different

@[simp]
theorem filter_ofOption (key other : String) (value? : Option ρ) :
    (ofOption key value?).filter (·.1 == other) = if key = other then ofOption key value? else [] := by
  refine filter_of_keyed (fun field member => ?_) other
  cases value? with
  | none => cases member
  | some value => rw [List.mem_singleton.1 member]

/-- What was written for a field is read from it, and the default stands for what was left out. -/
theorem optional_ofOption {value? : Option ρ} {read : ρ → Option β} {found : β}
    (leftOut : value? = none → missing = found)
    (written : ∀ value ∈ value?, read value = some found) :
    (ofOption key value?).optional key missing read = some found := by
  rw [optional, filter_ofOption, if_pos rfl]
  cases value? with
  | none => exact congrArg some (leftOut rfl)
  | some value => exact written value rfl

end Fields

/-! ### Readings -/

namespace Json.Reader

variable {α : Type} (reader : Reader α)

/-- Whatever is read, it is known which value is meant. -/
theorem value_read (value : Json) : (reader.read value).value = value.canonical := by
  cases value <;> simp [read, canonical]

theorem readItems_eq_map (items : List Json) : reader.readItems items = items.map reader.read := by
  induction items with
  | nil => simp [readItems]
  | cons item rest ih => simp [readItems, ih]

theorem readMembers_eq_map (members : List (String × Json)) :
    reader.readMembers members = members.map fun member => (member.1, reader.read member.2) := by
  induction members with
  | nil => simp [readMembers]
  | cons member rest ih => simp [readMembers, ih]

theorem toMap?_read_ofMap {m : OrderedMap Json} (distinct : MapDistinctKeys m) :
    (reader.read (ofMap m)).toMap? = some m := by
  rw [Reading.toMap?, value_read, canonical_ofMap distinct, toMap?_ofMap distinct]

theorem toOptionalMap?_read_ofMap {m : OrderedMap Json} (distinct : MapDistinctKeys m) :
    (reader.read (ofMap m)).toOptionalMap? = some (some m) := by
  rw [Reading.toOptionalMap?, value_read, canonical_ofMap distinct]
  exact congrArg (Option.map some) (toMap?_ofMap distinct)

/-- An optional map is read back from its field, and none where there was none. -/
theorem optional_optionalMap {key : String} {m? : Option (OrderedMap Json)}
    (distinct : ∀ m ∈ m?, MapDistinctKeys m) :
    Fields.optional (Fields.ofOption key (m?.map ofMap)) key none
      (fun value => (reader.read value).toOptionalMap?) = some m? := by
  refine Fields.optional_ofOption (fun none_here => ?_) fun value isValue => ?_
  · exact (Option.map_eq_none_iff.1 none_here).symm
  · obtain ⟨m, rfl, rfl⟩ := Option.map_eq_some_iff.1 isValue
    exact reader.toOptionalMap?_read_ofMap (distinct m rfl)

end Json.Reader

/-! ## Component trees -/

namespace Overlay

variable {α : Type}

/-- The maps that an overlay brings along. -/
def maps : Overlay α → List (OrderedMap Json)
  | absent => []
  | present styleMap data _ => styleMap.toList ++ data.toList

end Overlay

namespace Node

/-- The maps of one node and of its overlay. -/
def ownMaps (n : Node) : List (OrderedMap Json) :=
  [n.props, n.styleMap, n.data] ++ n.sample.maps

/-- The nodes right below a node or its overlay. -/
def parts (n : Node) : List Node :=
  n.childNodes ++ n.sample.children.toList

/-- No object among the values of a tree repeats a key, overlays and what they nest included. -/
inductive DistinctKeys : Node → Prop
  | intro {n : Node} (maps : ∀ m ∈ n.ownMaps, Json.MapDistinctKeys m)
      (parts : ∀ part ∈ n.parts, DistinctKeys part) : DistinctKeys n

/-- The members of the object that a node is written as. -/
def members (n : Node) : List (String × Json) :=
  ("type", .string n.type) :: Fields.ofOption "props" (mapToJson? n.props)
    ++ Fields.ofOption "styleMap" (mapToJson? n.styleMap)
    ++ Fields.ofOption "data" (mapToJson? n.data)
    ++ Fields.ofOption "children" (childrenToJson? n.children)
    ++ Fields.ofOption "example" (overlayToJson? n.sample)

theorem toJson_eq (n : Node) : n.toJson = .object n.members := by
  cases n
  rw [toJson]
  rfl

/-- A map is read back from its field, or as the empty map where the field was left out. -/
theorem optional_map {key : String} {m : OrderedMap Json} (distinct : Json.MapDistinctKeys m) :
    Fields.optional (Fields.ofOption key (mapToJson? m)) key .empty
      (fun value => (Reading.reader.read value).toMap?) = some m := by
  rw [mapToJson?]
  split
  · next isEmpty =>
      have same : OrderedMap.empty = m := OrderedMap.ext (List.isEmpty_iff.1 isEmpty).symm
      rw [← same]
      rfl
  · refine Fields.optional_ofOption (fun none_here => nomatch none_here) fun value isValue => ?_
    cases isValue
    exact Reading.reader.toMap?_read_ofMap distinct

/-- The node is read back from the value that it is written as. -/
def ReadsBack (n : Node) : Prop :=
  (Reading.reader.read n.toJson).described.node? = some n

/-- Children are read back from their field when every node is: a list as a list, if only an empty
one, and a single node as a single one. -/
theorem optional_children {c : Children Node} (each : ∀ node ∈ c.toList, node.ReadsBack) :
    Fields.optional (Fields.ofOption "children" (childrenToJson? c)) "children" .absent
      (fun value => Reading.toChildren? (Reading.reader.read value)) = some c := by
  refine Fields.optional_ofOption (fun none_here => ?_) fun value isValue => ?_
  · cases c with
    | absent => rfl
    | single node => cases none_here
    | list nodes => cases none_here
  · cases c with
    | absent => cases isValue
    | single node =>
        cases isValue
        have back : (Reading.reader.read node.toJson).described.node? = some node :=
          each node (List.mem_singleton_self node)
        rw [Reading.toChildren?, Json.Reader.value_read]
        rw [toJson_eq, Json.Reader.read] at back ⊢
        exact congrArg (Option.map Children.single) back
    | list nodes =>
        cases isValue
        have back : (Reading.reader.readItems (listToJson nodes)).mapM (·.described.node?) =
            some nodes := by
          rw [Json.Reader.readItems_eq_map, listToJson_eq_map, List.map_map, List.mapM_map]
          exact mapM_of_eq_some each
        rw [Reading.toChildren?, Json.Reader.value_read, Json.Reader.read]
        change Reading.childrenOfItems? (Reading.reader.readItems (listToJson nodes)) _ = _
        rw [Reading.childrenOfItems?, back]

/-- An overlay is read back from its field when its parts are, whichever of them are there. -/
theorem optional_overlay {sample : Overlay Node}
    (maps : ∀ m ∈ sample.maps, Json.MapDistinctKeys m)
    (each : ∀ node ∈ sample.children.toList, node.ReadsBack) :
    Fields.optional (Fields.ofOption "example" (overlayToJson? sample)) "example" .absent
      (fun value => Reading.toOverlay? (Reading.reader.read value)) = some sample := by
  refine Fields.optional_ofOption (fun none_here => ?_) fun value isValue => ?_
  · cases sample with
    | absent => rfl
    | present styleMap data children => cases none_here
  · cases sample with
    | absent => cases isValue
    | present styleMap data children =>
        cases isValue
        let members := Fields.ofOption "styleMap" (styleMap.map Json.ofMap)
          ++ Fields.ofOption "data" (data.map Json.ofMap)
          ++ Fields.ofOption "children" (childrenToJson? children)
        have mapBack (key : String) (m? : Option (OrderedMap Json))
            (own : ∀ m ∈ m?, m ∈ styleMap.toList ++ data.toList)
            (only : members.filter (·.1 == key) =
              (Fields.ofOption key (m?.map Json.ofMap)).filter (·.1 == key)) :
            Fields.optional members key none
              (fun value => (Reading.reader.read value).toOptionalMap?) = some m? :=
          (Fields.optional_congr only).trans <|
            Json.Reader.optional_optionalMap _ fun m member => maps m (own m member)
        have styleMapBack := mapBack "styleMap" styleMap (by simp_all) (by simp [members])
        have dataBack := mapBack "data" data (by simp_all) (by simp [members])
        have childrenBack : Fields.optional members "children" .absent
            (fun value => Reading.toChildren? (Reading.reader.read value)) = some children :=
          (Fields.optional_congr (by simp [members])).trans (optional_children each)
        rw [Reading.toOverlay?, Json.Reader.value_read, Json.Reader.read,
          Json.Reader.readMembers_eq_map]
        change Reading.overlayOfFields? (members.map _) = _
        rw [Reading.overlayOfFields?, Fields.optional_map, Fields.optional_map, Fields.optional_map,
          styleMapBack, dataBack, childrenBack]
        rfl

/-- A node is read back when its parts are. -/
theorem readsBack_of_parts {n : Node} (maps : ∀ m ∈ n.ownMaps, Json.MapDistinctKeys m)
    (each : ∀ part ∈ n.parts, part.ReadsBack) : n.ReadsBack := by
  have typeBack : Fields.required n.members "type" (fun value =>
      (Reading.reader.read value).value.toText?) = some n.type := by
    have only : n.members.filter (·.1 == "type") = [("type", .string n.type)] := by
      simp [members]
    rw [Fields.required, only]
    rfl
  have mapBack (key : String) (m : OrderedMap Json) (own : m ∈ n.ownMaps)
      (only : n.members.filter (·.1 == key) =
        (Fields.ofOption key (mapToJson? m)).filter (·.1 == key)) :
      Fields.optional n.members key .empty (fun value => (Reading.reader.read value).toMap?) =
        some m :=
    (Fields.optional_congr only).trans (optional_map (maps m own))
  have propsBack := mapBack "props" n.props (by simp [ownMaps]) (by simp [members])
  have styleMapBack := mapBack "styleMap" n.styleMap (by simp [ownMaps]) (by simp [members])
  have dataBack := mapBack "data" n.data (by simp [ownMaps]) (by simp [members])
  have childrenBack : Fields.optional n.members "children" .absent
      (fun value => Reading.toChildren? (Reading.reader.read value)) = some n.children :=
    (Fields.optional_congr (by simp [members])).trans <|
      optional_children fun node member => each node (List.mem_append_left _ member)
  have sampleBack : Fields.optional n.members "example" .absent
      (fun value => Reading.toOverlay? (Reading.reader.read value)) = some n.sample :=
    (Fields.optional_congr (by simp [members])).trans <|
      optional_overlay (fun m member => maps m (List.mem_append_right _ member))
        fun node member => each node (List.mem_append_right _ member)
  rw [ReadsBack, toJson_eq, Json.Reader.read, Json.Reader.readMembers_eq_map]
  change Reading.nodeOfFields? (n.members.map _) = _
  rw [Reading.nodeOfFields?, Fields.required_map, Fields.optional_map, Fields.optional_map,
    Fields.optional_map, Fields.optional_map, Fields.optional_map, typeBack, propsBack,
    styleMapBack, dataBack, childrenBack, sampleBack]
  cases n
  rfl

theorem readsBack_of_distinctKeys {n : Node} (distinct : n.DistinctKeys) : n.ReadsBack := by
  induction distinct with
  | intro maps _ ih => exact readsBack_of_parts maps ih

end Node

/-! ## Records -/

namespace Record

/-- No object among the values of a record or of those nested in it repeats a key. -/
inductive DistinctKeys : Record → Prop
  | intro {r : Record} (maps : ∀ m ∈ r.styleMap.toList ++ r.data.toList, Json.MapDistinctKeys m)
      (nested : ∀ child ∈ r.children.getD [], DistinctKeys child) : DistinctKeys r

/-- The members of the object that a record is written as. -/
def members (r : Record) : List (String × Json) :=
  ("component", .string r.component) :: Fields.ofOption "styleMap" (r.styleMap.map Json.ofMap)
    ++ Fields.ofOption "data" (r.data.map Json.ofMap)
    ++ Fields.ofOption "children" (recordsToJson? r.children)

theorem toJson_eq (r : Record) : r.toJson = .object r.members := by
  cases r
  rw [toJson]
  rfl

/-- The record is read back from the value that it is written as. -/
def ReadsBack (r : Record) : Prop :=
  (Reading.reader.read r.toJson).described.record? = some r

/-- Nested records are read back from their field when each of them is, if only an empty list. -/
theorem optional_records {children : Option (List Record)}
    (each : ∀ child ∈ children.getD [], child.ReadsBack) :
    Fields.optional (Fields.ofOption "children" (recordsToJson? children)) "children" none
      (fun value => Reading.toOptionalRecords? (Reading.reader.read value)) = some children := by
  refine Fields.optional_ofOption (fun none_here => ?_) fun value isValue => ?_
  · cases children with
    | none => rfl
    | some records => cases none_here
  · cases children with
    | none => cases isValue
    | some records =>
        cases isValue
        have back : (Reading.reader.readItems (listToJson records)).mapM (·.described.record?) =
            some records := by
          rw [Json.Reader.readItems_eq_map, listToJson_eq_map, List.map_map, List.mapM_map]
          exact mapM_of_eq_some each
        rw [Reading.toOptionalRecords?, Json.Reader.value_read, Json.Reader.read]
        exact congrArg (Option.map some) back

/-- A record is read back when those nested in it are. -/
theorem readsBack_of_nested {r : Record}
    (maps : ∀ m ∈ r.styleMap.toList ++ r.data.toList, Json.MapDistinctKeys m)
    (each : ∀ child ∈ r.children.getD [], child.ReadsBack) : r.ReadsBack := by
  have componentBack : Fields.required r.members "component" (fun value =>
      (Reading.reader.read value).value.toText?) = some r.component := by
    have only : r.members.filter (·.1 == "component") = [("component", .string r.component)] := by
      simp [members]
    rw [Fields.required, only]
    rfl
  have mapBack (key : String) (m? : Option (OrderedMap Json))
      (own : ∀ m ∈ m?, m ∈ r.styleMap.toList ++ r.data.toList)
      (only : r.members.filter (·.1 == key) =
        (Fields.ofOption key (m?.map Json.ofMap)).filter (·.1 == key)) :
      Fields.optional r.members key none
        (fun value => (Reading.reader.read value).toOptionalMap?) = some m? :=
    (Fields.optional_congr only).trans <|
      Json.Reader.optional_optionalMap _ fun m member => maps m (own m member)
  have styleMapBack := mapBack "styleMap" r.styleMap (by simp_all) (by simp [members])
  have dataBack := mapBack "data" r.data (by simp_all) (by simp [members])
  have childrenBack : Fields.optional r.members "children" none
      (fun value => Reading.toOptionalRecords? (Reading.reader.read value)) = some r.children :=
    (Fields.optional_congr (by simp [members])).trans (optional_records each)
  rw [ReadsBack, toJson_eq, Json.Reader.read, Json.Reader.readMembers_eq_map]
  change Reading.recordOfFields? (r.members.map _) = _
  rw [Reading.recordOfFields?, Fields.required_map, Fields.optional_map, Fields.optional_map,
    Fields.optional_map, componentBack, styleMapBack, dataBack, childrenBack]
  cases r
  rfl

theorem readsBack_of_distinctKeys {r : Record} (distinct : r.DistinctKeys) : r.ReadsBack := by
  induction distinct with
  | intro maps _ ih => exact readsBack_of_nested maps ih

end Record

/-- Component trees and records are read back as they were written: with the order of their keys,
the shape of all children and the overlays as they were. -/
theorem written_reads_back :
    (∀ n : Node, n.DistinctKeys → Node.ofJson? n.toJson = some n) ∧
      ∀ r : Record, r.DistinctKeys → Record.ofJson? r.toJson = some r :=
  ⟨fun _ distinct => Node.readsBack_of_distinctKeys distinct,
    fun _ distinct => Record.readsBack_of_distinctKeys distinct⟩

/-- A card with a single child whose list of children is empty. Its overlay has an empty map of
data, no styles, and children that have overlays themselves. -/
def sampledCard : Node where
  type := "Container"
  data := ⟨[("rows", .array [.object [("label", .string "a"), ("count", .number (.integer (-3)))]])],
    by decide⟩
  children := .single { type := "Text", children := .list [] }
  sample := .present none (some .empty)
    (.list [{ type := "Image", sample := .present none none .absent }])

/-- A record with an empty map of styles that nests a record with an empty list of records. -/
def nestedRecord : Record where
  component := "Card"
  styleMap := some .empty
  children := some [{ component := "Button", children := some [] }]

theorem written_reads_back_sampledCard :
    sampledCard.DistinctKeys ∧ nestedRecord.DistinctKeys ∧
      Node.ofJson? sampledCard.toJson = some sampledCard ∧
      Record.ofJson? nestedRecord.toJson = some nestedRecord := by
  have card : sampledCard.DistinctKeys := by
    have text : Node.DistinctKeys { type := "Text", children := .list [] } :=
      .intro (by simp [Node.ownMaps, Json.MapDistinctKeys, OrderedMap.values, Overlay.maps])
        (by simp [Node.parts, Node.childNodes, Children.toList, Overlay.children])
    have image : Node.DistinctKeys { type := "Image", sample := .present none none .absent } :=
      .intro (by simp [Node.ownMaps, Json.MapDistinctKeys, OrderedMap.values, Overlay.maps])
        (by simp [Node.parts, Node.childNodes, Children.toList, Overlay.children])
    refine .intro ?_ ?_
    · simp [sampledCard, Node.ownMaps, Json.MapDistinctKeys, OrderedMap.values, Overlay.maps,
        Json.DistinctKeys, Json.ItemsDistinctKeys, Json.MembersDistinctKeys]
    · simp [sampledCard, Node.parts, Node.childNodes, Children.toList, Overlay.children, text, image]
  have record : nestedRecord.DistinctKeys := by
    have button : Record.DistinctKeys { component := "Button", children := some [] } :=
      .intro (by simp) (by simp)
    refine .intro ?_ ?_
    · simp [nestedRecord, Json.MapDistinctKeys, OrderedMap.values]
    · simp [nestedRecord, button]
  exact ⟨card, record, written_reads_back.1 _ card, written_reads_back.2 _ record⟩

end ComponentGen
