import ComponentGen.OrderedMap
import ComponentGen.Json.Number
/-!
# JSON values

JSON values as trees. The members of an object are kept in order; the tree type itself does not
forbid a repeated key, because a text may repeat one. `Json.canonical` gives every object its
meaning as an ordered map, at all depths: a repeated key keeps its first place and takes its last
value. `Json.DistinctKeys` says that there is nothing to change.
-/

namespace ComponentGen

/-- A JSON value. -/
inductive Json where
  | null
  | bool (value : Bool)
  | number (value : Json.Number)
  | string (value : String)
  | array (items : List Json)
  | object (members : List (String × Json))

namespace Json

instance : Inhabited Json := ⟨null⟩

mutual

/-- Equality of values, with the members of objects in the same order. -/
def decEq : (a b : Json) → Decidable (a = b)
  | null, null => isTrue rfl
  | bool a, bool b =>
    if h : a = b then isTrue (h ▸ rfl) else isFalse fun same => h (by injection same)
  | number a, number b =>
    if h : a = b then isTrue (h ▸ rfl) else isFalse fun same => h (by injection same)
  | string a, string b =>
    if h : a = b then isTrue (h ▸ rfl) else isFalse fun same => h (by injection same)
  | array a, array b =>
    match decEqItems a b with
    | isTrue h => isTrue (h ▸ rfl)
    | isFalse h => isFalse fun same => h (by injection same)
  | object a, object b =>
    match decEqMembers a b with
    | isTrue h => isTrue (h ▸ rfl)
    | isFalse h => isFalse fun same => h (by injection same)
  | null, bool _ | null, number _ | null, string _ | null, array _ | null, object _
  | bool _, null | bool _, number _ | bool _, string _ | bool _, array _ | bool _, object _
  | number _, null | number _, bool _ | number _, string _ | number _, array _
  | number _, object _ | string _, null | string _, bool _ | string _, number _
  | string _, array _ | string _, object _ | array _, null | array _, bool _
  | array _, number _ | array _, string _ | array _, object _ | object _, null
  | object _, bool _ | object _, number _ | object _, string _ | object _, array _ =>
    isFalse (by intro same; cases same)

/-- Equality of lists of values. -/
def decEqItems : (a b : List Json) → Decidable (a = b)
  | [], [] => isTrue rfl
  | [], _ :: _ | _ :: _, [] => isFalse (by intro same; cases same)
  | x :: xs, y :: ys =>
    match decEq x y, decEqItems xs ys with
    | isTrue h, isTrue hs => isTrue (h ▸ hs ▸ rfl)
    | isFalse h, _ => isFalse fun same => h (by injection same)
    | _, isFalse hs => isFalse fun same => hs (by injection same)

/-- Equality of lists of members. -/
def decEqMembers : (a b : List (String × Json)) → Decidable (a = b)
  | [], [] => isTrue rfl
  | [], _ :: _ | _ :: _, [] => isFalse (by intro same; cases same)
  | (k, x) :: xs, (l, y) :: ys =>
    if hk : k = l then
      match decEq x y, decEqMembers xs ys with
      | isTrue h, isTrue hs => isTrue (hk ▸ h ▸ hs ▸ rfl)
      | isFalse h, _ => isFalse fun same => h (by injection same with pair; injection pair)
      | _, isFalse hs => isFalse fun same => hs (by injection same)
    else isFalse fun same => hk (by injection same with pair; injection pair)

end

instance : DecidableEq Json := decEq

mutual

/-- Give every object its meaning as an ordered map, at all depths. -/
def canonical : Json → Json
  | null => null
  | bool b => bool b
  | number n => number n
  | string s => string s
  | array items => array (canonicalItems items)
  | object members => object (canonicalMembers [] members)

/-- Canonical values of the items of an array. -/
def canonicalItems : List Json → List Json
  | [] => []
  | item :: rest => canonical item :: canonicalItems rest

/-- Set the members of an object one after the other on top of the entries set so far. -/
def canonicalMembers (done : List (String × Json)) : List (String × Json) → List (String × Json)
  | [] => done
  | (key, value) :: rest => canonicalMembers (Entries.put key (canonical value) done) rest

end

mutual

/-- No object of the value repeats a key, at any depth. -/
def DistinctKeys : Json → Prop
  | null | bool _ | number _ | string _ => True
  | array items => ItemsDistinctKeys items
  | object members => (members.map Prod.fst).Nodup ∧ MembersDistinctKeys members

/-- No object among the items of an array repeats a key. -/
def ItemsDistinctKeys : List Json → Prop
  | [] => True
  | item :: rest => DistinctKeys item ∧ ItemsDistinctKeys rest

/-- No object among the values of the members repeats a key. -/
def MembersDistinctKeys : List (String × Json) → Prop
  | [] => True
  | (_, value) :: rest => DistinctKeys value ∧ MembersDistinctKeys rest

end

/-- The members of an object as an ordered map with canonical values; none for other values. -/
def toMap? : Json → Option (OrderedMap Json)
  | object members => some (OrderedMap.ofList (members.map fun m => (m.1, canonical m.2)))
  | _ => none

/-- The text of a string value. -/
def toText? : Json → Option String
  | string s => some s
  | _ => none

/-- The truth value of a boolean. -/
def toBool? : Json → Option Bool
  | bool b => some b
  | _ => none

/-- The object with the entries of an ordered map. -/
def ofMap (m : OrderedMap Json) : Json :=
  object m.entries

end Json

end ComponentGen
