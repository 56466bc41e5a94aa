import ComponentGen.Proofs.Resolved.Positions
import ComponentGen.Proofs.Text.Ascii
import ComponentGen.Proofs.Text.Reading
import ComponentGen.Style.Stylesheet
/-!
# Class names of different nodes

A class name goes on behind the class name of the parent with a hyphen. What stands between two
hyphens is never cut, so the names below two children of a list are told apart by the digits of
their indices, and the names of two components by the names of the components. Types may be empty
and may hold hyphens and digits, since nothing is read out of them.
-/

namespace ComponentGen.Style

/-- The longer name is the shorter one, or goes on behind it with a hyphen. -/
def Continues (shorter longer : String) : Prop :=
  ∃ tail : List Char, longer.toList = shorter.toList ++ tail ∧ ∀ c ∈ tail.head?, c = '-'

namespace Continues

theorem refl (name : String) : Continues name name :=
  ⟨[], (List.append_nil _).symm, by simp⟩

theorem trans {short middle long : String} (first : Continues short middle)
    (second : Continues middle long) : Continues short long := by
  obtain ⟨tail, isMiddle, hyphen⟩ := first
  obtain ⟨more, isLong, hyphens⟩ := second
  refine ⟨tail ++ more, by rw [isLong, isMiddle, List.append_assoc], ?_⟩
  cases tail with
  | nil => exact hyphens
  | cons c rest => exact hyphen

theorem hyphen (stem rest : String) : Continues stem (stem ++ "-" ++ rest) := by
  refine ⟨'-' :: rest.toList, ?_, by simp⟩
  rw [String.append_assoc, String.toList_append, String.toList_append]
  rfl

end Continues

/-- Of two names that go on behind one stem, the parts up to the next hyphen are the same. -/
theorem segment_eq {first second firstTail secondTail : List Char}
    (same : first ++ firstTail = second ++ secondTail) (inFirst : '-' ∉ first)
    (inSecond : '-' ∉ second) (behindFirst : ∀ c ∈ firstTail.head?, c = '-')
    (behindSecond : ∀ c ∈ secondTail.head?, c = '-') : first = second := by
  have inside {segment : List Char} (free : '-' ∉ segment) : ∀ c ∈ segment, (c != '-') = true :=
    fun _ member => bne_iff_ne.2 (ne_of_mem_of_not_mem member free)
  have ends {tail : List Char} (behind : ∀ c ∈ tail.head?, c = '-') :
      Text.EndsRun (· != '-') tail :=
    fun c isFirst => bne_eq_false_iff_eq.2 (behind c isFirst)
  exact (Text.run_append_inj (inside inFirst) (inside inSecond) (ends behindFirst)
    (ends behindSecond) same).1

/-! ## Children of one node -/

theorem hyphen_not_mem_toString (i : Nat) : '-' ∉ (toString i).toList := by
  rw [Text.toList_toString]
  intro member
  exact absurd (Text.isDigit_of_mem_toDigits member) (by decide)

theorem toList_listClass (stem : String) (i : Nat) :
    (listClass stem i).toList = (stem.toList ++ ['-']) ++ (toString i).toList := by
  rw [listClass, String.toList_append, String.toList_append]
  rfl

/-- A name goes on behind the class name of one child of a list only. -/
theorem index_eq_of_continues {stem name : String} {i k : Nat}
    (first : Continues (listClass stem i) name) (second : Continues (listClass stem k) name) :
    i = k := by
  obtain ⟨firstTail, isFirst, firstHyphen⟩ := first
  obtain ⟨secondTail, isSecond, secondHyphen⟩ := second
  rw [toList_listClass, List.append_assoc] at isFirst isSecond
  have same := List.append_cancel_left (isFirst.symm.trans isSecond)
  have digits : (toString i).toList = (toString k).toList :=
    segment_eq same (hyphen_not_mem_toString i) (hyphen_not_mem_toString k) firstHyphen
      secondHyphen
  rw [Text.toList_toString, Text.toList_toString] at digits
  exact Text.toDigits_inj digits

/-- A name below a node is longer than the class name of the node. -/
theorem ne_of_continues_childStem {className type name : String}
    (below : Continues (childStem className type) name) : className ≠ name := by
  rintro rfl
  obtain ⟨tail, isName, -⟩ := below
  have lengths := congrArg List.length isName
  rw [childStem, String.toList_append, String.toList_append] at lengths
  simp at lengths

/-- The class name of the child with index `i`: only a child of a list is named after its index. -/
def childClass (stem : String) : Children ResolvedNode → Nat → String
  | .list _, i => listClass stem i
  | .single _, _ | .absent, _ => stem

theorem continues_childClass (stem : String) (c : Children ResolvedNode) (i : Nat) :
    Continues stem (childClass stem c i) := by
  cases c with
  | absent => exact Continues.refl stem
  | single node => exact Continues.refl stem
  | list nodes => exact Continues.hyphen stem (toString i)

/-- Names that go on behind the class names of different children are different. -/
theorem ne_of_continues_childClass {stem first second : String} {c : Children ResolvedNode}
    {i k : Nat} (different : i ≠ k) (isChild : i < c.toList.length) (isOther : k < c.toList.length)
    (below : Continues (childClass stem c i) first)
    (belowOther : Continues (childClass stem c k) second) : first ≠ second := by
  cases c with
  | absent => exact absurd isChild (Nat.not_lt_zero i)
  | single node =>
      have isFirst : i = 0 := Nat.lt_one_iff.1 isChild
      have isSecond : k = 0 := Nat.lt_one_iff.1 isOther
      exact absurd (isFirst.trans isSecond.symm) different
  | list nodes =>
      rintro rfl
      exact different (index_eq_of_continues below belowOther)

/-! ## Nodes of one tree -/

theorem listClasses_eq_flatMap (path : List Nat) (stem : String) (i : Nat)
    (nodes : List ResolvedNode) :
    listClasses path stem i nodes = (nodes.zipIdx i).flatMap fun child =>
      classesFrom (path ++ [child.2]) (listClass stem child.2) child.1 := by
  induction nodes generalizing i with
  | nil => rfl
  | cons node rest ih => rw [listClasses, ih, List.zipIdx_cons, List.flatMap_cons]

/-- A node is named first, then its nested nodes by their indices, whichever shape they have. -/
theorem classesFrom_eq_flatMap (path : List Nat) (className : String) (n : ResolvedNode) :
    classesFrom path className n = (path, className) ::
      n.childNodes.zipIdx.flatMap fun child =>
        classesFrom (path ++ [child.2])
          (childClass (childStem className n.type) n.children child.2) child.1 := by
  obtain ⟨type, props, styleMap, data, children, forwarding⟩ := n
  rw [classesFrom]
  cases children with
  | absent => rfl
  | single node =>
      rw [childClasses]
      exact congrArg _ (List.append_nil _).symm
  | list nodes =>
      rw [childClasses]
      exact congrArg _ (listClasses_eq_flatMap path _ 0 nodes)

/-- The class names below a node go on behind its own. -/
theorem continues_of_mem_classesFrom {path : List Nat} {className : String} {n : ResolvedNode}
    {entry : List Nat × String} (member : entry ∈ classesFrom path className n) :
    Continues className entry.2 := by
  induction n using ResolvedNode.nested generalizing path className with
  | node n ih =>
      rw [classesFrom_eq_flatMap, List.mem_cons, List.mem_flatMap] at member
      rcases member with rfl | ⟨⟨child, i⟩, inChildren, inside⟩
      · exact Continues.refl className
      · have isChild : child ∈ n.childNodes := List.fst_mem_of_mem_zipIdx inChildren
        have childName := continues_childClass (childStem className n.type) n.children i
        exact (Continues.hyphen className _).trans (childName.trans (ih child isChild inside))

/-- No two nodes of a tree have a class name in common. -/
theorem pairwise_className_ne (path : List Nat) (className : String) (n : ResolvedNode) :
    (classesFrom path className n).Pairwise fun first second => first.2 ≠ second.2 := by
  induction n using ResolvedNode.nested generalizing path className with
  | node n ih =>
      rw [classesFrom_eq_flatMap, List.pairwise_cons, List.pairwise_flatMap]
      refine ⟨?_, ?_, ?_⟩
      · -- The node itself against the nodes below it: their names are longer.
        intro entry below
        obtain ⟨⟨child, i⟩, -, inside⟩ := List.mem_flatMap.1 below
        have childName := continues_childClass (childStem className n.type) n.children i
        exact ne_of_continues_childStem (childName.trans (continues_of_mem_classesFrom inside))
      · rintro ⟨child, i⟩ inChildren
        exact ih child (List.fst_mem_of_mem_zipIdx inChildren) _ _
      · -- The nodes below one child against those below a later one: the indices differ.
        refine (pairwise_zipIdx n.childNodes).imp_of_mem ?_
        rintro ⟨child, i⟩ ⟨other, k⟩ inChildren otherInChildren earlier entry inside later inOther
        exact ne_of_continues_childClass (Nat.ne_of_lt earlier)
          (List.snd_lt_of_mem_zipIdx inChildren) (List.snd_lt_of_mem_zipIdx otherInChildren)
          (continues_of_mem_classesFrom inside) (continues_of_mem_classesFrom inOther)

/-! ## Components -/

theorem toList_rootClass (component : String) :
    (rootClass component).toList =
      (Text.lowerCase component).toList ++ ['-', 'r', 'o', 'o', 't'] := by
  rw [rootClass, String.toList_append]
  rfl

/-- A name of letters and digits has no hyphen in lower case. -/
theorem hyphen_not_mem_lowerCase {component : String}
    (alphanum : ∀ c ∈ component.toList, c.isAlphanum = true) :
    '-' ∉ (Text.lowerCase component).toList := by
  rw [Text.toList_lowerCase_of_isAlphanum alphanum, List.mem_map]
  rintro ⟨c, member, lower⟩
  exact Text.toLower_ne_hyphen (alphanum c member) lower

/-- A name goes on behind the class names of the roots of components with one name only, up to
lower case. -/
theorem lowerCase_eq_of_continues_rootClass {first second name : String}
    (inFirst : '-' ∉ (Text.lowerCase first).toList)
    (inSecond : '-' ∉ (Text.lowerCase second).toList)
    (below : Continues (rootClass first) name) (belowOther : Continues (rootClass second) name) :
    Text.lowerCase first = Text.lowerCase second := by
  obtain ⟨firstTail, isFirst, -⟩ := below
  obtain ⟨secondTail, isSecond, -⟩ := belowOther
  rw [toList_rootClass, List.append_assoc] at isFirst isSecond
  have same := isFirst.symm.trans isSecond
  exact String.toList_inj.1 (segment_eq same inFirst inSecond (by simp) (by simp))

end ComponentGen.Style
