import ComponentGen.Proofs.Component.Merging
import ComponentGen.Proofs.Generated.RendererRecords
/-!
# The calls that make a record

A generated component inside a tree gets a record that is made like any other one: its own overlays
are applied before its children are looked at. So one record may lead to another one of the same
component, and the trees that are handed on need not be parts of the tree that was given. Here the
calls are followed as they come, and each call for a record is noted.

They do end. What the first call hands on are parts of its merged tree, and merging changes none of
them, so every further call gets a smaller part of that one tree. The recursion is founded on just
that: on the relation of a call to the calls that it makes.
-/

namespace ComponentGen

namespace Node

/-- All nodes below a node, each in front of its children. -/
def descendants (n : Node) : List Node :=
  n.childNodes.flatMap preorder

theorem preorder_eq_cons (n : Node) : n.preorder = n :: n.descendants :=
  n.preorder_eq

theorem merge_merge (n : Node) : n.merge.merge = n.merge :=
  merge_of_samples_absent fun _ => sample_of_mem_preorder_merge

theorem merge_of_mem_childNodes_merge {n child : Node} (member : child ∈ n.merge.childNodes) :
    child.merge = child := by
  rw [childNodes, merge_eq, Children.toList_map] at member
  obtain ⟨shown, -, rfl⟩ := List.mem_map.1 member
  exact shown.merge_merge

end Node

namespace Generated.RendererStory

/-! ## Calls that call each other -/

/-- A record that is to be made of a component, from a tree. -/
structure Call where
  component : String
  node : Node

/-- What is under way: a record is made, or a tree is searched for generated components. -/
inductive Frame where
  | record (call : Call)
  | search (node : Node)

namespace Frame

/-- What is under way calls for another one. A record calls for a search of each child that the
merged tree has; a search calls for a record of the tree itself or for a search of its children. -/
inductive CalledBy : Frame → Frame → Prop where
  | shown {call : Call} {child : Node} (isChild : child ∈ call.node.merge.childNodes) :
      CalledBy (search child) (record call)
  | found (n : Node) : CalledBy (record ⟨n.type, n⟩) (search n)
  | inside {n child : Node} (isChild : child ∈ n.childNodes) : CalledBy (search child) (search n)

/-- A search ends when it ends for the children and the record of the tree is made. -/
theorem acc_search {n : Node} (ofRecord : Acc CalledBy (record ⟨n.type, n⟩))
    (ofChildren : ∀ child ∈ n.childNodes, Acc CalledBy (search child)) : Acc CalledBy (search n) := by
  refine ⟨_, fun callee called => ?_⟩
  cases called with
  | found => exact ofRecord
  | inside isChild => exact ofChildren _ isChild

theorem acc_record {call : Call}
    (ofChildren : ∀ child ∈ call.node.merge.childNodes, Acc CalledBy (search child)) :
    Acc CalledBy (record call) := by
  refine ⟨_, fun callee called => ?_⟩
  cases called with
  | shown isChild => exact ofChildren _ isChild

/-- In a merged tree a record searches the children that the tree has itself. -/
theorem acc_search_of_merged {n : Node} (merged : n.merge = n) : Acc CalledBy (search n) := by
  induction n using Node.nested with
  | node n ih =>
      have ofChildren (child : Node) (isChild : child ∈ n.childNodes) :
          Acc CalledBy (search child) :=
        ih child isChild (Node.merge_of_mem_childNodes_merge (merged.symm ▸ isChild))
      refine acc_search (acc_record fun child isChild => ofChildren child ?_) ofChildren
      rwa [merged] at isChild

/-- No calls call each other without an end. -/
theorem calledBy_wellFounded : WellFounded CalledBy := by
  have ofRecord (call : Call) : Acc CalledBy (record call) :=
    acc_record fun _ isChild => acc_search_of_merged (Node.merge_of_mem_childNodes_merge isChild)
  refine ⟨fun frame => ?_⟩
  cases frame with
  | record call => exact ofRecord call
  | search n =>
      induction n using Node.nested with
      | node n ih => exact acc_search (ofRecord _) ih

instance : WellFoundedRelation Frame :=
  ⟨CalledBy, calledBy_wellFounded⟩

end Frame

/-! ## Following the calls -/

/-- Steps that may fail and that note the calls for records. -/
abbrev Noting := ExceptT CollisionError (StateM (List Call))

/-- Note a call. -/
def note (call : Call) : Noting Unit :=
  modify (· ++ [call])

mutual

/-- Make the record of a component from a tree, by applying its overlays and looking at the children
that the merged tree has. -/
def makeRecord (ctx : Context) (name : String) (n : Node) : Noting Record := do
  note ⟨name, n⟩
  let record ← liftExcept (bareRecord ctx name n n.merge)
  let nested ←
    if acceptsChildren ctx name then do
      let found ← n.merge.childNodes.attach.mapM fun ⟨child, _⟩ => makeRecordsIn ctx child
      pure found.flatten
    else pure []
  return nest record nested
termination_by Frame.record ⟨name, n⟩
decreasing_by exact .shown ‹_›

/-- Make the records of the generated components in a tree, looking through other nodes. -/
def makeRecordsIn (ctx : Context) (n : Node) : Noting (List Record) := do
  if ctx.generated.contains n.type then
    let record ← makeRecord ctx n.type n
    return [record]
  else
    let found ← n.childNodes.attach.mapM fun ⟨child, _⟩ => makeRecordsIn ctx child
    return found.flatten
termination_by Frame.search n
decreasing_by
  · exact .found n
  · exact .inside ‹_›

end

variable {ctx : Context}

theorem mapM_makeRecordsIn (nodes : List Node) :
    (nodes.attach.mapM fun ⟨child, _⟩ => makeRecordsIn ctx child) =
      nodes.mapM (makeRecordsIn ctx) := by
  rw [List.mapM_subtype fun _ _ => rfl, List.unattach_attach]

/-! ## Steps and their results -/

/-- The call is for a generated component, and from a tree that has nothing to be merged. -/
structure Call.IsMerged (ctx : Context) (call : Call) : Prop where
  component : call.component = call.node.type
  generated : call.component ∈ ctx.generated
  merged : call.node.merge = call.node

/-- The steps have this result, whatever has been noted before. They note calls for merged trees,
which are among the given nodes, in their order. -/
def Yields (ctx : Context) {α : Type} (steps : Noting α) (result : Except CollisionError α)
    (nodes : List Node) : Prop :=
  ∀ noted, ∃ calls, steps.run.run noted = (result, noted ++ calls) ∧
    (calls.map (·.node)).Sublist nodes ∧ ∀ call ∈ calls, call.IsMerged ctx

namespace Yields

variable {α β : Type} {steps : Noting α} {result : Except CollisionError α}
  {nodes more : List Node}

protected theorem mono (given : Yields ctx steps result nodes) (sublist : nodes.Sublist more) :
    Yields ctx steps result more := by
  intro noted
  obtain ⟨calls, run, among, merged⟩ := given noted
  exact ⟨calls, run, among.trans sublist, merged⟩

protected theorem lift (result : Except CollisionError α) : Yields ctx (liftExcept result) result [] := by
  intro noted
  refine ⟨[], ?_, .slnil, fun _ member => nomatch member⟩
  rw [List.append_nil]
  cases result <;> rfl

protected theorem pure (value : α) : Yields ctx (pure value) (pure value) [] := by
  intro noted
  refine ⟨[], ?_, .slnil, fun _ member => nomatch member⟩
  rw [List.append_nil]
  rfl

/-- Where the first steps fail, the others are not taken. -/
protected theorem bind (first : Yields ctx steps result nodes) {next : α → Noting β}
    {rest : α → Except CollisionError β}
    (second : ∀ value, Yields ctx (next value) (rest value) more) :
    Yields ctx (steps >>= next) (result >>= rest) (nodes ++ more) := by
  intro noted
  obtain ⟨calls, run, among, merged⟩ := first noted
  cases result with
  | error e =>
      have stopped : (steps >>= next).run.run noted = (.error e, noted ++ calls) := by
        rw [ExceptT.run_bind, StateT.run_bind, run]
        rfl
      exact ⟨calls, stopped, among.trans (List.sublist_append_left nodes more), merged⟩
  | ok value =>
      obtain ⟨others, otherRun, otherAmong, otherMerged⟩ := second value (noted ++ calls)
      have goesOn : (steps >>= next).run.run noted = (rest value, noted ++ calls ++ others) := by
        rw [ExceptT.run_bind, StateT.run_bind, run]
        exact otherRun
      refine ⟨calls ++ others, ?_, ?_, List.forall_mem_append.2 ⟨merged, otherMerged⟩⟩
      · rw [goesOn, List.append_assoc]
        rfl
      · rw [List.map_append]
        exact among.append otherAmong

protected theorem map (given : Yields ctx steps result nodes) (use : α → β) :
    Yields ctx (steps >>= fun value => pure (use value))
      (result >>= fun value => pure (use value)) nodes := by
  have both := given.bind fun value => Yields.pure (use value)
  rwa [List.append_nil] at both

/-- Steps for each of several nodes. -/
protected theorem mapM {each : Node → Noting α} {results : Node → Except CollisionError α}
    {below : Node → List Node} {items : List Node}
    (given : ∀ item ∈ items, Yields ctx (each item) (results item) (below item)) :
    Yields ctx (items.mapM each) (items.mapM results) (items.flatMap below) := by
  induction items with
  | nil => exact .pure []
  | cons item items ih =>
      obtain ⟨first, others⟩ := List.forall_mem_cons.1 given
      rw [List.mapM_cons, List.mapM_cons, List.flatMap_cons]
      exact first.bind fun value => (ih others).map (value :: ·)

end Yields

/-! ## Records -/

/-- What is found in trees is put together from what is found in each of them. -/
theorem yields_children {c : Children Node}
    (each : ∀ node ∈ c.toList,
      Yields ctx (makeRecordsIn ctx node) (generatedIn ctx node) node.preorder) :
    Yields ctx
      (do
        let found ← c.toList.mapM (makeRecordsIn ctx)
        return found.flatten)
      (generatedInChildren ctx c) (c.toList.flatMap Node.preorder) := by
  rw [generatedInChildren_eq_mapM]
  exact (Yields.mapM each).map List.flatten

/-- Behind the call itself, what is noted are the calls below the merged tree. -/
theorem run_makeRecord {n : Node}
    (below : ∀ child ∈ n.merge.childNodes,
      Yields ctx (makeRecordsIn ctx child) (generatedIn ctx child) child.preorder)
    (name : String) (noted : List Call) :
    ∃ calls, (makeRecord ctx name n).run.run noted =
        (recordOf ctx name n, noted ++ [⟨name, n⟩] ++ calls) ∧
      (calls.map (·.node)).Sublist n.merge.descendants ∧ ∀ call ∈ calls, call.IsMerged ctx := by
  have called (rest : Unit → Noting Record) :
      (note ⟨name, n⟩ >>= rest).run.run noted = (rest ()).run.run (noted ++ [⟨name, n⟩]) := rfl
  rw [makeRecord, called, ← List.nil_append n.merge.descendants]
  refine (Yields.lift (bareRecord ctx name n n.merge)).bind (fun record => ?_)
    (noted ++ [⟨name, n⟩])
  by_cases accepts : acceptsChildren ctx name = true
  · rw [if_pos accepts, if_pos accepts, ← bind_assoc, mapM_makeRecordsIn]
    exact (yields_children below).map (nest record)
  · rw [if_neg accepts, if_neg accepts]
    exact (Yields.pure (nest record [])).mono (List.nil_sublist _)

/-- A generated component in a merged tree gets the record that it would get by itself. -/
theorem generatedIn_of_generated {n : Node} (merged : n.merge = n)
    (generated : ctx.generated.contains n.type = true) :
    generatedIn ctx n = do
      let record ← recordOf ctx n.type n
      return [record] := by
  rw [generatedIn_eq, if_pos generated, recordOf, merged]
  by_cases accepts : acceptsChildren ctx n.type = true
  · simp only [if_pos accepts, bind_assoc, pure_bind]
  · simp only [if_neg accepts, bind_assoc, pure_bind]

/-- A generated component in a merged tree notes its own call, and then those below it. -/
theorem yields_makeRecord {n : Node} (merged : n.merge = n) (generated : n.type ∈ ctx.generated)
    (below : ∀ child ∈ n.childNodes,
      Yields ctx (makeRecordsIn ctx child) (generatedIn ctx child) child.preorder) :
    Yields ctx (makeRecord ctx n.type n) (recordOf ctx n.type n) n.preorder := by
  intro noted
  obtain ⟨calls, run, among, areMerged⟩ := run_makeRecord (merged.symm ▸ below) n.type noted
  rw [merged] at among
  refine ⟨⟨n.type, n⟩ :: calls, ?_, ?_, ?_⟩
  · rw [run, List.append_assoc, List.singleton_append]
  · rw [Node.preorder_eq_cons]
    exact among.cons_cons n
  · exact List.forall_mem_cons.2 ⟨⟨rfl, generated, merged⟩, areMerged⟩

/-- In a merged tree every call is for a part of it, and no part is called for twice. -/
theorem yields_makeRecordsIn {n : Node} (merged : n.merge = n) :
    Yields ctx (makeRecordsIn ctx n) (generatedIn ctx n) n.preorder := by
  induction n using Node.nested with
  | node n ih =>
      have below : ∀ child ∈ n.childNodes,
          Yields ctx (makeRecordsIn ctx child) (generatedIn ctx child) child.preorder :=
        fun child isChild =>
          ih child isChild (Node.merge_of_mem_childNodes_merge (merged.symm ▸ isChild))
      rw [makeRecordsIn]
      by_cases generated : ctx.generated.contains n.type = true
      · rw [if_pos generated, generatedIn_of_generated merged generated]
        exact (yields_makeRecord merged (List.contains_iff_mem.1 generated) below).map ([·])
      · rw [if_neg generated, generatedIn_eq, if_neg generated, Node.preorder_eq_cons,
          mapM_makeRecordsIn]
        exact (yields_children below).mono (List.sublist_cons_self n _)

/-- Making a record ends: no calls call each other without an end. Whatever the tree and the
generated components are, the record is the one that is made without looking for overlays again. Each
further call gets a node from below the merged tree, none of them twice, and merging changes none of
these nodes. -/
theorem makeRecord_ends :
    WellFounded Frame.CalledBy ∧
    ∀ (ctx : Context) (name : String) (n : Node), ∃ calls,
      (makeRecord ctx name n).run.run [] = (recordOf ctx name n, ⟨name, n⟩ :: calls) ∧
      (calls.map (·.node)).Sublist n.merge.descendants ∧ ∀ call ∈ calls, call.IsMerged ctx := by
  refine ⟨Frame.calledBy_wellFounded, fun ctx name n => ?_⟩
  exact run_makeRecord (fun _ isChild =>
    yields_makeRecordsIn (Node.merge_of_mem_childNodes_merge isChild)) name []

end Generated.RendererStory

end ComponentGen
