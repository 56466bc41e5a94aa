import ComponentGen.Placeholder.Index
import ComponentGen.Proofs.OrderedMap
import ComponentGen.Proofs.Outcome
/-!
# The registrations of an interface and its collision log

Registering is a history of writes: a surface form stands for the field that registered it last,
and each registration that takes a form from another field is logged with the field that held the
form until then. Here the log is stated place by place, apart from the index that is built on the
way. So a field that loses a form is found in the log, whoever takes the form and whenever. What
is built is the same under both policies; the strict one refuses it when the log is not empty.
-/

namespace ComponentGen

/-- The field that a surface form stands for after the given registrations: that of the last one
of the form. -/
def lastField? (registrations : List (String × Binding)) (surface : String) : Option Binding :=
  registrations.reverse.lookup surface

/-- The collision that a registration is, where `held?` is the field that its form stands for
until then. -/
def collisionWith? (held? : Option Binding) (registration : String × Binding) : Option Collision :=
  held?.bind fun held =>
    if held = registration.2 then none else some ⟨registration.1, held, registration.2⟩

/-- The collisions of a list of registrations: at each place the registrations in front of it
decide which field the form is taken from. -/
def collisionLog (registrations : List (String × Binding)) : List Collision :=
  registrations.zipIdx.filterMap fun (registration, place) =>
    collisionWith? (lastField? (registrations.take place) registration.1) registration

theorem collisionWith?_eq_some_iff {held? : Option Binding} {registration : String × Binding}
    {collision : Collision} :
    collisionWith? held? registration = some collision ↔
      held? = some collision.previous ∧ registration = (collision.surface, collision.current) ∧
        collision.previous ≠ collision.current := by
  obtain ⟨surface, field⟩ := registration
  rw [collisionWith?, Option.bind_eq_some_iff]
  constructor
  · rintro ⟨held, rfl, taken⟩
    split at taken
    · cases taken
    · next different =>
        cases taken
        exact ⟨rfl, rfl, different⟩
  · rintro ⟨rfl, same, different⟩
    cases same
    exact ⟨collision.previous, rfl, if_neg different⟩

/-! ## The field that holds a form -/

theorem lastField?_concat (front : List (String × Binding)) (last : String × Binding)
    (surface : String) :
    lastField? (front ++ [last]) surface =
      if surface = last.1 then some last.2 else lastField? front surface := by
  rw [lastField?, ← OrderedMap.get?_ofList, OrderedMap.ofList_concat, OrderedMap.get?_insert,
    OrderedMap.get?_ofList, lastField?]

theorem lastField?_concat_self (front : List (String × Binding)) (surface : String)
    (field : Binding) : lastField? (front ++ [(surface, field)]) surface = some field := by
  rw [lastField?_concat, if_pos rfl]

theorem mem_of_lastField? {registrations : List (String × Binding)} {surface : String}
    {field : Binding} (holds : lastField? registrations surface = some field) :
    (surface, field) ∈ registrations := by
  rw [lastField?, ← OrderedMap.get?_ofList] at holds
  exact OrderedMap.mem_of_mem_ofList (OrderedMap.mem_entries_of_get? holds)

/-- A form that is registered for one field only from some place on stands for that field,
whatever it stood for until then. -/
theorem lastField?_append_of_mem {earlier later : List (String × Binding)} {surface : String}
    {field : Binding} (registered : (surface, field) ∈ later)
    (only : ∀ other, (surface, other) ∈ later → other = field) :
    lastField? (earlier ++ later) surface = some field := by
  have latest : lastField? later surface = some field := by
    cases last : lastField? later surface with
    | some other => rw [only other (mem_of_lastField? last)]
    | none =>
        rw [lastField?, List.lookup_eq_none_iff] at last
        have apart := last (surface, field) (List.mem_reverse.2 registered)
        exact absurd apart (by simp)
  rw [lastField?, List.reverse_append, List.lookup_append]
  change (lastField? later surface).or _ = _
  rw [latest, Option.some_or]

/-! ## Places of the log -/

theorem collisionLog_concat (front : List (String × Binding)) (last : String × Binding) :
    collisionLog (front ++ [last]) =
      collisionLog front ++ (collisionWith? (lastField? front last.1) last).toList := by
  have before : (front.zipIdx.filterMap fun (registration, place) =>
      collisionWith? (lastField? ((front ++ [last]).take place) registration.1) registration) =
      collisionLog front := by
    apply List.filterMap_congr
    rintro ⟨registration, place⟩ inFront
    have within : place ≤ front.length := by
      have bound := List.snd_lt_of_mem_zipIdx inFront
      omega
    dsimp only
    rw [List.take_append_of_le_length within]
  rw [collisionLog, List.zipIdx_append, List.filterMap_append, before, Nat.zero_add,
    List.zipIdx_singleton]
  simp only [List.filterMap_cons, List.filterMap_nil, List.take_left]
  cases collisionWith? (lastField? front last.1) last <;> rfl

/-- A collision is in the log exactly if some registration takes the form from the field that it
stands for just before. -/
theorem mem_collisionLog_iff {registrations : List (String × Binding)} {collision : Collision} :
    collision ∈ collisionLog registrations ↔
      ∃ before after,
        registrations = before ++ (collision.surface, collision.current) :: after ∧
          lastField? before collision.surface = some collision.previous ∧
          collision.previous ≠ collision.current := by
  rw [collisionLog, List.mem_filterMap]
  constructor
  · rintro ⟨⟨registration, place⟩, located, taken⟩
    obtain ⟨held, rfl, different⟩ := collisionWith?_eq_some_iff.1 taken
    obtain ⟨bound, there⟩ :=
      List.getElem?_eq_some_iff.1 (List.mem_zipIdx_iff_getElem?.1 located)
    refine ⟨registrations.take place, registrations.drop (place + 1), ?_, held, different⟩
    dsimp only at bound there
    rw [← there, List.getElem_cons_drop, List.take_append_drop]
  · rintro ⟨before, after, rfl, held, different⟩
    refine ⟨((collision.surface, collision.current), before.length), ?_, ?_⟩
    · rw [List.mem_zipIdx_iff_getElem?, List.getElem?_append_right (Nat.le_refl _), Nat.sub_self]
      rfl
    · dsimp only
      rw [List.take_left]
      exact collisionWith?_eq_some_iff.2 ⟨held, rfl, different⟩

/-- A logged collision is between two registrations of its form. -/
theorem sublist_of_mem_collisionLog {registrations : List (String × Binding)}
    {collision : Collision} (logged : collision ∈ collisionLog registrations) :
    [(collision.surface, collision.previous), (collision.surface, collision.current)].Sublist
        registrations ∧ collision.previous ≠ collision.current := by
  obtain ⟨before, after, rfl, held, different⟩ := mem_collisionLog_iff.1 logged
  refine ⟨?_, different⟩
  exact (List.singleton_sublist.2 (mem_of_lastField? held)).append
    (List.singleton_sublist.2 List.mem_cons_self)

/-- A form that stands for a field is taken from it by the first registration that is for another
field. -/
theorem exists_mem_collisionLog_of_lastField? {before after : List (String × Binding)}
    {surface : String} {lost taken : Binding} (held : lastField? before surface = some lost)
    (later : (surface, taken) ∈ after) (different : lost ≠ taken) :
    ∃ collision ∈ collisionLog (before ++ after),
      collision.surface = surface ∧ collision.previous = lost := by
  induction after generalizing before with
  | nil => cases later
  | cons next rest ih =>
      by_cases taking : next.1 = surface ∧ next.2 ≠ lost
      · obtain ⟨rfl, other⟩ := taking
        refine ⟨⟨next.1, lost, next.2⟩, mem_collisionLog_iff.2 ?_, rfl, rfl⟩
        exact ⟨before, rest, rfl, held, Ne.symm other⟩
      · have stillHeld : lastField? (before ++ [next]) surface = some lost := by
          rw [lastField?_concat]
          split
          · next same => rw [Classical.not_not.1 fun other => taking ⟨same.symm, other⟩]
          · exact held
        have inRest : (surface, taken) ∈ rest := by
          rcases List.mem_cons.1 later with rfl | inRest
          · exact absurd ⟨rfl, Ne.symm different⟩ taking
          · exact inRest
        rw [List.append_cons]
        exact ih stillHeld inRest

/-- A field that loses a form to another one is logged as the field that held the form. -/
theorem exists_mem_collisionLog {registrations : List (String × Binding)} {surface : String}
    {lost taken : Binding}
    (both : [(surface, lost), (surface, taken)].Sublist registrations) (different : lost ≠ taken) :
    ∃ collision ∈ collisionLog registrations,
      collision.surface = surface ∧ collision.previous = lost := by
  obtain ⟨first, second, rfl, inFirst, inSecond⟩ := List.cons_sublist_iff.1 both
  obtain ⟨before, between, rfl⟩ := List.append_of_mem inFirst
  have later : (surface, taken) ∈ between ++ second :=
    List.mem_append_right between (List.singleton_sublist.1 inSecond)
  obtain ⟨collision, logged, isForm, isLost⟩ :=
    exists_mem_collisionLog_of_lastField? (lastField?_concat_self before surface lost) later
      different
  refine ⟨collision, ?_, isForm, isLost⟩
  simpa using logged

/-- Without a collision, a form stands for the field that it was registered for. -/
theorem lastField?_of_collisionLog_eq_nil {registrations : List (String × Binding)}
    (silent : collisionLog registrations = []) {surface : String} {field : Binding}
    (registered : (surface, field) ∈ registrations) :
    lastField? registrations surface = some field := by
  obtain ⟨before, after, rfl⟩ := List.append_of_mem registered
  refine lastField?_append_of_mem List.mem_cons_self fun other alsoRegistered => ?_
  rcases List.mem_cons.1 alsoRegistered with same | later
  · exact congrArg Prod.snd same
  · by_contra different
    obtain ⟨collision, logged, -⟩ :=
      exists_mem_collisionLog_of_lastField? (lastField?_concat_self before surface field) later
        (Ne.symm different)
    rw [← List.append_cons, silent] at logged
    cases logged

/-! ## Step and run -/

/-- The collision that a policy ends in, of those in a log. -/
def CollisionPolicy.refused? : CollisionPolicy → List Collision → Option Collision
  | .lastWriteWins, _ => none
  | .strict, log => log.head?

namespace PlaceholderIndex

/-- Registering binds the form and logs the collision, if it is one that the policy allows. -/
theorem register_eq (policy : CollisionPolicy) (index : PlaceholderIndex)
    (registration : String × Binding) :
    register policy index registration =
      outcome
        (policy.refused?
          (collisionWith? (index.bindings.get? registration.1) registration).toList)
        ⟨index.bindings.insert registration.1 registration.2, index.collisions ++
          (collisionWith? (index.bindings.get? registration.1) registration).toList⟩ := by
  obtain ⟨surface, field⟩ := registration
  dsimp only [register, collisionWith?]
  cases index.bindings.get? surface with
  | none => cases policy <;> simp [CollisionPolicy.refused?]
  | some held =>
      by_cases same : held = field
      · cases policy <;> simp [same, CollisionPolicy.refused?]
      · cases policy <;> simp [same, CollisionPolicy.refused?]

/-- Registering a list of forms binds them one after the other and logs its collisions, up to the
first one that the policy refuses. -/
theorem foldlM_register (policy : CollisionPolicy) (registrations : List (String × Binding)) :
    registrations.foldlM (register policy) empty =
      outcome (policy.refused? (collisionLog registrations))
        ⟨.ofList registrations, collisionLog registrations⟩ := by
  induction registrations using List.reverseRecOn with
  | nil => cases policy <;> rfl
  | append_singleton front last ih =>
      have step : register policy ⟨.ofList front, collisionLog front⟩ last =
          outcome (policy.refused? (collisionWith? (lastField? front last.1) last).toList)
            ⟨.ofList (front ++ [last]), collisionLog (front ++ [last])⟩ := by
        rw [register_eq, collisionLog_concat, OrderedMap.ofList_concat, OrderedMap.get?_ofList]
        rfl
      rw [List.foldlM_append, ih]
      simp only [List.foldlM_cons, List.foldlM_nil, bind_pure]
      cases policy with
      | lastWriteWins => exact step
      | strict =>
          -- What is refused is refused in front already, or it is the last registration.
          rcases log : collisionLog front with _ | ⟨first, rest⟩
          · rw [log] at step
            have sameLog : collisionLog (front ++ [last]) =
                (collisionWith? (lastField? front last.1) last).toList := by
              rw [collisionLog_concat, log, List.nil_append]
            rw [← sameLog] at step
            exact step
          · rw [collisionLog_concat, log]
            rfl

theorem build_eq (i : Interface) (policy : CollisionPolicy) :
    build i policy =
      outcome ((policy.refused? (collisionLog i.registrations)).map (CollisionError.mk i.name))
        ⟨.ofList i.registrations, collisionLog i.registrations⟩ := by
  rw [build, foldlM_register]
  cases policy.refused? (collisionLog i.registrations) <;> rfl

/-- Building writes down the registrations of the interface, and the last one of a form counts. The
log holds every registration that takes a form from another field, in order, so it names each field
that has lost a form. The strict policy ends in the first entry of that log, and without one it
gives the same index. -/
theorem build_writes_registrations (i : Interface) :
    ∃ index, build i .lastWriteWins = .ok index ∧
      (∀ surface, index.get? surface = lastField? i.registrations surface) ∧
      index.surfaces = (i.registrations.map Prod.fst).eraseDups ∧
      index.collisions = collisionLog i.registrations ∧
      (∀ surface lost taken,
        [(surface, lost), (surface, taken)].Sublist i.registrations → lost ≠ taken →
          ∃ collision ∈ index.collisions,
            collision.surface = surface ∧ collision.previous = lost) ∧
      build i .strict =
        match index.collisions with
        | [] => .ok index
        | first :: _ => .error ⟨i.name, first⟩ := by
  refine ⟨⟨.ofList i.registrations, collisionLog i.registrations⟩, build_eq i .lastWriteWins,
    OrderedMap.get?_ofList i.registrations, OrderedMap.keys_ofList i.registrations, rfl,
    fun _ _ _ both different => exists_mem_collisionLog both different, ?_⟩
  rw [build_eq i .strict, CollisionPolicy.refused?]
  cases collisionLog i.registrations <;> rfl

/-- An interface of which the spelling `itemGap` belongs to three fields in turn. -/
def itemGaps : Interface :=
  (((Interface.empty "Card").withStyleField "--item-gap" "string").withStyleField
    "--itemGap" "string").withDataField "itemGap" "string"

theorem build_writes_registrations_itemGaps :
    [("itemGap", (⟨.style, "--itemGap"⟩ : Binding)), ("itemGap", ⟨.data, "itemGap"⟩)].Sublist
        itemGaps.registrations ∧
      ∃ index, build itemGaps .lastWriteWins = .ok index ∧
        index.get? "itemGap" = some ⟨.data, "itemGap"⟩ ∧
        index.surfaces = ["--item-gap", "item-gap", "itemGap", "--itemGap"] ∧
        index.collisions =
          [⟨"itemGap", ⟨.style, "--item-gap"⟩, ⟨.style, "--itemGap"⟩⟩,
            ⟨"itemGap", ⟨.style, "--itemGap"⟩, ⟨.data, "itemGap"⟩⟩,
            ⟨"item-gap", ⟨.style, "--item-gap"⟩, ⟨.data, "itemGap"⟩⟩] ∧
        (∃ collision ∈ index.collisions,
          collision.surface = "itemGap" ∧ collision.previous = ⟨.style, "--itemGap"⟩) ∧
        build itemGaps .strict =
          .error ⟨"Card", "itemGap", ⟨.style, "--item-gap"⟩, ⟨.style, "--itemGap"⟩⟩ := by
  have both : [("itemGap", (⟨.style, "--itemGap"⟩ : Binding)),
      ("itemGap", ⟨.data, "itemGap"⟩)].Sublist itemGaps.registrations := by
    decide +kernel
  obtain ⟨index, built, holds, surfaces, log, named, strict⟩ :=
    build_writes_registrations itemGaps
  have logged : index.collisions =
      [⟨"itemGap", ⟨.style, "--item-gap"⟩, ⟨.style, "--itemGap"⟩⟩,
        ⟨"itemGap", ⟨.style, "--itemGap"⟩, ⟨.data, "itemGap"⟩⟩,
        ⟨"item-gap", ⟨.style, "--item-gap"⟩, ⟨.data, "itemGap"⟩⟩] := by
    rw [log]
    decide +kernel
  refine ⟨both, index, built, ?_, ?_, logged, named _ _ _ both (by decide), ?_⟩
  · rw [holds]
    decide +kernel
  · rw [surfaces]
    decide +kernel
  · rw [strict, logged]
    rfl

end PlaceholderIndex

end ComponentGen
