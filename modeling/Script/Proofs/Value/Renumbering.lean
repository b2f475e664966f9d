import Script.Proofs.Value.Display
import Script.Proofs.Value.Reach
import Script.Value.Operation

/-!
# Numbers of arrays, objects and functions do not matter

A value refers to arrays, objects and functions by their numbers. A `Renumbering` gives them other
numbers, different ones to different things. If one store has under the new numbers what another one
has under the old, then no operator tells them apart: texts, comparisons and results are the same,
but for the numbers. The second store may have more in it.

* `Renumbers.display`, `Renumbers.equal`, `Renumbers.binary`: what is read of a store.
-/

namespace Script

/-- Other numbers for arrays, objects and functions. -/
structure Renumbering where
  array : ArrayId → ArrayId
  object : ObjectId → ObjectId
  function : FunctionId → FunctionId
  array_injective : ∀ {i j}, array i = array j → i = j
  object_injective : ∀ {i j}, object i = object j → i = j
  function_injective : ∀ {i j}, function i = function j → i = j

variable {r : Renumbering}

/-- A value with the other numbers. -/
def Renumbering.value (r : Renumbering) : Value → Value
  | .array id => .array (r.array id)
  | .object id => .object (r.object id)
  | .function id => .function (r.function id)
  | plain => plain

namespace Renumbering

theorem value_eq_null_iff {value : Value} : r.value value = .null ↔ value = .null := by
  cases value <;> simp [Renumbering.value]

/-- A value that refers to nothing stays as it is. -/
theorem value_of_plain {value : Value} (plain : value.node? = none) : r.value value = value := by
  cases value <;> first | rfl | cases plain

theorem value_injective {left right : Value} (same : r.value left = r.value right) :
    left = right := by
  cases left <;> cases right <;>
    simp only [Renumbering.value, reduceCtorEq, Value.array.injEq, Value.object.injEq,
      Value.function.injEq] at same ⊢
  case array.array => exact r.array_injective same
  case object.object => exact r.object_injective same
  case function.function => exact r.function_injective same
  all_goals exact same

/-- Whether a value equals itself has nothing to do with numbers. -/
theorem reflexive_value_iff {value : Value} :
    Store.Reflexive (r.value value) ↔ Store.Reflexive value := by
  unfold Store.Reflexive
  refine forall_congr' fun x => ?_
  cases value <;> simp [Renumbering.value]

theorem value_getD (value : Option Value) : (value.map r.value).getD .null =
    r.value (value.getD .null) := by
  cases value <;> rfl

end Renumbering

namespace Store

/-- A store has under other numbers what another one has. -/
structure Renumbers (r : Renumbering) (first second : Store) : Prop where
  elements : ∀ id, second.elements (r.array id) = (first.elements id).map r.value
  properties : ∀ id, second.properties (r.object id) = (first.properties id).map r.value
  texts : ∀ id, second.functionText (r.function id) = first.functionText id

namespace Renumbers

variable {first second : Store}

/-! ## Texts -/

theorem plainText (renumbers : first.Renumbers r second) (value : Value) :
    second.plainText (r.value value) = first.plainText value := by
  cases value with
  | function id => exact renumbers.texts id
  | boolean b => cases b <;> rfl
  | _ => rfl

/-- A path with other numbers leads to the same texts. -/
theorem textAt (renumbers : first.Renumbers r second) (path : List ArrayId) (value : Value) :
    second.textAt (path.map r.array) (r.value value) = first.textAt path value := by
  by_cases isArray : ∃ id, value = .array id
  · obtain ⟨id, rfl⟩ := isArray
    have onPath : r.array id ∈ path.map r.array ↔ id ∈ path := by
      rw [List.mem_map]
      constructor
      · rintro ⟨other, member, same⟩
        exact r.array_injective same ▸ member
      · intro member
        exact ⟨id, member, rfl⟩
    show second.textAt (path.map r.array) (.array (r.array id)) = _
    rw [textAt_array, textAt_array]
    by_cases here : id ∈ path
    · rw [if_pos here, if_pos (onPath.mpr here)]
    · rw [if_neg here, if_neg (mt onPath.mp here), renumbers.elements, Array.toList_map,
        List.map_map]
      congr 1
      refine List.map_congr_left fun element member => ?_
      -- elements are shown with the array on the path, so fewer arrays are left to be opened
      show (if r.value element = .null then "" else
        second.textAt ((id :: path).map r.array) (r.value element)) = _
      by_cases isNull : element = .null
      · rw [if_pos isNull, if_pos (Renumbering.value_eq_null_iff.mpr isNull)]
      · rw [if_neg isNull, if_neg (mt Renumbering.value_eq_null_iff.mp isNull),
          textAt renumbers (id :: path) element]
  · have plain : ∀ id, value ≠ .array id := fun id same => isArray ⟨id, same⟩
    have plainToo : ∀ id, r.value value ≠ .array id := by
      intro id same
      cases value <;> first | exact plain _ rfl | cases same
    rw [textAt_of_plain plain, textAt_of_plain plainToo, renumbers.plainText]
termination_by first.closedCount path
decreasing_by exact closedCount_cons_lt (lt_of_mem_elements member) here

theorem display (renumbers : first.Renumbers r second) (value : Value) :
    second.display (r.value value) = first.display value := by
  rw [display_eq, display_eq]
  exact renumbers.textAt [] value

/-! ## Comparisons -/

theorem getElem?_elements (renumbers : first.Renumbers r second) (id : ArrayId) (index : Nat) :
    (second.elements (r.array id))[index]? = (first.elements id)[index]?.map r.value := by
  rw [renumbers.elements, Array.getElem?_map]

theorem get?_properties (renumbers : first.Renumbers r second) (id : ObjectId) (key : String) :
    (second.properties (r.object id)).get? key = ((first.properties id).get? key).map r.value := by
  rw [renumbers.properties, Table.get?_map]

theorem keys_properties (renumbers : first.Renumbers r second) (id : ObjectId) :
    (second.properties (r.object id)).keys = (first.properties id).keys := by
  rw [renumbers.properties]
  exact List.map_map

theorem size_elements (renumbers : first.Renumbers r second) (id : ArrayId) :
    (second.elements (r.array id)).size = (first.elements id).size := by
  rw [renumbers.elements, Array.size_map]

/-- Values that match do so under other numbers. -/
theorem matches_renumbered (renumbers : first.Renumbers r second) {R S : Value → Value → Prop}
    (related : ∀ {x y}, R x y → S (r.value x) (r.value y)) {left right : Value}
    (matching : first.Matches R left right) :
    second.Matches S (r.value left) (r.value right) := by
  cases matching with
  | identical reflexive => exact .identical (Renumbering.reflexive_value_iff.mpr reflexive)
  | number same => exact .number same
  | string same => exact .string same
  | boolean same => exact .boolean same
  | null => exact .null
  | @array i j length elements =>
    refine .array ?_ ?_
    · rw [renumbers.size_elements, renumbers.size_elements, length]
    · intro index x y atLeft atRight
      rw [renumbers.getElem?_elements] at atLeft atRight
      obtain ⟨x, foundLeft, rfl⟩ := Option.map_eq_some_iff.mp atLeft
      obtain ⟨y, foundRight, rfl⟩ := Option.map_eq_some_iff.mp atRight
      exact related (elements index x y foundLeft foundRight)
  | @object i j keys values =>
    refine .object ?_ ?_
    · intro key
      rw [renumbers.keys_properties, renumbers.keys_properties]
      exact keys key
    · intro key x y atLeft atRight
      rw [renumbers.get?_properties] at atLeft atRight
      obtain ⟨x, foundLeft, rfl⟩ := Option.map_eq_some_iff.mp atLeft
      obtain ⟨y, foundRight, rfl⟩ := Option.map_eq_some_iff.mp atRight
      exact related (values key x y foundLeft foundRight)

/-- Values that match under other numbers match, since different things have different numbers. -/
theorem matches_of_renumbered (renumbers : first.Renumbers r second) {R S : Value → Value → Prop}
    (related : ∀ {x y}, S (r.value x) (r.value y) → R x y) {left right : Value}
    (matching : second.Matches S (r.value left) (r.value right)) :
    first.Matches R left right := by
  generalize atLeft : r.value left = x at matching
  generalize atRight : r.value right = y at matching
  cases matching with
  -- one value under the new numbers was one value before: this is where numbers must differ
  | identical reflexive =>
    cases Renumbering.value_injective (atLeft.trans atRight.symm)
    rw [← atLeft] at reflexive
    exact .identical (Renumbering.reflexive_value_iff.mp reflexive)
  | number same =>
    cases left <;> cases atLeft
    cases right <;> cases atRight
    exact .number same
  | string same =>
    cases left <;> cases atLeft
    cases right <;> cases atRight
    exact .string same
  | boolean same =>
    cases left <;> cases atLeft
    cases right <;> cases atRight
    exact .boolean same
  | null =>
    cases left <;> cases atLeft
    cases right <;> cases atRight
    exact .null
  | array length elements =>
    cases left <;> cases atLeft
    cases right <;> cases atRight
    rw [renumbers.size_elements, renumbers.size_elements] at length
    refine .array length ?_
    intro index x y foundLeft foundRight
    refine related (elements index _ _ ?_ ?_)
    · rw [renumbers.getElem?_elements, foundLeft, Option.map_some]
    · rw [renumbers.getElem?_elements, foundRight, Option.map_some]
  | object keys values =>
    cases left <;> cases atLeft
    cases right <;> cases atRight
    refine .object ?_ ?_
    · intro key
      have same := keys key
      rwa [renumbers.keys_properties, renumbers.keys_properties] at same
    · intro key x y foundLeft foundRight
      refine related (values key _ _ ?_ ?_)
      · rw [renumbers.get?_properties, foundLeft, Option.map_some]
      · rw [renumbers.get?_properties, foundRight, Option.map_some]

/-- Equality is the greatest structural relation in both stores, and either one is structural in the
other store. -/
theorem equal (renumbers : first.Renumbers r second) (left right : Value) :
    second.equal (r.value left) (r.value right) = first.equal left right := by
  refine Bool.eq_iff_iff.mpr ⟨?_, ?_⟩
  · intro equal
    refine equal_of_structural
      (R := fun x y => second.equal (r.value x) (r.value y) = true) ?_ equal
    intro x y related
    exact renumbers.matches_of_renumbered id (structural_equal related)
  · intro equal
    -- not every value of the second store has a number that is a new one, hence the `∃`
    refine equal_of_structural
      (R := fun x y => ∃ a b, x = r.value a ∧ y = r.value b ∧ first.equal a b = true) ?_
      ⟨left, right, rfl, rfl, equal⟩
    rintro _ _ ⟨a, b, rfl, rfl, related⟩
    exact renumbers.matches_renumbered (fun same => ⟨_, _, rfl, rfl, same⟩)
      (structural_equal related)

/-! ## Operators -/

/-- What an operator gives refers to nothing, so it is the same. -/
theorem binary (renumbers : first.Renumbers r second) (operator : BinaryOp) (left right : Value) :
    second.binary operator (r.value left) (r.value right) = first.binary operator left right := by
  have numeric : ∀ (operator : BinaryOp) (compute : Number → Number → Number),
      arithmetic operator compute (r.value left) (r.value right) =
        arithmetic operator compute left right := by
    intro operator compute
    cases left <;> cases right <;> rfl
  have ordering : ∀ (operator : BinaryOp) (compare : Number → Number → Bool),
      comparison operator compare (r.value left) (r.value right) =
        comparison operator compare left right := by
    intro operator compare
    cases left <;> cases right <;> rfl
  have joining : ∀ combine : Bool → Bool → Bool,
      logical combine (r.value left) (r.value right) = logical combine left right := by
    intro combine
    cases left <;> cases right <;> rfl
  have adding : second.sum (r.value left) (r.value right) = first.sum left right := by
    have texts : second.display (r.value left) ++ second.display (r.value right) =
        first.display left ++ first.display right := by
      rw [renumbers.display, renumbers.display]
    have joined := congrArg (fun text => (Except.ok (Value.string text) : Except Fault Value)) texts
    cases left <;> cases right <;> first | exact numeric .add .add | exact joined
  unfold Store.binary
  cases operator <;> simp only [numeric, ordering, joining, adding, renumbers.equal]

theorem unary (operator : UnaryOp) (operand : Value) :
    Store.unary operator (r.value operand) = Store.unary operator operand := by
  cases operator <;> cases operand <;> rfl

end Renumbers

end Store

end Script
