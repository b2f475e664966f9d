import Script.Value.Equality

/-!
# Structural equality

Equality of values is the greatest structural relation of a store: `Structural` says of a relation
that whatever it relates has the same kind and contents, contents being related in turn. Cycles and
sharing are no obstacle.

* `answered`: there is an answer, whatever the depth, if it exceeds the number of pairs of arrays
  and of objects. Pairs on the path of a comparison are all different.
* `not_false_of_structural`: no structural relation contains a pair that is found unequal.
* `alikeUpTo_of_true`: pairs found equal are alike up to every depth. A comparison takes the pairs
  on its path to be equal; this is harmless since, one level up, they are alike by induction.
-/

namespace Script.Store

/-! ## Structural relations -/

/-- A value that equals itself: any but a NaN number. -/
def Reflexive (value : Value) : Prop := ∀ x, value = .number x → x.isNaN = false

/-- Two values have the same kind and contents, where contents are compared by a relation. -/
inductive Matches (store : Store) (R : Value → Value → Prop) : Value → Value → Prop
  | identical {value} : Reflexive value → Matches store R value value
  | number {x y} : x.same y = true → Matches store R (.number x) (.number y)
  | string {x y} : x = y → Matches store R (.string x) (.string y)
  | boolean {x y} : x = y → Matches store R (.boolean x) (.boolean y)
  | null : Matches store R .null .null
  /-- Arrays of one length with related elements. -/
  | array {i j} : (store.elements i).size = (store.elements j).size →
      (∀ (index : Nat) (x y : Value), (store.elements i)[index]? = some x →
        (store.elements j)[index]? = some y → R x y) →
      Matches store R (.array i) (.array j)
  /-- Objects with the same keys, in any order, and related values. -/
  | object {i j} : (∀ key, key ∈ (store.properties i).keys ↔ key ∈ (store.properties j).keys) →
      (∀ (key : String) (x y : Value), (store.properties i).get? key = some x →
        (store.properties j).get? key = some y → R x y) →
      Matches store R (.object i) (.object j)

/-- A relation that relates matching values only. -/
def Structural (store : Store) (R : Value → Value → Prop) : Prop :=
  ∀ {left right}, R left right → store.Matches R left right

variable {store : Store}

theorem Matches.mono {R S : Value → Value → Prop} {left right : Value}
    (matching : store.Matches R left right) (weaker : ∀ {x y}, R x y → S x y) :
    store.Matches S left right := by
  cases matching with
  | identical reflexive => exact .identical reflexive
  | number same => exact .number same
  | string same => exact .string same
  | boolean same => exact .boolean same
  | null => exact .null
  | array length related =>
    exact .array length fun index x y first second => weaker (related index x y first second)
  | object keys related =>
    exact .object keys fun key x y first second => weaker (related key x y first second)

/-! ## Contents -/

/-- NaN is the one number that is not the same as itself, and it is the same as no other. -/
theorem same_self {x : Number} (number : x.isNaN = false) : x.same x = true := by
  simp [Number.same, number]

theorem same_symm {x y : Number} (equal : x.same y = true) : y.same x = true := by
  simp only [Number.same, Bool.and_eq_true, decide_eq_true_eq] at equal ⊢
  exact ⟨⟨equal.1.2, equal.1.1⟩, equal.2.symm⟩

theorem same_trans {x y z : Number} (first : x.same y = true) (second : y.same z = true) :
    x.same z = true := by
  simp only [Number.same, Bool.and_eq_true, decide_eq_true_eq] at first second ⊢
  exact ⟨⟨first.1.1, second.1.2⟩, first.2.trans second.2⟩

theorem isNaN_of_same {x y : Number} (equal : x.same y = true) : x.isNaN = false := by
  simp only [Number.same, Bool.and_eq_true, Bool.not_eq_true'] at equal
  exact equal.1.1

/-- Keys do not occur twice, so as many keys of which one side has all are the same keys. -/
theorem sameKeys_iff {xs ys : Table Value} :
    sameKeys xs ys = true ↔ ∀ key, key ∈ xs.keys ↔ key ∈ ys.keys := by
  have size_keys : ∀ table : Table Value, table.size = table.keys.length :=
    fun table => (List.length_map _).symm
  simp only [sameKeys, Bool.and_eq_true, decide_eq_true_eq, List.all_eq_true, Table.contains_iff,
    size_keys]
  constructor
  · rintro ⟨size, inside⟩ key
    refine ⟨inside key, ?_⟩
    intro member
    apply Classical.byContradiction
    intro missing
    -- With a key that is missing on the left, the right side would have one more than it has.
    have longer : (key :: xs.keys).length ≤ ys.keys.length := by
      apply List.Nodup.length_le_of_subset (List.nodup_cons.mpr ⟨missing, xs.distinct⟩)
      intro other among
      rcases List.mem_cons.mp among with rfl | old
      · exact member
      · exact inside other old
    rw [List.length_cons] at longer
    omega
  · intro same
    refine ⟨Nat.le_antisymm ?_ ?_, fun key => (same key).mp⟩
    · exact List.Nodup.length_le_of_subset xs.distinct fun key => (same key).mp
    · exact List.Nodup.length_le_of_subset ys.distinct fun key => (same key).mpr

/-! ## Conjunctions with no answer -/

theorem allM_eq_some_true {α : Type} {test : α → Option Bool} {xs : List α}
    (all : xs.allM test = some true) : ∀ x ∈ xs, test x = some true := by
  induction xs with
  | nil => simp
  | cons first others ih =>
    rw [List.allM] at all
    cases found : test first with
    | none => simp [found] at all
    | some answer =>
      cases answer with
      | false => simp [found] at all
      | true =>
        have rest : others.allM test = some true := by simpa [found] using all
        intro x member
        rcases List.mem_cons.mp member with rfl | old
        · exact found
        · exact ih rest x old

theorem allM_ne_some_false {α : Type} {test : α → Option Bool} {xs : List α}
    (none : ∀ x ∈ xs, test x ≠ some false) : xs.allM test ≠ some false := by
  induction xs with
  | nil => simp
  | cons first others ih =>
    rw [List.allM]
    cases found : test first with
    | none => simp
    | some answer =>
      cases answer with
      | false => exact absurd found (none first List.mem_cons_self)
      | true => simpa using ih fun x member => none x (List.mem_cons_of_mem _ member)

theorem allM_isSome {α : Type} {test : α → Option Bool} {xs : List α}
    (answered : ∀ x ∈ xs, (test x).isSome) : (xs.allM test).isSome := by
  induction xs with
  | nil => rfl
  | cons first others ih =>
    rw [List.allM]
    obtain ⟨answer, found⟩ := Option.isSome_iff_exists.mp (answered first List.mem_cons_self)
    cases answer with
    | false => simp [found]
    | true => simpa [found] using ih fun x member => answered x (List.mem_cons_of_mem _ member)

/-! ## One step -/

/-- Arrays are compared element by element, with the pair of both on the path. -/
theorem equalWithin_array {depth : Nat} {path : List (Value × Value)} {i j : ArrayId} :
    store.equalWithin (depth + 1) path (.array i) (.array j) =
      if i = j ∨ (.array i, .array j) ∈ path then some true
      else if (store.elements i).size = (store.elements j).size then
        ((store.elements i).toList.zip (store.elements j).toList).allM fun (x, y) =>
          store.equalWithin depth ((.array i, .array j) :: path) x y
      else some false := by
  simp [equalWithin]

/-- Objects are compared key by key, in the order of the first one. -/
theorem equalWithin_object {depth : Nat} {path : List (Value × Value)} {i j : ObjectId} :
    store.equalWithin (depth + 1) path (.object i) (.object j) =
      if i = j ∨ (.object i, .object j) ∈ path then some true
      else if sameKeys (store.properties i) (store.properties j) then
        (store.properties i).entries.allM fun (key, x) =>
          store.equalWithin depth ((.object i, .object j) :: path) x
            (((store.properties j).get? key).getD .null)
      else some false := by
  simp [equalWithin]

/-- Why two arrays are found equal: they are one array, a pair that is being compared, or have
equal elements. -/
theorem cases_of_equal_array {depth : Nat} {path : List (Value × Value)} {i j : ArrayId}
    (found : store.equalWithin (depth + 1) path (.array i) (.array j) = some true) :
    i = j ∨ (.array i, .array j) ∈ path ∨
      ((store.elements i).size = (store.elements j).size ∧
        ∀ (index : Nat) (x y : Value), (store.elements i)[index]? = some x →
          (store.elements j)[index]? = some y →
          store.equalWithin depth ((.array i, .array j) :: path) x y = some true) := by
  rw [equalWithin_array] at found
  split at found
  · rename_i shortcut
    rcases shortcut with same | known
    · exact .inl same
    · exact .inr (.inl known)
  · split at found
    · rename_i length
      refine .inr (.inr ⟨length, ?_⟩)
      intro index x y first second
      have member : (x, y) ∈ (store.elements i).toList.zip (store.elements j).toList := by
        apply List.mem_iff_getElem?.mpr
        exact ⟨index, List.getElem?_zip_eq_some.mpr
          ⟨by simpa using first, by simpa using second⟩⟩
      exact allM_eq_some_true found _ member
    · cases found

/-- Why two objects are found equal. -/
theorem cases_of_equal_object {depth : Nat} {path : List (Value × Value)} {i j : ObjectId}
    (found : store.equalWithin (depth + 1) path (.object i) (.object j) = some true) :
    i = j ∨ (.object i, .object j) ∈ path ∨
      (sameKeys (store.properties i) (store.properties j) = true ∧
        ∀ (key : String) (x y : Value), (store.properties i).get? key = some x →
          (store.properties j).get? key = some y →
          store.equalWithin depth ((.object i, .object j) :: path) x y = some true) := by
  rw [equalWithin_object] at found
  split at found
  · rename_i shortcut
    rcases shortcut with same | known
    · exact .inl same
    · exact .inr (.inl known)
  · split at found
    · rename_i keys
      refine .inr (.inr ⟨keys, ?_⟩)
      intro key x y first second
      have equal := allM_eq_some_true found (key, x) (Table.mem_entries_iff.mpr first)
      dsimp only at equal
      rw [second] at equal
      exact equal
    · cases found

/-! ## Termination -/

/-- The pairs of arrays and of objects in a store. -/
def pairs (store : Store) : List (Value × Value) :=
  ((List.range store.arrays.size).flatMap fun i =>
    (List.range store.arrays.size).map fun j => (.array i, .array j)) ++
  ((List.range store.objects.size).flatMap fun i =>
    (List.range store.objects.size).map fun j => (.object i, .object j))

theorem length_pairs (store : Store) : store.pairs.length = store.pairCount := by
  simp [pairs, pairCount, List.length_flatMap, List.map_const']

/-- An array with an element is in the store. -/
theorem lt_of_mem_elements {i : ArrayId} {x : Value} (member : x ∈ (store.elements i).toList) :
    i < store.arrays.size := by
  apply Nat.lt_of_not_le
  intro outside
  simp [elements, Array.getElem?_eq_none outside] at member

/-- An object with a property is in the store. -/
theorem lt_of_mem_properties {i : ObjectId} {entry : String × Value}
    (member : entry ∈ (store.properties i).entries) : i < store.objects.size := by
  apply Nat.lt_of_not_le
  intro outside
  simp [properties, Array.getElem?_eq_none outside, Table.empty] at member

/-- Whatever is compared below a pair of arrays, the pair is one of the store. -/
theorem mem_pairs_array {i j : ArrayId} {x y : Value}
    (member : (x, y) ∈ (store.elements i).toList.zip (store.elements j).toList) :
    (Value.array i, Value.array j) ∈ store.pairs := by
  have first := lt_of_mem_elements (List.of_mem_zip member).1
  have second := lt_of_mem_elements (List.of_mem_zip member).2
  simp [pairs, first, second]

theorem mem_pairs_object {i j : ObjectId} {x y : Value} {key : String}
    (first : (key, x) ∈ (store.properties i).entries)
    (second : (key, y) ∈ (store.properties j).entries) :
    (Value.object i, Value.object j) ∈ store.pairs := by
  simp [pairs, lt_of_mem_properties first, lt_of_mem_properties second]

/-- A comparison has an answer if its depth is more than the pairs that are left. -/
theorem answered_of_path : ∀ {depth : Nat} {path : List (Value × Value)} {left right : Value},
    path.Nodup → path ⊆ store.pairs → store.pairCount < depth + path.length →
    (store.equalWithin depth path left right).isSome := by
  intro depth
  induction depth with
  | zero =>
    intro path left right distinct inside deep
    -- pairs that are all different are no more than there are
    have bound := List.Nodup.length_le_of_subset distinct inside
    rw [length_pairs] at bound
    omega
  | succ depth ih =>
    intro path left right distinct inside deep
    have step : ∀ {x y : Value}, (left, right) ∉ path → (left, right) ∈ store.pairs →
        (store.equalWithin depth ((left, right) :: path) x y).isSome := by
      intro x y new known
      apply ih (List.nodup_cons.mpr ⟨new, distinct⟩) (List.cons_subset.mpr ⟨known, inside⟩)
      rw [List.length_cons]
      omega
    cases left <;> cases right
    case array.array i j =>
      rw [equalWithin_array]
      split
      · rfl
      · rename_i other
        split
        · apply allM_isSome
          rintro ⟨x, y⟩ member
          exact step (not_or.mp other).2 (mem_pairs_array member)
        · rfl
    case object.object i j =>
      rw [equalWithin_object]
      split
      · rfl
      · rename_i other
        split
        · rename_i keys
          apply allM_isSome
          rintro ⟨key, x⟩ member
          have shared := (sameKeys_iff.mp keys key).mp (List.mem_map_of_mem member)
          obtain ⟨⟨_, y⟩, found, rfl⟩ := List.mem_map.mp shared
          exact step (not_or.mp other).2 (mem_pairs_object member found)
        · rfl
    -- all other values are compared at once
    all_goals rfl

/-- There is an answer at every depth above the number of pairs. -/
theorem answered {depth : Nat} (deep : store.pairCount < depth) (left right : Value) :
    (store.equalWithin depth [] left right).isSome :=
  answered_of_path List.nodup_nil (List.nil_subset _) deep

/-! ## Structural relations are within equality -/

theorem not_false_of_structural {R : Value → Value → Prop} (structural : store.Structural R) :
    ∀ {depth : Nat} {path : List (Value × Value)} {left right : Value}, R left right →
      store.equalWithin depth path left right ≠ some false := by
  intro depth
  -- by induction on the depth: where a comparison fails, some pair below does not match, and then
  -- the relation was not structural
  induction depth with
  | zero =>
    intro path left right _
    simp [equalWithin]
  | succ depth ih =>
    intro path left right related
    -- A pair on the path is answered with true, so the path plays no part here.
    cases structural related with
    | identical reflexive =>
      cases left with
      | number x => simp [equalWithin, same_self (reflexive x rfl)]
      | _ => simp [equalWithin]
    | number same => simp [equalWithin, same]
    | string same => simp [equalWithin, same]
    | boolean same => simp [equalWithin, same]
    | null => simp [equalWithin]
    | @array i j length elements =>
      rw [equalWithin_array, if_pos length]
      split
      · simp
      · apply allM_ne_some_false
        rintro ⟨x, y⟩ member
        obtain ⟨index, found⟩ := List.mem_iff_getElem?.mp member
        obtain ⟨first, second⟩ := List.getElem?_zip_eq_some.mp found
        exact ih (elements index x y (by simpa using first) (by simpa using second))
    | @object i j keys values =>
      rw [equalWithin_object, if_pos (sameKeys_iff.mpr keys)]
      split
      · simp
      · apply allM_ne_some_false
        rintro ⟨key, x⟩ member
        obtain ⟨⟨_, y⟩, found, rfl⟩ := List.mem_map.mp
          ((keys key).mp (List.mem_map_of_mem member))
        have second := Table.mem_entries_iff.mp found
        show store.equalWithin depth _ x _ ≠ some false
        rw [second]
        exact ih (values _ x y (Table.mem_entries_iff.mp member) second)

/-! ## Equality is structural -/

/-- Alike as far as can be seen in so many steps. -/
def AlikeUpTo (store : Store) : Nat → Value → Value → Prop
  | 0 => fun _ _ => True
  | n + 1 => store.Matches (store.AlikeUpTo n)

theorem AlikeUpTo.mono {n : Nat} : ∀ {left right : Value},
    store.AlikeUpTo (n + 1) left right → store.AlikeUpTo n left right := by
  induction n with
  | zero =>
    intro left right _
    trivial
  | succ n ih =>
    intro left right alike
    exact Matches.mono alike ih

/-- Found equal, given pairs that are alike up to a depth, means alike up to that depth. -/
theorem alikeUpTo_of_true : ∀ {n depth : Nat} {path : List (Value × Value)} {left right : Value},
    store.equalWithin depth path left right = some true →
    (∀ pair ∈ path, store.AlikeUpTo n pair.1 pair.2) → store.AlikeUpTo n left right := by
  intro n
  induction n with
  | zero =>
    intro depth path left right _ _
    trivial
  | succ n ih =>
    intro depth path left right found assumed
    have assumedBelow : ∀ pair ∈ path, store.AlikeUpTo n pair.1 pair.2 :=
      fun pair member => (assumed pair member).mono
    -- The pair itself joins the path, so it must be alike one level down already.
    have here : store.AlikeUpTo n left right := ih found assumedBelow
    have step : ∀ {depth x y},
        store.equalWithin depth ((left, right) :: path) x y = some true →
        store.AlikeUpTo n x y := by
      intro depth x y equal
      refine ih equal ?_
      intro pair member
      rcases List.mem_cons.mp member with rfl | old
      · exact here
      · exact assumedBelow pair old
    cases depth with
    | zero => cases found
    | succ depth =>
      show store.Matches (store.AlikeUpTo n) left right
      cases left <;> cases right
      case array.array i j =>
        rcases cases_of_equal_array found with rfl | known | ⟨length, elements⟩
        · exact .identical (by intro x same; cases same)
        · exact assumed _ known
        · refine .array length ?_
          intro index x y first second
          exact step (elements index x y first second)
      case object.object i j =>
        rcases cases_of_equal_object found with rfl | known | ⟨keys, values⟩
        · exact .identical (by intro x same; cases same)
        · exact assumed _ known
        · refine .object (sameKeys_iff.mp keys) ?_
          intro key x y first second
          exact step (values key x y first second)
      case number.number => exact .number (Option.some.inj found)
      case string.string => exact .string (of_decide_eq_true (Option.some.inj found))
      case boolean.boolean => exact .boolean (of_decide_eq_true (Option.some.inj found))
      case null.null => exact .null
      case function.function =>
        cases of_decide_eq_true (Option.some.inj found)
        exact .identical (by intro x same; cases same)
      -- values of two kinds are never found equal
      all_goals cases found

/-- What is alike up to every depth is structural. -/
theorem structural_alikeUpTo :
    store.Structural fun left right => ∀ n, store.AlikeUpTo n left right := by
  intro left right alike
  have first : store.Matches (store.AlikeUpTo 0) left right := alike 1
  cases first with
  | identical reflexive => exact .identical reflexive
  | number same => exact .number same
  | string same => exact .string same
  | boolean same => exact .boolean same
  | null => exact .null
  | @array i j length _ =>
    -- One array matches itself at some depths by identity, which says nothing of its elements.
    by_cases same : i = j
    · subst same
      exact .identical (by intro x same; cases same)
    · refine .array length ?_
      intro index x y atLeft atRight n
      cases alike (n + 1) with
      | identical _ => exact absurd rfl same
      | array _ related => exact related index x y atLeft atRight
  | @object i j keys _ =>
    by_cases same : i = j
    · subst same
      exact .identical (by intro x same; cases same)
    · refine .object keys ?_
      intro key x y atLeft atRight n
      cases alike (n + 1) with
      | identical _ => exact absurd rfl same
      | object _ related => exact related key x y atLeft atRight

/-! ## Equality is the greatest structural relation -/

/-- An answer says whether two values are alike up to every depth. -/
theorem answer_iff {depth : Nat} {left right : Value} {answer : Bool}
    (given : store.equalWithin depth [] left right = some answer) :
    answer = true ↔ ∀ n, store.AlikeUpTo n left right := by
  constructor
  · rintro rfl n
    exact alikeUpTo_of_true given (by intro pair member; cases member)
  · intro alike
    cases answer with
    | true => rfl
    | false => exact absurd given (not_false_of_structural structural_alikeUpTo alike)

/-- Above the number of pairs, the depth of a comparison does not matter. -/
theorem equalWithin_eq {depth : Nat} (deep : store.pairCount < depth) (left right : Value) :
    store.equalWithin depth [] left right = some (store.equal left right) := by
  obtain ⟨answer, given⟩ := Option.isSome_iff_exists.mp (store.answered deep left right)
  obtain ⟨least, leastGiven⟩ := Option.isSome_iff_exists.mp
    (store.answered (Nat.lt_succ_self store.pairCount) left right)
  -- both answers say the same of the two values
  have same : answer = least :=
    Bool.eq_iff_iff.mpr ((answer_iff given).trans (answer_iff leastGiven).symm)
  rw [given, same, equal, leastGiven]
  rfl

theorem equal_iff {left right : Value} :
    store.equal left right = true ↔ ∀ n, store.AlikeUpTo n left right :=
  answer_iff (store.equalWithin_eq (Nat.lt_succ_self _) left right)

theorem structural_equal : store.Structural fun left right => store.equal left right = true := by
  intro left right equal
  exact (structural_alikeUpTo (equal_iff.mp equal)).mono equal_iff.mpr

theorem equal_of_structural {R : Value → Value → Prop} (structural : store.Structural R)
    {left right : Value} (related : R left right) : store.equal left right = true := by
  have given := store.equalWithin_eq (Nat.lt_succ_self _) left right
  cases answer : store.equal left right with
  | true => rfl
  | false =>
    rw [answer] at given
    exact absurd given (not_false_of_structural structural related)

/-! ## Equality is an equivalence, NaN apart -/

/-- Only NaN equals nothing. -/
theorem reflexive_of_equal {left right : Value} (equal : store.equal left right = true) :
    Reflexive left := by
  rintro x rfl
  cases structural_equal equal with
  | identical reflexive => exact reflexive x rfl
  | number same => exact isNaN_of_same same

/-- The identity of values that are not NaN is structural. -/
theorem equal_self_iff {value : Value} : store.equal value value = true ↔ Reflexive value := by
  constructor
  · exact reflexive_of_equal
  · intro reflexive
    refine equal_of_structural (R := fun left right => left = right ∧ Reflexive left) ?_
      ⟨rfl, reflexive⟩
    rintro left _ ⟨rfl, reflexive⟩
    exact .identical reflexive

/-- The converse of equality is structural. -/
theorem equal_symm {left right : Value} (equal : store.equal left right = true) :
    store.equal right left = true := by
  refine equal_of_structural (R := fun first second => store.equal second first = true) ?_ equal
  intro first second related
  cases structural_equal related with
  | identical reflexive => exact .identical reflexive
  | number same => exact .number (same_symm same)
  | string same => exact .string same.symm
  | boolean same => exact .boolean same.symm
  | null => exact .null
  | array length elements =>
    exact .array length.symm fun index x y atFirst atSecond => elements index y x atSecond atFirst
  | object keys values =>
    exact .object (fun key => (keys key).symm) fun key x y atFirst atSecond =>
      values key y x atSecond atFirst

/-- Equality with a value between is structural. -/
theorem equal_trans {left middle right : Value} (first : store.equal left middle = true)
    (second : store.equal middle right = true) : store.equal left right = true := by
  refine equal_of_structural (R := fun x z => ∃ y, store.equal x y = true ∧
    store.equal y z = true) ?_ ⟨middle, first, second⟩
  rintro x z ⟨y, one, other⟩
  -- What is equal without a value between is equal with its left side there.
  have direct : ∀ {a b}, store.equal a b = true →
      ∃ c, store.equal a c = true ∧ store.equal c b = true := by
    intro a b equal
    exact ⟨a, equal_self_iff.mpr (reflexive_of_equal equal), equal⟩
  cases structural_equal one with
  | identical _ => exact (structural_equal other).mono direct
  | number same =>
    cases structural_equal other with
    | identical _ => exact .number same
    | number sameToo => exact .number (same_trans same sameToo)
  | string same =>
    cases same
    exact (structural_equal other).mono direct
  | boolean same =>
    cases same
    exact (structural_equal other).mono direct
  | null => exact (structural_equal other).mono direct
  | @array i j length elements =>
    cases structural_equal other with
    | identical _ => exact (structural_equal one).mono direct
    | @array _ k lengthToo elementsToo =>
      refine .array (length.trans lengthToo) ?_
      intro index a c atFirst atLast
      -- the array between is as long as the last one, so it has an element there
      have inside : index < (store.elements j).size := by
        rw [lengthToo]
        exact (Array.getElem?_eq_some_iff.mp atLast).1
      have atMiddle := Array.getElem?_eq_getElem inside
      exact ⟨_, elements index a _ atFirst atMiddle, elementsToo index _ c atMiddle atLast⟩
  | @object i j keys values =>
    cases structural_equal other with
    | identical _ => exact (structural_equal one).mono direct
    | @object _ k keysToo valuesToo =>
      refine .object (fun key => (keys key).trans (keysToo key)) ?_
      intro key a c atFirst atLast
      have shared : (store.properties j).contains key = true := by
        rw [Table.contains_iff, ← keys key, ← Table.contains_iff, Table.contains, atFirst]
        rfl
      obtain ⟨b, atMiddle⟩ := Option.isSome_iff_exists.mp shared
      exact ⟨b, values key a b atFirst atMiddle, valuesToo key b c atMiddle atLast⟩

/-- Equality of values always has an answer, at whatever depth it is looked for above the number of
pairs, and it is the greatest structural relation; it is symmetric and transitive, and reflexive
on all values but NaN. -/
theorem equal_is_greatest_structural (store : Store) :
    (∀ depth, store.pairCount < depth → ∀ left right,
      store.equalWithin depth [] left right = some (store.equal left right)) ∧
    store.Structural (fun left right => store.equal left right = true) ∧
    (∀ R, store.Structural R → ∀ left right, R left right → store.equal left right = true) ∧
    (∀ left right, store.equal left right = store.equal right left) ∧
    (∀ left middle right, store.equal left middle = true → store.equal middle right = true →
      store.equal left right = true) ∧
    (∀ value, store.equal value value = true ↔ ∀ x, value = .number x → x.isNaN = false) := by
  refine ⟨?_, structural_equal, ?_, ?_, ?_, ?_⟩
  · intro depth deep left right
    exact equalWithin_eq deep left right
  · intro R structural left right related
    exact equal_of_structural structural related
  · intro left right
    exact Bool.eq_iff_iff.mpr ⟨equal_symm, equal_symm⟩
  · intro left middle right first second
    exact equal_trans first second
  · intro value
    exact equal_self_iff

/-- Two arrays, each with the other as its only element. -/
def crossed : Store := { arrays := #[#[.array 1], #[.array 0]] }

/-- The relation of the two with each other is structural, so they are equal. -/
theorem crossed_equal : crossed.pairCount < 5 ∧
    crossed.equalWithin 5 [] (.array 0) (.array 1) = some true := by
  obtain ⟨answers, _, greatest, _⟩ := equal_is_greatest_structural crossed
  have structural : crossed.Structural fun left right =>
      (left = .array 0 ∧ right = .array 1) ∨ (left = .array 1 ∧ right = .array 0) := by
    rintro left right (⟨rfl, rfl⟩ | ⟨rfl, rfl⟩)
    · refine .array rfl ?_
      rintro (_ | index) x y first second
      · cases first
        cases second
        exact .inr ⟨rfl, rfl⟩
      · cases first
    · refine .array rfl ?_
      rintro (_ | index) x y first second
      · cases first
        cases second
        exact .inl ⟨rfl, rfl⟩
      · cases first
  refine ⟨by decide, ?_⟩
  rw [answers 5 (by decide), greatest _ structural _ _ (.inl ⟨rfl, rfl⟩)]

end Script.Store
