import Script.Proofs.Eval.Members
import Script.Proofs.Value.Display

/-!
# Equal values are shown alike

Equality walks through two values at once and takes pairs on its path for equal; showing walks
through one value and shows nothing for an array on its path. Where no array contains itself,
showing is plain recursion, and the derivation of a text (`Store.Renders`) carries over to every
equal value, element by element. Objects may contain themselves: they are shown without a look
inside.

* `Renders.of_equal`: a value that is equal to a shown one has its text.
* `equal_values_shown_alike`: so equal values cannot be told apart where only texts count: in sums
  with texts, in print, and as keys.
-/

namespace Script

/-! ## Numbers -/

/-- A place has one rank, and one sign unless it is that of the zeros. -/
theorem Number.place_inj {x y : Number} (same : x.place = y.place) :
    x.rank = y.rank ∧ (x.negative = y.negative ∨ x.rank = 0) := by
  unfold Number.place at same
  cases signX : x.negative <;> cases signY : y.negative <;>
    simp only [signX, signY, if_true, Bool.false_eq_true, if_false] at same
  · exact ⟨by omega, .inl rfl⟩
  · exact ⟨by omega, .inr (by omega)⟩
  · exact ⟨by omega, .inr (by omega)⟩
  · exact ⟨by omega, .inl rfl⟩

/-- The zeros have one text, and so has every other number. -/
theorem Number.display_of_same {x y : Number} (same : x.same y = true) :
    x.display = y.display := by
  simp only [Number.same, Bool.and_eq_true, Bool.not_eq_true', decide_eq_true_eq] at same
  obtain ⟨⟨first, second⟩, place⟩ := same
  obtain ⟨rank, sign⟩ := Number.place_inj place
  have signed : (x.negative && !x.isZero) = (y.negative && !y.isZero) := by
    unfold Number.isZero
    rcases sign with equal | zero
    · rw [equal, rank]
    · simp [← rank, zero]
  have infinite : x.isInfinite = y.isInfinite := by
    unfold Number.isInfinite
    rw [rank]
  have unsigned : Layout.display.signsZero = false := rfl
  unfold Number.display Layout.number
  simp only [first, second, unsigned, Bool.false_or, signed, infinite, rank]

namespace Store

variable {store : Store} {left right : Value}

/-! ## Texts of equal values -/

theorem kind_of_equal (equal : store.equal left right = true) : left.kind = right.kind := by
  cases structural_equal equal <;> rfl

theorem eq_null_iff_of_equal (equal : store.equal left right = true) :
    left = .null ↔ right = .null := by
  have kinds := kind_of_equal equal
  constructor
  · rintro rfl
    cases right <;> first | rfl | cases kinds
  · rintro rfl
    cases left <;> first | rfl | cases kinds

/-- Equal values that are no arrays have one text. -/
theorem plainText_of_equal (equal : store.equal left right = true) :
    store.plainText left = store.plainText right := by
  cases structural_equal equal with
  | identical _ => rfl
  | number same => exact Number.display_of_same same
  | string same => rw [same]
  | boolean same => rw [same]
  | null => rfl
  | array _ _ => rfl
  | object _ _ => rfl

/-- Texts that are alike for equal values are alike for equal elements, one after the other. -/
theorem map_elements_of_equal {xs ys : Array Value} (length : xs.size = ys.size)
    (related : ∀ (index : Nat) (x y : Value), xs[index]? = some x → ys[index]? = some y →
      store.equal x y = true) {shown other : Value → String}
    (alike : ∀ x ∈ xs.toList, ∀ y, store.equal x y = true → shown x = other y) :
    xs.toList.map shown = ys.toList.map other := by
  refine List.ext_getElem? fun index => ?_
  rw [List.getElem?_map, List.getElem?_map, Array.getElem?_toList, Array.getElem?_toList]
  by_cases inside : index < xs.size
  · have atLeft := Array.getElem?_eq_getElem inside
    have atRight := Array.getElem?_eq_getElem (length ▸ inside)
    have same := alike _ (Array.mem_toList_iff.mpr (Array.mem_of_getElem? atLeft)) _
      (related index _ _ atLeft atRight)
    rw [atLeft, atRight, Option.map_some, Option.map_some, same]
  · rw [Array.getElem?_eq_none (by omega), Array.getElem?_eq_none (by omega)]
    rfl

/-- Plain recursion gives one text for equal values, if it gives one for the first of them. -/
theorem Renders.of_equal {text : String} (renders : store.Renders left text)
    (equal : store.equal left right = true) : store.Renders right text := by
  induction renders generalizing right with
  | @plain value isPlain =>
    rw [plainText_of_equal equal]
    refine .plain ?_
    rintro id rfl
    have kinds := kind_of_equal equal
    cases value with
    | array id => exact isPlain id rfl
    | _ => cases kinds
  | @array i text renders ih =>
    cases structural_equal equal with
    | identical _ => exact .array text renders
    | @array _ j length related =>
      -- the text of an element is the one that plain recursion gives for its counterpart
      have shown : ∀ x ∈ (store.elements i).toList, ∀ y, store.equal x y = true →
          (if x = .null then "" else text x) = if y = .null then "" else store.display y := by
        intro x member y same
        by_cases isNull : x = .null
        · rw [if_pos isNull, if_pos ((eq_null_iff_of_equal same).mp isNull)]
        · rw [if_neg isNull, if_neg (mt (eq_null_iff_of_equal same).mpr isNull)]
          exact ((store.renders_iff y _).mp (ih x member isNull same)).2
      rw [map_elements_of_equal length related shown]
      refine .array store.display fun y member isNotNull => ?_
      obtain ⟨index, atRight⟩ := Array.mem_iff_getElem?.mp (Array.mem_toList_iff.mp member)
      have inside : index < (store.elements i).size := by
        rw [length]
        exact (Array.getElem?_eq_some_iff.mp atRight).1
      have atLeft := Array.getElem?_eq_getElem inside
      have same := related index _ _ atLeft atRight
      have rendered := ih _ (Array.mem_toList_iff.mpr (Array.mem_of_getElem? atLeft))
        (mt (eq_null_iff_of_equal same).mp isNotNull) same
      exact ((store.renders_iff y _).mp rendered).2 ▸ rendered

/-! ## Sums with texts -/

/-- A sum is a text exactly if one operand is, and then it is made of the texts of both. -/
theorem sum_eq_string_iff {text : String} : store.sum left right = .ok (.string text) ↔
    (left.kind = .string ∨ right.kind = .string) ∧
      text = store.display left ++ store.display right := by
  have numeric : left.kind ≠ .string → right.kind ≠ .string →
      arithmetic .add .add left right ≠ .ok (.string text) := by
    intro _ _ given
    unfold arithmetic numbers at given
    split at given <;> cases given
  unfold sum
  split
  · simp [Value.kind, eq_comm]
  · simp [Value.kind, eq_comm]
  · rename_i noLeft noRight
    have first : left.kind ≠ .string := by
      cases left with
      | string value => exact absurd rfl (noLeft value)
      | _ => exact ValueKind.noConfusion
    have second : right.kind ≠ .string := by
      cases right with
      | string value => exact absurd rfl (noRight value)
      | _ => exact ValueKind.noConfusion
    exact iff_of_false (numeric first second) fun both => both.1.elim first second

/-! ## The main result -/

/-- If two values are equal and no array in the first contains itself, then none in the second does,
and both have one text. So they make the same texts in sums, print the same line, and name the same
element or property where they are keys, to be read or to be written. -/
theorem equal_values_shown_alike (acyclic : ¬ store.Cyclic left)
    (equal : store.equal left right = true) :
    ¬ store.Cyclic right ∧ store.display left = store.display right ∧
    (∀ other text, (store.binary .add left other = .ok (.string text) ↔
        store.binary .add right other = .ok (.string text)) ∧
      (store.binary .add other left = .ok (.string text) ↔
        store.binary .add other right = .ok (.string text))) ∧
    Run.builtin .console [left] store = Run.builtin .console [right] store ∧
    (∀ (call : Call) (scope : ScopeId) (one two : Expr) (before : Store),
      one.eval call scope before = .ok left store →
      two.eval call scope before = .ok right store →
      (∀ position object start target, object.eval call scope start = .ok target before →
        (Expr.computed position object one).eval call scope start =
          (Expr.computed position object two).eval call scope start) ∧
      (∀ rounds position object value start middle target x,
        object.eval call scope start = .ok target middle →
        value.eval call scope middle = .ok x before →
        (Stmt.assignComputed position object one value).exec call rounds scope start =
          (Stmt.assignComputed position object two value).exec call rounds scope start)) := by
  have renders := ((store.renders_iff left _).mpr ⟨acyclic, rfl⟩).of_equal equal
  obtain ⟨acyclicToo, shown⟩ := (store.renders_iff right _).mp renders
  refine ⟨acyclicToo, shown, ?_, ?_, ?_⟩
  · intro other text
    show (store.sum left other = _ ↔ store.sum right other = _) ∧
      (store.sum other left = _ ↔ store.sum other right = _)
    simp only [sum_eq_string_iff, kind_of_equal equal, shown, and_self]
  · show EStateM.Result.ok _ { store with output := store.output.push (store.display left) } =
      EStateM.Result.ok _ { store with output := store.output.push (store.display right) }
    rw [shown]
  · intro call scope one two before first second
    refine ⟨?_, ?_⟩
    · intro position object start target evaluated
      rw [Expr.eval, Expr.eval, bind_of_ok evaluated, bind_of_ok evaluated,
        bind_of_ok first, bind_of_ok second]
      show Run.readComputed target (store.display left) store =
        Run.readComputed target (store.display right) store
      rw [shown]
    · intro rounds position object value start middle target x evaluated assigned
      cases container : target.isContainer with
      | true =>
        have assignsOne : (Stmt.assignComputed position object one value).AssignsTo call scope start
            target (store.display left) x store := .computed evaluated assigned container first
        have assignsTwo : (Stmt.assignComputed position object two value).AssignsTo call scope start
            target (store.display right) x store := .computed evaluated assigned container second
        rw [assignsOne.exec_eq, assignsTwo.exec_eq, shown]
      | false =>
        -- the key of what has no members is not evaluated
        have assigns : ∀ key : Expr, (Stmt.assignComputed position object key value).AssignsTo call
            scope start target "" x before := fun _ => .noContainer evaluated assigned container
        rw [(assigns one).exec_eq, (assigns two).exec_eq]

/-- Two arrays with a zero of either sign, null, and one of two objects that hold each other. -/
def mirrored : Store where
  arrays := #[#[.number .zero, .null, .object 0], #[.number Number.zero.neg, .null, .object 1]]
  objects := #[.ofList [("other", .object 1)], .ofList [("other", .object 0)]]

/-- The two arrays hold different zeros and different objects, and are shown alike. -/
theorem mirrored_shown_alike : ¬ mirrored.Cyclic (.array 0) ∧
    mirrored.equal (.array 0) (.array 1) = true ∧
    mirrored.display (.array 0) = mirrored.display (.array 1) ∧
    Run.builtin .console [.array 0] mirrored = Run.builtin .console [.array 1] mirrored := by
  have acyclic : ¬ mirrored.Cyclic (.array 0) := by
    intro cyclic
    obtain ⟨inner, contains, _⟩ := cyclic.element
    simp [Contains, mirrored, elements] at contains
  have equal : mirrored.equal (.array 0) (.array 1) = true := by decide +kernel
  obtain ⟨_, shown, _, printed, _⟩ := equal_values_shown_alike acyclic equal
  exact ⟨acyclic, equal, shown, printed⟩

end Store

end Script
