import Script.Proofs.Eval.Comparison
import Script.Proofs.Eval.Purity
import Script.Proofs.Eval.Wholeness
import Script.Proofs.Value.Renumbering

/-!
# Evaluating an expression twice

An expression without calls, evaluated a second time, goes the same way: what is new gets other
numbers, but nothing depends on numbers. The two evaluations begin in stores that are *parallel*
(`Store.Parallel`): what exists has the same number in both, and what is made next gets numbers at
a fixed distance. `Run.Paces` says of two computations that they lead from parallel stores to
parallel stores, with the same faults and with results that differ in numbers only. One lemma for
each step that expressions are made of, then one for each form of expression.

* `Expr.eval_paces`: an expression without calls keeps pace with itself.
* `Store.Extends.parallel`: a store and a later one are parallel, if only new things were added.
* `callFree_expressions_are_pure`: the whole of it, and what follows for programs without calls.
-/

namespace Script

open Run

variable {r : Renumbering} {first second : Store}

/-! ## Parallel stores -/

section

variable {f : Nat → Nat} {old new : Nat}

/-- Of two ways to number on, what comes next in one is what comes next in the other. -/
theorem eq_next_iff (injective : ∀ {i j}, f i = f j → i = j)
    (next : ∀ more, f (old + more) = new + more) {id : Nat} : f id = new ↔ id = old := by
  have first : f old = new := next 0
  rw [← first]
  exact ⟨injective, congrArg f⟩

theorem next_succ (next : ∀ more, f (old + more) = new + more) (more : Nat) :
    f (old + 1 + more) = new + 1 + more := by
  rw [Nat.add_assoc, next, Nat.add_assoc]

end

/-- A store has what another one has under other numbers, and the names have the same values in
both. What is made next is numbered on in both. -/
structure Store.Parallel (r : Renumbering) (first second : Store) : Prop
    extends first.Renumbers r second where
  scopes : second.scopes = first.scopes
  bound : ∀ {scope name binding}, first.scopes.local? scope name = some binding →
    r.value binding.value = binding.value
  nextArray : ∀ more, r.array (first.arrays.size + more) = second.arrays.size + more
  nextObject : ∀ more, r.object (first.objects.size + more) = second.objects.size + more
  nextFunction : ∀ more, r.function (first.functions.size + more) = second.functions.size + more

namespace Store

/-- The text of a built-in function is made of its name. -/
theorem functionText_push (store : Store) (name : String) (action : Builtin) (id : FunctionId) :
    { store with functions := store.functions.push (.builtin name action) }.functionText id =
      if id = store.functions.size then s!"<builtin {name}>" else store.functionText id := by
  unfold Store.functionText
  simp only [Array.getElem?_push]
  by_cases last : id = store.functions.size
  · simp only [if_pos last]
  · simp only [if_neg last]

namespace Parallel

/-- An array made in both stores gets the next number of each, and its elements are numbered as in
that store. -/
theorem pushArray (parallel : first.Parallel r second) (elements : Array Value) :
    Parallel r { first with arrays := first.arrays.push elements }
      { second with arrays := second.arrays.push (elements.map r.value) } :=
  { parallel with
    elements := by
      intro id
      -- only the next number of the first store becomes the next number of the second
      simp only [elements_push, eq_next_iff r.array_injective parallel.nextArray]
      split
      · rfl
      · exact parallel.elements id
    nextArray := by
      simp only [Array.size_push]
      exact next_succ parallel.nextArray }

theorem pushObject (parallel : first.Parallel r second) (table : Table Value) :
    Parallel r { first with objects := first.objects.push table }
      { second with objects := second.objects.push (table.map r.value) } :=
  { parallel with
    properties := by
      intro id
      simp only [properties_push, eq_next_iff r.object_injective parallel.nextObject]
      split
      · rfl
      · exact parallel.properties id
    nextObject := by
      simp only [Array.size_push]
      exact next_succ parallel.nextObject }

theorem pushBuiltin (parallel : first.Parallel r second) (name : String)
    (action other : Builtin) :
    Parallel r { first with functions := first.functions.push (.builtin name action) }
      { second with functions := second.functions.push (.builtin name other) } :=
  { parallel with
    texts := by
      intro id
      simp only [functionText_push, eq_next_iff r.function_injective parallel.nextFunction]
      split
      · rfl
      · exact parallel.texts id
    nextFunction := by
      simp only [Array.size_push]
      exact next_succ parallel.nextFunction }

end Parallel

end Store

/-! ## Computations -/

/-- How two runs compare whose stores are parallel. -/
def Renumbering.comparison (r : Renumbering) : Comparison Unit :=
  .ofStores (Store.Parallel r) fun _ => False

namespace Run

variable {α : Type} {f : α → α}

/-- From parallel stores, two computations end alike: with results of which one is the other one
changed and with parallel stores, or with the same fault. -/
abbrev Paces (r : Renumbering) (f : α → α) (run other : Run α) : Prop :=
  Compares r.comparison () (through f) run other

/-- A fault is the same in both, and so is a value that refers to nothing. -/
theorem paces_lift {result other : Except Fault α}
    (alike : ∀ value, result = .ok value → f value = value) (same : other = result) :
    Paces r f (lift result) (lift other) := by
  subst same
  cases other with
  | ok value => exact compares_pure (alike value rfl).symm
  | error fault => exact compares_throw fault

/-! ## Steps -/

/-- A name is looked up in the same scopes. -/
theorem paces_lookup (scope : ScopeId) (name : String) :
    Paces r r.value (lookup scope name) (lookup scope name) := by
  refine compares_get_bind fun first second parallel => ?_
  rw [parallel.scopes]
  cases found : first.scopes.resolve scope name with
  | error fault => exact compares_throw _
  | ok binding =>
    -- scopes are the same in both stores, so what is bound has one number
    have stays : r.value binding.value = binding.value := by
      unfold Scopes.resolve at found
      split at found
      · rename_i bound
        cases found
        obtain ⟨owner, _, isLocal⟩ := Option.bind_eq_some_iff.mp bound
        exact parallel.bound isLocal
      · cases found
    exact compares_pure stays.symm

theorem paces_newArray (elements : List Value) :
    Paces r r.value (newArray elements) (newArray (elements.map r.value)) := by
  refine compares_modifyGet fun first second parallel => ⟨?_, ?_⟩
  · exact congrArg Value.array (parallel.nextArray 0).symm
  · have pushed := parallel.pushArray elements.toArray
    rw [List.map_toArray] at pushed
    exact pushed

/-- Properties whose values have other numbers. -/
def renumberEntries (r : Renumbering) (entries : List (String × Value)) : List (String × Value) :=
  entries.map fun entry => (entry.1, r.value entry.2)

/-- The entries go into a table one by one, and renumbering keeps their keys. -/
theorem map_ofList (entries : List (String × Value)) :
    (Table.ofList entries).map r.value = Table.ofList (renumberEntries r entries) := by
  -- for every table to begin with, since `insert` may replace an entry
  have folded : ∀ table : Table Value,
      (entries.foldl (fun table entry => table.insert entry.1 entry.2) table).map r.value =
        (renumberEntries r entries).foldl (fun table entry => table.insert entry.1 entry.2)
          (table.map r.value) := by
    induction entries with
    | nil => exact fun _ => rfl
    | cons entry rest ih =>
      intro table
      rw [List.foldl_cons, ih, Table.map_insert]
      rfl
  exact folded .empty

theorem paces_newObject (entries : List (String × Value)) :
    Paces r r.value (newObject entries) (newObject (renumberEntries r entries)) := by
  refine compares_modifyGet fun first second parallel => ⟨?_, ?_⟩
  · exact congrArg Value.object (parallel.nextObject 0).symm
  · have pushed := parallel.pushObject (.ofList entries)
    rw [map_ofList] at pushed
    exact pushed

theorem paces_newMethod (method : Method) (array : ArrayId) :
    Paces r r.value (newFunction (.builtin method.name (.method method array)))
      (newFunction (.builtin method.name (.method method (r.array array)))) := by
  refine compares_modifyGet fun first second parallel => ⟨?_, ?_⟩
  · exact congrArg Value.function (parallel.nextFunction 0).symm
  · exact parallel.pushBuiltin method.name _ _

/-- An array and its counterpart have the same elements, up to numbers. -/
theorem paces_readElement (array : ArrayId) (key : String) :
    Paces r r.value (readElement array key) (readElement (r.array array) key) := by
  refine compares_then (compares_lift _) fun _ index _ => ?_
  refine compares_get_bind fun first second parallel => ?_
  have same : (index.bind ((second.elements (r.array array))[·]?)).getD .null =
      r.value ((index.bind ((first.elements array)[·]?)).getD .null) := by
    cases index with
    | none => rfl
    | some number =>
      show ((second.elements (r.array array))[number]?).getD .null = _
      rw [parallel.getElem?_elements]
      exact Renumbering.value_getD _
  exact compares_pure same

theorem paces_readProperty (object : ObjectId) (key : String) :
    Paces r r.value (readProperty object key) (readProperty (r.object object) key) := by
  refine compares_get_bind fun first second parallel => ?_
  rw [parallel.get?_properties, Renumbering.value_getD]
  exact compares_pure rfl

theorem paces_lengthOf (array : ArrayId) :
    Paces r r.value (lengthOf array) (lengthOf (r.array array)) := by
  refine compares_get_bind fun first second parallel => ?_
  rw [parallel.size_elements]
  exact compares_pure rfl

/-- What a member is depends on the kind of value and on the name, and on no number. -/
theorem paces_readMember (target : Value) (property : String) :
    Paces r r.value (readMember target property) (readMember (r.value target) property) := by
  cases target with
  | array id =>
    show Paces r r.value (readMember (.array id) property)
      (readMember (.array (r.array id)) property)
    unfold readMember
    by_cases length : property = "length"
    · simp only [length, if_true]
      exact paces_lengthOf id
    · simp only [if_neg length]
      cases Method.ofName? property with
      | some method => exact paces_newMethod method id
      | none => exact paces_readElement id property
  | object id => exact paces_readProperty id property
  | _ => exact compares_throw _

theorem paces_readComputed (target : Value) (key : String) :
    Paces r r.value (readComputed target key) (readComputed (r.value target) key) := by
  cases target with
  | array id => exact paces_readElement id key
  | object id => exact paces_readProperty id key
  | _ => exact compares_throw _

end Run

/-! ## Expressions -/

variable {call : Call} {scope : ScopeId}

mutual

/-- An expression without calls keeps pace with itself. -/
theorem Expr.eval_paces :
    ∀ {e : Expr}, e.isCallFree = true → Paces r r.value (e.eval call scope) (e.eval call scope)
  | .number _ _, _ | .string _ _, _ | .boolean _ _, _ | .null _, _ | .nan _, _ => by
    rw [Expr.eval]
    exact compares_pure rfl
  | .identifier _ name, _ => by
    rw [Expr.eval]
    exact paces_lookup scope name
  | .array _ elements, free => by
    rw [Expr.eval]
    rw [Expr.isCallFree] at free
    exact compares_through (evalElements_paces free) fun _ values _ => paces_newArray values
  | .object _ properties, free => by
    rw [Expr.eval]
    rw [Expr.isCallFree] at free
    exact compares_through (evalProperties_paces free) fun _ entries _ => paces_newObject entries
  | .binary _ operator left right, free => by
    rw [Expr.eval]
    rw [Expr.isCallFree, Bool.and_eq_true] at free
    refine compares_through (Expr.eval_paces free.1) fun _ x _ => ?_
    refine compares_through (Expr.eval_paces free.2) fun _ y _ => ?_
    refine compares_get_bind fun first second parallel => ?_
    -- the result refers to nothing, so to be the same and to differ in numbers only is one thing
    refine paces_lift ?_ (parallel.binary operator x y)
    intro value computed
    exact Renumbering.value_of_plain (Store.binary_plain computed)
  | .unary _ operator operand, free => by
    rw [Expr.eval]
    rw [Expr.isCallFree] at free
    refine compares_through (Expr.eval_paces free) fun _ x _ => ?_
    refine paces_lift ?_ (Store.Renumbers.unary operator x)
    intro value computed
    exact Renumbering.value_of_plain (Store.unary_plain computed)
  | .member _ object property, free => by
    rw [Expr.eval]
    rw [Expr.isCallFree] at free
    exact compares_through (Expr.eval_paces free) fun _ target _ => paces_readMember target property
  | .computed _ object key, free => by
    rw [Expr.eval]
    rw [Expr.isCallFree, Bool.and_eq_true] at free
    refine compares_through (Expr.eval_paces free.1) fun _ target _ => ?_
    refine compares_through (Expr.eval_paces free.2) fun _ keyValue _ => ?_
    refine compares_get_bind fun first second parallel => ?_
    -- a key counts by its text, in which there are no numbers of arrays or objects
    rw [parallel.display]
    exact paces_readComputed target _
  | .call _ _ _, free => by
    rw [Expr.isCallFree] at free
    cases free
  | .foreign _ _, _ => by
    rw [Expr.eval]
    exact compares_throw _

theorem evalElements_paces :
    ∀ {elements : List Expr}, elementsCallFree elements = true →
      Paces r (List.map r.value) (evalElements call scope elements)
        (evalElements call scope elements)
  | [], _ => by
    rw [evalElements]
    exact compares_pure rfl
  | e :: rest, free => by
    rw [evalElements]
    rw [elementsCallFree, Bool.and_eq_true] at free
    refine compares_through (Expr.eval_paces free.1) fun _ value _ => ?_
    refine compares_through (evalElements_paces free.2) fun _ values _ => ?_
    exact compares_pure rfl

theorem evalProperties_paces :
    ∀ {properties : List (String × Expr)}, propertiesCallFree properties = true →
      Paces r (renumberEntries r) (evalProperties call scope properties)
        (evalProperties call scope properties)
  | [], _ => by
    rw [evalProperties]
    exact compares_pure rfl
  | (key, e) :: rest, free => by
    rw [evalProperties]
    rw [propertiesCallFree, Bool.and_eq_true] at free
    refine compares_through (Expr.eval_paces free.1) fun _ value _ => ?_
    refine compares_through (evalProperties_paces free.2) fun _ entries _ => ?_
    exact compares_pure rfl

end

/-! ## A store and a later one -/

/-- A number below the old count stays, and a further one moves on by as much as the count has. -/
def shiftBeyond (old new id : Nat) : Nat := if id < old then id else id + (new - old)

theorem shiftBeyond_of_lt {old new id : Nat} (inside : id < old) : shiftBeyond old new id = id :=
  if_pos inside

theorem shiftBeyond_of_le {old new id : Nat} (grows : old ≤ new) (outside : old ≤ id) :
    shiftBeyond old new id = new + (id - old) := by
  unfold shiftBeyond
  rw [if_neg (Nat.not_lt.mpr outside)]
  omega

/-- What is made next in one store is what is made next in the other. -/
theorem shiftBeyond_add {old new : Nat} (grows : old ≤ new) (more : Nat) :
    shiftBeyond old new (old + more) = new + more := by
  rw [shiftBeyond_of_le grows (Nat.le_add_right old more), Nat.add_sub_cancel_left]

/-- Numbers below the old count stay below it, all others come to lie above the new one. -/
theorem shiftBeyond_injective {old new i j : Nat}
    (same : shiftBeyond old new i = shiftBeyond old new j) : i = j := by
  unfold shiftBeyond at same
  split at same <;> split at same <;> omega

/-- What exists in a store keeps its number, and what is made there next gets the numbers that it
gets in a later one. -/
def Renumbering.shift (store after : Store) : Renumbering where
  array := shiftBeyond store.arrays.size after.arrays.size
  object := shiftBeyond store.objects.size after.objects.size
  function := shiftBeyond store.functions.size after.functions.size
  array_injective := shiftBeyond_injective
  object_injective := shiftBeyond_injective
  function_injective := shiftBeyond_injective

namespace Store

variable {store after : Store}

theorem shift_value {value : Value} (exist : ∀ node, value.node? = some node → store.Has node) :
    (Renumbering.shift store after).value value = value := by
  cases value with
  | array id => exact congrArg Value.array (shiftBeyond_of_lt (exist _ rfl))
  | object id => exact congrArg Value.object (shiftBeyond_of_lt (exist _ rfl))
  | function id => exact congrArg Value.function (shiftBeyond_of_lt (exist _ rfl))
  | _ => rfl

namespace Extends

theorem grows (extended : store.Extends after) : store.Grows after where
  scopes := by rw [extended.scopes]
  arrays := by
    obtain ⟨more, there⟩ := extended.arrays
    rw [there, Array.size_append]
    exact Nat.le_add_right _ _
  objects := by
    obtain ⟨more, there⟩ := extended.objects
    rw [there, Array.size_append]
    exact Nat.le_add_right _ _
  functions := by
    obtain ⟨more, there, _⟩ := extended.functions
    rw [there, Array.size_append]
    exact Nat.le_add_right _ _

/-- What exists stays as it is. -/
theorem same (extended : store.Extends after) (node : Node) (has : store.Has node) :
    store.Same after node := by
  cases node with
  | scope id =>
    show after.scopes[id]? = store.scopes[id]?
    rw [extended.scopes]
  | array id =>
    obtain ⟨more, there⟩ := extended.arrays
    show after.arrays[id]? = store.arrays[id]?
    rw [there, Array.getElem?_append_left has]
  | object id =>
    obtain ⟨more, there⟩ := extended.objects
    show after.objects[id]? = store.objects[id]?
    rw [there, Array.getElem?_append_left has]
  | function id =>
    obtain ⟨more, there, _⟩ := extended.functions
    show after.functions[id]? = store.functions[id]?
    rw [there, Array.getElem?_append_left has]

/-- A store and a later one with more in it are parallel: what exists refers to what exists. -/
theorem parallel (extended : store.Extends after) (whole : store.Whole) :
    store.Parallel (.shift store after) after where
  elements := by
    intro id
    -- an array that exists keeps its number, and so do its elements, which exist as well; a number
    -- behind the last array goes to a number behind the last array, and nothing is there
    by_cases inside : id < store.arrays.size
    · have stay : ∀ value ∈ store.elements id,
          (Renumbering.shift store after).value value = value := fun value member =>
        shift_value fun node refers => whole _ _ (.element member refers)
      have here : (Renumbering.shift store after).array id = id := shiftBeyond_of_lt inside
      have kept : after.arrays[id]? = store.arrays[id]? := extended.same (.array id) inside
      have same : after.elements id = store.elements id := by
        unfold Store.elements
        rw [kept]
      rw [here, same, Array.map_congr_left stay, Array.map_id']
    · have outside := Nat.le_of_not_lt inside
      have there : (Renumbering.shift store after).array id =
          after.arrays.size + (id - store.arrays.size) :=
        shiftBeyond_of_le extended.grows.arrays outside
      unfold Store.elements
      rw [there, Array.getElem?_eq_none (Nat.le_add_right _ _), Array.getElem?_eq_none outside]
      exact Array.map_empty.symm
  -- the same for objects, and for the texts of functions
  properties := by
    intro id
    by_cases inside : id < store.objects.size
    · have here : (Renumbering.shift store after).object id = id := shiftBeyond_of_lt inside
      have kept : after.objects[id]? = store.objects[id]? := extended.same (.object id) inside
      have same : after.properties id = store.properties id := by
        unfold Store.properties
        rw [kept]
      rw [here, same]
      have stay : ∀ entry ∈ (store.properties id).entries,
          (entry.1, (Renumbering.shift store after).value entry.2) = entry := fun entry member =>
        congrArg (Prod.mk entry.1) (shift_value fun node refers =>
          whole _ _ (.property (Table.mem_entries_iff.mp member) refers))
      exact Table.eq_of_entries ((List.map_congr_left stay).trans (List.map_id' _)).symm
    · have outside := Nat.le_of_not_lt inside
      have there : (Renumbering.shift store after).object id =
          after.objects.size + (id - store.objects.size) :=
        shiftBeyond_of_le extended.grows.objects outside
      unfold Store.properties
      rw [there, Array.getElem?_eq_none (Nat.le_add_right _ _), Array.getElem?_eq_none outside]
      rfl
  texts := by
    intro id
    by_cases inside : id < store.functions.size
    · have here : (Renumbering.shift store after).function id = id := shiftBeyond_of_lt inside
      have kept : after.functions[id]? = store.functions[id]? := extended.same (.function id) inside
      unfold Store.functionText
      rw [here, kept]
    · have outside := Nat.le_of_not_lt inside
      have there : (Renumbering.shift store after).function id =
          after.functions.size + (id - store.functions.size) :=
        shiftBeyond_of_le extended.grows.functions outside
      unfold Store.functionText
      rw [there, Array.getElem?_eq_none (Nat.le_add_right _ _), Array.getElem?_eq_none outside]
  scopes := extended.scopes
  bound := fun found => shift_value fun node refers => whole _ _ (.binding found refers)
  nextArray := shiftBeyond_add extended.grows.arrays
  nextObject := shiftBeyond_add extended.grows.objects
  nextFunction := shiftBeyond_add extended.grows.functions

end Extends

end Store

/-! ## Purity -/

/-- What only adds to the store and keeps pace with itself, run again where it has led to, fails
with the same fault or has a value that is displayed alike. -/
theorem Run.repeats {run : Run Value} (adds : run.Obeys .adding)
    (paces : ∀ r : Renumbering, Paces r r.value run run) {store : Store} (whole : store.Whole) :
    match run store with
    | .ok value after => ∃ again last,
      run after = .ok again last ∧ last.display again = after.display value
    | .error fault after => ∃ last, run after = .error fault last := by
  have ends := paces _ store _ ((adds store).1.parallel whole)
  cases ran : run store with
  | ok value after =>
    simp only [Run.final, ran] at ends
    generalize again : run after = outcome at ends
    cases ends with
    | ok _ values parallel =>
      cases values
      exact ⟨_, _, again, Store.Renumbers.display parallel.toRenumbers value⟩
  | error fault after =>
    simp only [Run.final, ran] at ends
    generalize again : run after = outcome at ends
    cases ends with
    | error fails =>
      obtain ⟨rfl, _⟩ := fails
      exact ⟨_, again⟩
    | excused excuses => exact excuses.elim

/-- Expressions without calls are pure. From any store, whatever calls do, such an expression ends
with a value or with a fault that is no limit, and does nothing but add arrays, objects and methods
to the store. If nothing in the store leads astray, as in any session and wherever statements lead
from there, then evaluating the expression once more gives the same fault or a value that is
displayed alike. A program without calls that finishes prints nothing. -/
theorem callFree_expressions_are_pure :
    (∀ (call : Call) (scope : ScopeId) (e : Expr) (store : Store), e.isCallFree = true →
      store.Extends ((e.eval call scope).final store) ∧
      (∀ fault after, e.eval call scope store = .error fault after → fault.isEndless = false) ∧
      (store.Whole →
        match e.eval call scope store with
        | .ok value after => ∃ again last,
          e.eval call scope after = .ok again last ∧ last.display again = after.display value
        | .error fault after => ∃ last, e.eval call scope after = .error fault last)) ∧
    (∀ (limits : Limits) (earlier : List String),
      (Session.start.submitAll limits earlier).store.Whole) ∧
    (∀ (rounds depth : Nat) (scope : ScopeId) (body : List Stmt) (store : Store),
      store.Whole → store.Has (.scope scope) →
      ((execBlock (invoke rounds depth) rounds scope .zero body).final store).Whole) ∧
    (∀ (limits : Limits) (session : Session) (program : Program) (text : String),
      program.isCallFree = true → (session.run limits program).1 = .ok text → text = "") := by
  refine ⟨?_, ?_, ?_, ?_⟩
  · intro call scope e store free
    have adds : (e.eval call scope).Obeys .adding := Expr.eval_obeys free
    exact ⟨(adds store).1, (adds store).2, Run.repeats adds fun _ => Expr.eval_paces free⟩
  · intro limits earlier
    exact (Session.sound_submitAll earlier Store.sound_initial).whole
  · intro rounds depth scope body store whole has
    exact Store.whole_execBlock whole has rounds depth body
  · intro limits session program text free finished
    exact Session.run_of_callFree free finished

/-- A method of a new array, and whether two new arrays are equal. -/
def methodAndEquality : Expr :=
  .array default [.member default (.array default [.nan default]) "pop",
    .binary default .equal (.array default []) (.array default [])]

/-- What the expression leaves behind. -/
def afterMethodAndEquality : Store :=
  { Store.initial with
    arrays := #[#[.number .nan], #[], #[], #[.function 1, .boolean true]]
    functions := #[.builtin "console" .console, .builtin "pop" (.method .pop 0)] }

/-- The second time other arrays are made, and the text is the same. -/
theorem methodAndEquality_twice :
    Store.initial.Whole ∧ methodAndEquality.isCallFree = true ∧
    methodAndEquality.eval (invoke 0 0) 0 Store.initial = .ok (.array 3) afterMethodAndEquality ∧
    Store.initial.Extends afterMethodAndEquality ∧
    (∃ again last, methodAndEquality.eval (invoke 0 0) 0 afterMethodAndEquality = .ok again last ∧
      last.display again = "<builtin pop>,true") ∧
    ∀ text, (Session.start.run ⟨0, 0⟩ ⟨default, [.expression methodAndEquality]⟩).1 = .ok text →
      text = "" := by
  obtain ⟨pure, _, _, silent⟩ := callFree_expressions_are_pure
  have ran : methodAndEquality.eval (invoke 0 0) 0 Store.initial =
      .ok (.array 3) afterMethodAndEquality := by rfl
  obtain ⟨extended, _, repeats⟩ := pure (invoke 0 0) 0 methodAndEquality Store.initial rfl
  have again := repeats Store.whole_initial
  rw [ran] at again
  obtain ⟨value, last, second, alike⟩ := again
  have shown : afterMethodAndEquality.display (.array 3) = "<builtin pop>,true" := by rfl
  refine ⟨Store.whole_initial, rfl, ran, ?_, ⟨value, last, second, alike.trans shown⟩, ?_⟩
  · rw [Run.final, ran] at extended
    exact extended
  · intro text finished
    exact silent _ _ _ _ rfl finished

end Script
