import Script.Proofs.Eval.Deeds

/-!
# Arrays are deques

A deque is a list of values that is changed at both ends by the methods of arrays, and in between by
assignments (`Deque.call?`, `Deque.assign`). Every array behaves as a deque of its own, which knows
of nothing but the deeds done to that array: `replay` picks these out of all deeds of a run. It does
not matter by which names an array is known, nor where a method was kept after it was taken.

* `Chronicle.contents`: what an array holds is what its own deeds make of what it held.
* `builtin_method_eq`: a method does to its array what it does to a deque, and nothing else.
* `array_methods_are_deque_operations`: the whole of it, for every run.
-/

namespace Script

open Run Bounds

/-! ## Deques -/

namespace Deque

/-- What a method answers and what it leaves, if it takes so many arguments. -/
def call? (method : Method) (arguments contents : List Value) : Option (Value × List Value) :=
  match method, arguments with
  | .push, [value] => some (.number (.ofNat (contents.length + 1)), contents ++ [value])
  | .unshift, [value] => some (.number (.ofNat (contents.length + 1)), value :: contents)
  | .pop, [] => some (contents.getLast?.getD .null, contents.dropLast)
  | .shift, [] => some (contents.head?.getD .null, contents.tail)
  | _, _ => none

/-- Contents with one value written, and null in between if there were too few. -/
def write (contents : List Value) (index : Nat) (value : Value) : List Value :=
  if index < contents.length then contents.set index value
  else contents ++ List.replicate (index - contents.length) .null ++ [value]

/-- What an assignment leaves. It is refused by a key that is no index, and too far behind the
end. -/
def assign (contents : List Value) (key : String) (value : Value) : List Value :=
  match Key.index? key with
  | .ok (some index) =>
    if Key.maxGrowth < index + 1 - contents.length then contents else write contents index value
  | _ => contents

theorem call?_eq_none_iff {method : Method} {arguments contents : List Value} :
    call? method arguments contents = none ↔ arguments.length ≠ method.arity := by
  cases method <;> rcases arguments with _ | ⟨value, _ | ⟨other, rest⟩⟩ <;>
    simp [call?, Method.arity]

end Deque

/-- What is left of the contents of a deque. -/
def Action.onto (contents : List Value) : Action → List Value
  | .create elements => elements
  | .call _ method arguments =>
    match Deque.call? method arguments contents with
    | some (_, left) => left
    | none => contents
  | .assign _ key value => Deque.assign contents key value

/-- What the deeds of one array make of its contents. -/
def replay (array : ArrayId) (contents : List Value) (deeds : List Deed) : List Value :=
  (deeds.filter (·.array = array)).foldl (fun left deed => deed.action.onto left) contents

theorem replay_cons (array : ArrayId) (contents : List Value) (deed : Deed) (rest : List Deed) :
    replay array contents (deed :: rest) =
      replay array (if deed.array = array then deed.action.onto contents else contents) rest := by
  unfold replay
  by_cases own : deed.array = array
  · simp [own]
  · simp [own]

/-! ## What a deed does -/

/-- The store with other contents of one array. -/
def Store.withContents (store : Store) (array : ArrayId) (contents : List Value) : Store :=
  { store with arrays := store.arrays.setIfInBounds array contents.toArray }

section

variable {store : Store} {array : ArrayId}

theorem elements_withContents (inside : array < store.arrays.size) (contents : List Value)
    (id : ArrayId) :
    (store.withContents array contents).elements id =
      if array = id then contents.toArray else store.elements id := by
  unfold Store.withContents Store.elements
  rw [Array.getElem?_setIfInBounds]
  by_cases same : array = id
  · rw [if_pos same, if_pos same, if_pos inside]
    rfl
  · rw [if_neg same, if_neg same]

/-- What changes the elements of an array gives it other contents. -/
theorem modify_eq_withContents (inside : array < store.arrays.size)
    {change : Array Value → Array Value} {contents : List Value}
    (left : (change (store.elements array)).toList = contents) :
    { store with arrays := store.arrays.modify array change } =
      store.withContents array contents := by
  have same : store.arrays.modify array change =
      store.arrays.setIfInBounds array contents.toArray := by
    subst left
    apply Array.ext_getElem?
    intro id
    rw [Array.getElem?_modify, Array.getElem?_setIfInBounds, Array.toArray_toList]
    by_cases own : array = id
    · subst own
      unfold Store.elements
      rw [if_pos rfl, if_pos rfl, if_pos inside, Array.getElem?_eq_getElem inside]
      rfl
    · rw [if_neg own, if_neg own]
  unfold Store.withContents
  rw [same]

theorem withContents_self (inside : array < store.arrays.size) :
    store.withContents array (store.elements array).toList = store := by
  have same : store.arrays.modify array id = store.arrays := by
    apply Array.ext_getElem?
    intro other
    rw [Array.getElem?_modify, Option.map_id_fun, id, ite_self]
  have left : (id (store.elements array)).toList = (store.elements array).toList := rfl
  rw [← modify_eq_withContents inside left, same]

/-- A method does to its array what it does to a deque, and nothing else. -/
theorem builtin_method_eq (inside : array < store.arrays.size) (method : Method)
    (arguments : List Value) :
    builtin (.method method array) arguments store =
      match Deque.call? method arguments (store.elements array).toList with
      | some (answer, contents) => .ok answer (store.withContents array contents)
      | none => .error (.argumentCount method.arity arguments.length) store := by
  have length : ∀ contents, lengthOf array (store.withContents array contents) =
      .ok (.number (.ofNat contents.length)) (store.withContents array contents) := by
    intro contents
    show EStateM.Result.ok (Value.number (.ofNat (Store.elements _ array).size)) _ = _
    rw [elements_withContents inside, if_pos rfl, List.size_toArray]
  cases method with
  | push =>
    rcases arguments with _ | ⟨value, _ | ⟨other, rest⟩⟩
    · rfl
    -- the answer is the length as it is afterwards, read from the changed store
    · show lengthOf array { store with arrays := store.arrays.modify array (·.push value) } = _
      rw [modify_eq_withContents inside Array.toList_push, length, List.length_append]
      rfl
    · rfl
  | unshift =>
    rcases arguments with _ | ⟨value, _ | ⟨other, rest⟩⟩
    · rfl
    · show lengthOf array { store with arrays := store.arrays.modify array (#[value] ++ ·) } = _
      rw [modify_eq_withContents inside Array.toList_append, length]
      rfl
    · rfl
  | pop =>
    rcases arguments with _ | ⟨value, rest⟩
    · show EStateM.Result.ok ((store.elements array).back?.getD .null)
        { store with arrays := store.arrays.modify array (·.pop) } = _
      rw [modify_eq_withContents inside Array.toList_pop, ← Array.getLast?_toList]
      rfl
    · rfl
  | shift =>
    rcases arguments with _ | ⟨value, rest⟩
    · have left : ((store.elements array).extract 1 (store.elements array).size).toList =
          (store.elements array).toList.tail := by simp
      show EStateM.Result.ok ((store.elements array)[0]?.getD .null) { store with
        arrays := store.arrays.modify array (fun elements => elements.extract 1 elements.size) } = _
      rw [modify_eq_withContents inside left, ← Array.getElem?_toList, ← List.head?_eq_getElem?]
      rfl
    · rfl

theorem toList_writeAt (elements : Array Value) (index : Nat) (value : Value) :
    (writeAt elements index value).toList = Deque.write elements.toList index value := by
  unfold writeAt Deque.write
  rw [Array.length_toList]
  split
  · exact Array.toList_setIfInBounds
  · rw [Array.toList_push, Array.toList_append, Array.toList_replicate]

/-- An assignment does to its array what it does to a deque, and nothing else. -/
theorem final_writeElement (inside : array < store.arrays.size) (key : String) (value : Value) :
    (writeElement array key value).final store =
      store.withContents array (Deque.assign (store.elements array).toList key value) := by
  unfold final Deque.assign
  rw [writeElement_eq]
  cases Key.index? key with
  | error fault => exact (withContents_self inside).symm
  | ok found =>
    cases found with
    | none => exact (withContents_self inside).symm
    | some index =>
      simp only [Array.length_toList]
      by_cases far : Key.maxGrowth < index + 1 - (store.elements array).size
      · simp only [if_pos far, withContents_self inside]
      · have left : (writeAt (store.elements array) index value).toList =
            Deque.write (store.elements array).toList index value := toList_writeAt _ _ _
        simp only [if_neg far]
        exact modify_eq_withContents inside left

end

namespace Deed

/-- A deed that stands makes an array or is done to one that exists. -/
theorem creates_or_exists {deed : Deed} (stands : deed.Stands) :
    (∃ elements, deed.action = .create elements) ∨ deed.array < deed.before.arrays.size := by
  obtain ⟨action, before⟩ := deed
  cases action with
  | create elements => exact .inl ⟨elements, rfl⟩
  | call => exact .inr stands
  | assign => exact .inr stands

/-- What is done to an array that exists changes its contents as those of a deque, and nothing
else. -/
theorem after_eq {deed : Deed} (inside : deed.array < deed.before.arrays.size) :
    deed.after = deed.before.withContents deed.array
      (deed.action.onto (deed.before.elements deed.array).toList) := by
  obtain ⟨action, before⟩ := deed
  cases action with
  | create elements => exact absurd inside (Nat.lt_irrefl _)
  | call array method arguments =>
    have inside : array < before.arrays.size := inside
    show (builtin (.method method array) arguments).final before = before.withContents array
      (match Deque.call? method arguments (before.elements array).toList with
        | some (_, left) => left
        | none => (before.elements array).toList)
    unfold final
    rw [builtin_method_eq inside]
    cases Deque.call? method arguments (before.elements array).toList with
    | some answer => rfl
    | none => exact (withContents_self inside).symm
  | assign array key value =>
    have inside : array < before.arrays.size := inside
    show (writeElement array key value >>= fun _ => pure value).final before = _
    rw [final_then_pure, final_writeElement inside]
    rfl

/-- A deed changes the contents of its own array as those of a deque. -/
theorem elements_after {deed : Deed} (stands : deed.Stands) (array : ArrayId) :
    (deed.after.elements array).toList =
      if deed.array = array then deed.action.onto (deed.before.elements array).toList
      else (deed.before.elements array).toList := by
  rcases creates_or_exists stands with ⟨elements, creates⟩ | inside
  · obtain ⟨_, before⟩ := deed
    cases creates
    show (Store.elements { before with arrays := before.arrays.push elements.toArray }
      array).toList = if before.arrays.size = array then elements else _
    rw [elements_push]
    by_cases own : before.arrays.size = array
    · rw [if_pos own, if_pos own.symm]
    · rw [if_neg own, if_neg (Ne.symm own)]
  · rw [after_eq inside, elements_withContents inside]
    by_cases own : deed.array = array
    · rw [if_pos own, if_pos own, own]
    · rw [if_neg own, if_neg own]

theorem functions_after {deed : Deed} (stands : deed.Stands) :
    deed.after.functions = deed.before.functions := by
  rcases creates_or_exists stands with ⟨elements, creates⟩ | inside
  · obtain ⟨_, before⟩ := deed
    cases creates
    rfl
  · rw [after_eq inside]
    rfl

end Deed

/-! ## What a run does -/

namespace Chronicle

variable {store after : Store} {deeds : List Deed}

/-- What an array holds is what its own deeds make of what it held. -/
theorem contents (chronicle : Chronicle store deeds after) (array : ArrayId) :
    (after.elements array).toList = replay array (store.elements array).toList deeds := by
  induction deeds generalizing store with
  | nil =>
    show _ = (store.elements array).toList
    unfold Store.elements
    rw [chronicle.arrays]
  | cons deed rest ih =>
    obtain ⟨quiet, stands, later⟩ := chronicle
    -- up to the deed no array changes; the deed itself counts for its own array only
    have same : deed.before.elements array = store.elements array := by
      unfold Store.elements
      rw [quiet.arrays]
    rw [ih later, Deed.elements_after stands, same, replay_cons]

/-- A function stays what it is. -/
theorem function (chronicle : Chronicle store deeds after) {id : FunctionId} {function : Callable}
    (found : store.functions[id]? = some function) : after.functions[id]? = some function := by
  have kept : ∀ {first second : Store}, first.Quiet second →
      first.functions[id]? = some function → second.functions[id]? = some function := by
    intro first second quiet there
    obtain ⟨more, grown⟩ := quiet.functions
    rw [grown, Array.getElem?_append_left (Array.getElem?_eq_some_iff.mp there).1, there]
  induction deeds generalizing store with
  | nil => exact kept chronicle found
  | cons deed rest ih =>
    obtain ⟨quiet, stands, later⟩ := chronicle
    refine ih later ?_
    -- deeds make no functions: a method is made where it is read, and that is no deed
    rw [Deed.functions_after stands]
    exact kept quiet found

end Chronicle

/-- Between one store and another, arrays behave as deques under some deeds. -/
structure ActAsDeques (store : Store) (deeds : List Deed) (after : Store) : Prop where
  /-- At the end an array holds what its own deeds make of what it held. -/
  contents : ∀ array,
    (after.elements array).toList = replay array (store.elements array).toList deeds
  /-- So it does whenever anything is done to any array. -/
  meanwhile : ∀ {earlier deed later}, deeds = earlier ++ deed :: later → ∀ array,
    (deed.before.elements array).toList = replay array (store.elements array).toList earlier
  /-- A call has the answer of the deque and changes its array only. A call with the wrong number of
  arguments changes nothing. -/
  answers : ∀ {earlier array method arguments before later},
    deeds = earlier ++ ⟨.call array method arguments, before⟩ :: later →
    before.Has (.array array) ∧
    builtin (.method method array) arguments before =
      match Deque.call? method arguments (replay array (store.elements array).toList earlier) with
      | some (answer, contents) => .ok answer (before.withContents array contents)
      | none => .error (.argumentCount method.arity arguments.length) before
  /-- A method stays that of its array. -/
  functions : ∀ {id : FunctionId} {function : Callable}, store.functions[id]? = some function →
    after.functions[id]? = some function ∧
      ∀ deed ∈ deeds, deed.before.functions[id]? = some function

theorem Chronicle.actAsDeques {store after : Store} {deeds : List Deed}
    (chronicle : Chronicle store deeds after) : ActAsDeques store deeds after where
  contents := chronicle.contents
  meanwhile := by
    intro earlier deed later same array
    subst same
    exact chronicle.split.1.contents array
  answers := by
    intro earlier array method arguments before later same
    subst same
    obtain ⟨early, stands, _⟩ := chronicle.split
    refine ⟨stands, ?_⟩
    rw [builtin_method_eq stands, early.contents array]
  functions := by
    intro id function found
    refine ⟨chronicle.function found, ?_⟩
    intro deed member
    obtain ⟨earlier, later, same⟩ := List.append_of_mem member
    subst same
    exact chronicle.split.1.function found

/-! ## Calls of methods -/

/-- A call of a method, wherever its function comes from, is one deed of the method's array. -/
theorem Expr.call_of_method {rounds depth : Nat} {scope : ScopeId} {store middle before : Store}
    {position : Position} {callee : Expr} {arguments : List Expr} {id : FunctionId} {name : String}
    {method : Method} {array : ArrayId} {values : List Value}
    (evaluated : callee.eval (invoke rounds depth) scope store = .ok (.function id) middle)
    (found : middle.functions[id]? = some (.builtin name (.method method array)))
    (given : evalElements (invoke rounds depth) scope arguments middle = .ok values before) :
    (Expr.call position callee arguments).eval (invoke rounds depth) scope store =
        builtin (.method method array) values before ∧
      (Expr.call position callee arguments).deeds (invoke rounds depth) (invokeDeeds rounds depth)
          scope store =
        callee.deeds (invoke rounds depth) (invokeDeeds rounds depth) scope store ++
          elementDeeds (invoke rounds depth) (invokeDeeds rounds depth) scope arguments middle ++
          [⟨.call array method values, before⟩] := by
  have isCallable : callable (.function id) middle =
      .ok (.builtin name (.method method array)) middle := by
    unfold callable
    dsimp only
    rw [bind_of_ok (show (get : Run Store) middle = .ok middle middle from rfl), found]
    rfl
  constructor
  · rw [Expr.eval, bind_of_ok evaluated, bind_of_ok isCallable, bind_of_ok given]
    unfold invoke
    rfl
  · rw [Expr.deeds]
    unfold Deeds.andThen
    simp only [evaluated, isCallable, given, Deeds.none, List.nil_append, List.append_assoc]
    unfold invokeDeeds
    rfl

/-- A method of an array is a function of its own, which belongs to that array. -/
theorem Expr.member_of_array {call : Call} {scope : ScopeId} {store middle : Store}
    {position : Position} {object : Expr} {array : ArrayId} (method : Method)
    (evaluated : object.eval call scope store = .ok (.array array) middle) :
    (Expr.member position object method.name).eval call scope store =
      .ok (.function middle.functions.size)
        { middle with
          functions := middle.functions.push (.builtin method.name (.method method array)) } := by
  rw [Expr.eval, bind_of_ok evaluated]
  cases method <;> rfl

/-- An assignment to an element is one deed of the array, after what its parts do. -/
theorem Stmt.AssignsTo.deeds_eq {call : Call} {inner : Callable → List Value → Deeds}
    {rounds : Nat} {scope : ScopeId} {store before : Store} {s : Stmt} {array : ArrayId}
    {value : Value} {key : String}
    (assigns : s.AssignsTo call scope store (.array array) key value before) :
    ∃ earlier, s.deeds call inner rounds scope store =
      earlier ++ [⟨.assign array key value, before⟩] := by
  cases assigns with
  | fixed first second =>
    rw [Stmt.deeds]
    unfold Deeds.andThen Deeds.writing
    simp only [first, second]
    rw [← List.append_assoc]
    exact ⟨_, rfl⟩
  | computed first second _ third =>
    rw [Stmt.deeds]
    unfold Deeds.andThen Deeds.writing
    simp only [first, second]
    unfold Deeds.andThen
    rw [bind_of_ok third, ← List.append_assoc, ← List.append_assoc]
    exact ⟨_, rfl⟩
  | noContainer _ _ noContainer => cases noContainer

/-- Arrays are deques. Whatever a block of statements does from a store in which nothing leads
astray, each array holds at every moment what its own calls and assignments make of it, and each
call has the answer of that deque and changes nothing else. A call is one of the array that its
method was taken from, whichever expression gives the function, and the function stays bound to that
array; an assignment to an element is one of the array that is written to. A call with the wrong
number of arguments fails and changes nothing. -/
theorem array_methods_are_deque_operations (rounds depth : Nat) :
    (∀ (scope : ScopeId) (body : List Stmt) (store : Store),
      store.Whole → store.Has (.scope scope) →
      ActAsDeques store
        (blockDeeds (invoke rounds depth) (invokeDeeds rounds depth) rounds scope body store)
        ((execBlock (invoke rounds depth) rounds scope .zero body).final store)) ∧
    (∀ (scope : ScopeId) (store middle before : Store) (position : Position) (callee : Expr)
      (arguments : List Expr) (id : FunctionId) (name : String) (method : Method)
      (array : ArrayId) (values : List Value),
      callee.eval (invoke rounds depth) scope store = .ok (.function id) middle →
      middle.functions[id]? = some (.builtin name (.method method array)) →
      evalElements (invoke rounds depth) scope arguments middle = .ok values before →
      (Expr.call position callee arguments).eval (invoke rounds depth) scope store =
          builtin (.method method array) values before ∧
        (Expr.call position callee arguments).deeds (invoke rounds depth)
            (invokeDeeds rounds depth) scope store =
          callee.deeds (invoke rounds depth) (invokeDeeds rounds depth) scope store ++
            elementDeeds (invoke rounds depth) (invokeDeeds rounds depth) scope arguments middle ++
            [⟨.call array method values, before⟩]) ∧
    (∀ (scope : ScopeId) (store before : Store) (s : Stmt) (array : ArrayId) (key : String)
      (value : Value),
      s.AssignsTo (invoke rounds depth) scope store (.array array) key value before →
      ∃ earlier, s.deeds (invoke rounds depth) (invokeDeeds rounds depth) rounds scope store =
        earlier ++ [⟨.assign array key value, before⟩]) ∧
    (∀ (scope : ScopeId) (store middle : Store) (position : Position) (object : Expr)
      (array : ArrayId) (method : Method),
      object.eval (invoke rounds depth) scope store = .ok (.array array) middle →
      (Expr.member position object method.name).eval (invoke rounds depth) scope store =
        .ok (.function middle.functions.size)
          { middle with
            functions := middle.functions.push (.builtin method.name (.method method array)) }) ∧
    (∀ (method : Method) (arguments contents : List Value),
      Deque.call? method arguments contents = none ↔ arguments.length ≠ method.arity) ∧
    (∀ expected given : Nat, (Fault.argumentCount expected given).message =
      s!"Expected {expected} arguments, got {given}") ∧
    (∀ (limits : Limits) (sources : List String),
      let session := Session.start.submitAll limits sources
      session.store.Whole ∧ session.store.Has (.scope Store.globalScope)) := by
  refine ⟨?_, ?_, ?_, ?_, ?_, ?_, ?_⟩
  · intro scope body store whole has
    have knows : (present store).Knows store .zero := knows_of_none rfl
    have within : (present store).Within store (.scope scope) := .inl has
    have recounts := execBlock_recounts (invoke_recounts rounds depth) rounds body knows within
    exact (recounts store (.refl store) whole.held).2.actAsDeques
  · intro scope store middle before position callee arguments id name method array values
      evaluated found given
    exact Expr.call_of_method evaluated found given
  · intro scope store before s array key value assigns
    exact assigns.deeds_eq
  · intro scope store middle position object array method evaluated
    exact Expr.member_of_array method evaluated
  · intro method arguments contents
    exact Deque.call?_eq_none_iff
  · intro expected given
    rfl
  · intro limits sources
    have sound : (Session.start.submitAll limits sources).store.Sound :=
      Session.sound_submitAll sources Store.sound_initial
    exact ⟨sound.whole, sound.outermost⟩

/-- One method of an array in a variable, another one in an object, and a third one used at once. -/
def keptMethods : List Stmt :=
  [.declare default "a" false (.array default [.nan default]),
    .declare default "p" false (.member default (.identifier default "a") "push"),
    .declare default "box" false
      (.object default [("m", .member default (.identifier default "a") "unshift")]),
    .expression (.call default (.identifier default "p") [.boolean default true]),
    .expression (.call default (.member default (.identifier default "box") "m")
      [.boolean default false]),
    .expression (.call default (.member default (.identifier default "a") "pop") [])]

/-- A method of a new array, and what it leaves. -/
def newPush : Expr := .member default (.array default []) "push"

def afterNewPush : Store :=
  { Store.initial with
    arrays := #[#[]]
    functions := Store.initial.functions.push (.builtin "push" (.method .push 0)) }

/-- All three are calls of one array, and a call without an argument fails. -/
theorem keptMethods_share_array :
    Store.initial.Whole ∧ Store.initial.Has (.scope 0) ∧
    (blockDeeds (invoke 2 2) (invokeDeeds 2 2) 2 0 keptMethods Store.initial).map (·.action) =
      [.create [.number .nan], .call 0 .push [.boolean true], .call 0 .unshift [.boolean false],
        .call 0 .pop []] ∧
    (((execBlock (invoke 2 2) 2 0 .zero keptMethods).final Store.initial).elements 0).toList =
      [.boolean false, .number .nan] ∧
    (Expr.call default newPush []).eval (invoke 2 2) 0 Store.initial =
      .error (.argumentCount 1 0) afterNewPush := by
  obtain ⟨runs, calls, _⟩ := array_methods_are_deque_operations 2 2
  have deques := runs 0 keptMethods Store.initial Store.whole_initial Nat.zero_lt_one
  refine ⟨Store.whole_initial, Nat.zero_lt_one, by decide +kernel, ?_, ?_⟩
  · rw [deques.contents 0]
    decide +kernel
  · exact (calls 0 Store.initial afterNewPush afterNewPush default newPush [] 1 "push" .push 0 []
      rfl rfl rfl).1

end Script
