import Script.Proofs.Eval.Licence
import Script.Proofs.Eval.Wholeness

/-!
# What happens to arrays

Arrays are made, changed by calls of their methods, and changed by assignments to their elements.
`Expr.deeds` and its like list these *deeds* in the order in which a run does them: each with the
store in which it is done. A call is a deed of the array that its method was taken from, whatever
the expression was that the method came from.

`Chronicle` says that the deeds of a run are all that happens to arrays: between two deeds no array
changes and no function is lost, and each deed is done to an array that exists. `Run.Recounts` says
so of a computation and its list of deeds, from every store in which nothing leads astray.

* `execBlock_recounts`, `invoke_recounts`: the deeds of a block and of a call are a chronicle.
-/

namespace Script

/-! ## Deeds -/

/-- Something that is done to an array. -/
inductive Action where
  | create (elements : List Value)
  | call (array : ArrayId) (method : Method) (arguments : List Value)
  | assign (array : ArrayId) (key : String) (value : Value)
deriving DecidableEq, Repr

/-- Does it. -/
def Action.run : Action → Run Value
  | .create elements => Run.newArray elements
  | .call array method arguments => Run.builtin (.method method array) arguments
  | .assign array key value => do
    Run.writeElement array key value
    return value

/-- Something that is done to an array in a store. -/
structure Deed where
  action : Action
  before : Store
deriving Repr

namespace Deed

/-- The array that it is done to. A new one has the next number. -/
def array (deed : Deed) : ArrayId :=
  match deed.action with
  | .create _ => deed.before.arrays.size
  | .call array _ _ => array
  | .assign array _ _ => array

/-- The store afterwards. -/
def after (deed : Deed) : Store := deed.action.run.final deed.before

/-- The array exists, unless it is made. -/
def Stands (deed : Deed) : Prop :=
  match deed.action with
  | .create _ => True
  | .call array _ _ => deed.before.Has (.array array)
  | .assign array _ _ => deed.before.Has (.array array)

end Deed

/-- The deeds of a computation from a store on. -/
abbrev Deeds := Store → List Deed

namespace Deeds

variable {α : Type}

def none : Deeds := fun _ => []

/-- One deed. -/
def one (action : Action) : Deeds := fun store => [⟨action, store⟩]

/-- The deeds of a computation and of what goes on with its result. -/
def andThen (first : Deeds) (run : Run α) (next : α → Deeds) : Deeds := fun store =>
  first store ++
    match run store with
    | .ok value after => next value after
    | .error _ _ => []

/-- The deeds of a write by a key, which is computed only for arrays and objects. -/
def writing (target : Value) (key : Run String) (ofKey : Deeds) (value : Value) : Deeds :=
  match target with
  | .array id => ofKey.andThen key fun text => one (.assign id text value)
  | .object _ => ofKey
  | _ => none

end Deeds

open Deeds

mutual

/-- The deeds of an expression, given those of calls. -/
def Expr.deeds (call : Call) (inner : Callable → List Value → Deeds) (scope : ScopeId) :
    Expr → Deeds
  | .array _ elements =>
    (elementDeeds call inner scope elements).andThen (evalElements call scope elements)
      fun values => one (.create values)
  | .object _ properties => propertyDeeds call inner scope properties
  | .binary _ _ left right =>
    (left.deeds call inner scope).andThen (left.eval call scope) fun _ =>
      right.deeds call inner scope
  | .unary _ _ operand => operand.deeds call inner scope
  | .member _ object _ => object.deeds call inner scope
  | .computed _ object key =>
    (object.deeds call inner scope).andThen (object.eval call scope) fun _ =>
      key.deeds call inner scope
  | .call _ callee arguments =>
    (callee.deeds call inner scope).andThen (callee.eval call scope) fun value =>
      none.andThen (callable value) fun function =>
        (elementDeeds call inner scope arguments).andThen (evalElements call scope arguments)
          fun values => inner function values
  | .number _ _ | .string _ _ | .boolean _ _ | .null _ | .nan _ => none
  | .identifier _ _ | .foreign _ _ => none

/-- The deeds of expressions from left to right. -/
def elementDeeds (call : Call) (inner : Callable → List Value → Deeds) (scope : ScopeId) :
    List Expr → Deeds
  | [] => none
  | e :: rest =>
    (e.deeds call inner scope).andThen (e.eval call scope) fun _ =>
      elementDeeds call inner scope rest

/-- The deeds of properties from left to right. -/
def propertyDeeds (call : Call) (inner : Callable → List Value → Deeds) (scope : ScopeId) :
    List (String × Expr) → Deeds
  | [] => none
  | (_, e) :: rest =>
    (e.deeds call inner scope).andThen (e.eval call scope) fun _ =>
      propertyDeeds call inner scope rest

end

/-- The deeds of a counting loop, given those of its parts. -/
def countingDeeds (condition : Run Bool) (ofCondition : Deeds) (body : Run Signal)
    (ofBody : Deeds) (update : Run Unit) (ofUpdate : Deeds) : (rounds : Nat) → Deeds
  | 0 => none
  | rounds + 1 =>
    ofCondition.andThen condition fun holds =>
      if holds then
        ofBody.andThen body fun signal =>
          match signal with
          | .broke | .returned _ => none
          | .normal _ | .continued =>
            ofUpdate.andThen update fun _ =>
              countingDeeds condition ofCondition body ofBody update ofUpdate rounds
      else none

/-- The deeds of a loop through an array, given those of its body. -/
def throughDeeds (array : ArrayId) (body : Value → Run Signal) (ofBody : Value → Deeds) :
    (rounds index : Nat) → Deeds
  | 0, _ => none
  | rounds + 1, index => fun store =>
    match (store.elements array)[index]? with
    | .none => []
    | .some element =>
      (ofBody element).andThen (body element) (fun signal =>
        match signal with
        | .broke | .returned _ => none
        | .normal _ | .continued => throughDeeds array body ofBody rounds (index + 1)) store

mutual

/-- The deeds of a statement, given those of calls. -/
def Stmt.deeds (call : Call) (inner : Callable → List Value → Deeds) (rounds : Nat)
    (scope : ScopeId) : Stmt → Deeds
  | .declare _ _ _ value => value.deeds call inner scope
  | .assign _ _ value => value.deeds call inner scope
  | .assignMember _ object property value =>
    (object.deeds call inner scope).andThen (object.eval call scope) fun target =>
      (value.deeds call inner scope).andThen (value.eval call scope) fun x =>
        writing target (return property) none x
  | .assignComputed _ object key value =>
    (object.deeds call inner scope).andThen (object.eval call scope) fun target =>
      (value.deeds call inner scope).andThen (value.eval call scope) fun x =>
        writing target (do
          let keyValue ← key.eval call scope
          return (← get).display keyValue) (key.deeds call inner scope) x
  | .procedure _ _ _ _ => none
  | .returns _ value => value.deeds call inner scope
  | .leave _ => none
  | .proceed _ => none
  | .incase _ condition body fallback =>
    (condition.deeds call inner scope).andThen (condition.eval call scope) fun value =>
      none.andThen (truth .incase value) fun holds =>
        if holds then blockDeeds call inner rounds scope body
        else fallback.deeds call inner rounds scope
  | .drift _ init condition update body =>
    none.andThen (Run.openScope scope) fun inside =>
      (init.deeds call inner rounds inside).andThen (init.exec call rounds inside) fun _ =>
        countingDeeds (do return (← condition.eval call inside).isTruthy)
          (condition.deeds call inner inside) (execBlock call rounds inside .zero body)
          (blockDeeds call inner rounds inside body)
          (do let _ ← update.exec call rounds inside)
          (update.deeds call inner rounds inside) rounds
  | .through _ name constant iterable body =>
    (iterable.deeds call inner scope).andThen (iterable.eval call scope) fun value =>
      match value with
      | .array id =>
        throughDeeds id
          (fun element => do
            let inside ← Run.openScope scope
            Run.define inside name element constant
            execBlock call rounds inside .zero body)
          (fun element => none.andThen (Run.openScope scope) fun inside =>
            none.andThen (Run.define inside name element constant) fun _ =>
              blockDeeds call inner rounds inside body) rounds 0
      | _ => none
  | .expression value => value.deeds call inner scope

/-- The deeds of a fallback. -/
def Fallback.deeds (call : Call) (inner : Callable → List Value → Deeds) (rounds : Nat)
    (scope : ScopeId) : Fallback → Deeds
  | .nothing => none
  | .block body => blockDeeds call inner rounds scope body
  | .elif _ condition body fallback =>
    (condition.deeds call inner scope).andThen (condition.eval call scope) fun value =>
      none.andThen (truth .elif value) fun holds =>
        if holds then blockDeeds call inner rounds scope body
        else fallback.deeds call inner rounds scope

/-- The deeds of a block, up to the first signal that is not normal. -/
def blockDeeds (call : Call) (inner : Callable → List Value → Deeds) (rounds : Nat)
    (scope : ScopeId) : List Stmt → Deeds
  | [] => none
  | first :: rest =>
    (first.deeds call inner rounds scope).andThen (first.exec call rounds scope) fun signal =>
      match signal with
      | .normal _ => blockDeeds call inner rounds scope rest
      | _ => none

end

/-- The deeds of a call. That of a method is one deed, of the array that the method belongs to. -/
def invokeDeeds (rounds : Nat) : (depth : Nat) → Callable → List Value → Deeds
  | depth, function, arguments =>
    match function with
    | .builtin _ .console => none
    | .builtin _ (.method method array) => one (.call array method arguments)
    | .procedure procedure =>
      if arguments.length ≠ procedure.parameters.length then none
      else
        match depth with
        | 0 => none
        | depth + 1 =>
          none.andThen (Run.openScope procedure.scope) fun frame =>
            none.andThen (bindParameters frame (procedure.parameters.zip arguments)) fun _ =>
              blockDeeds (invoke rounds depth) (invokeDeeds rounds depth) rounds frame
                procedure.body

/-! ## Chronicles -/

/-- No array changes, and no function is lost. -/
structure Store.Quiet (store after : Store) : Prop where
  arrays : after.arrays = store.arrays
  functions : ∃ more, after.functions = store.functions ++ more

theorem Store.Quiet.refl (store : Store) : store.Quiet store :=
  ⟨rfl, #[], Array.append_empty.symm⟩

theorem Store.Quiet.trans {first second third : Store} (one : first.Quiet second)
    (two : second.Quiet third) : first.Quiet third := by
  obtain ⟨more, grown⟩ := one.functions
  obtain ⟨further, grownOn⟩ := two.functions
  exact ⟨two.arrays.trans one.arrays, more ++ further, by rw [grownOn, grown, Array.append_assoc]⟩

/-- Some deeds are all that happens to arrays between one store and another. -/
def Chronicle : Store → List Deed → Store → Prop
  | store, [], after => store.Quiet after
  | store, deed :: rest, after =>
    store.Quiet deed.before ∧ deed.Stands ∧ Chronicle deed.after rest after

namespace Chronicle

variable {first second third : Store} {deeds more : List Deed}

theorem of_quiet_left (quiet : first.Quiet second) (rest : Chronicle second deeds third) :
    Chronicle first deeds third := by
  cases deeds with
  | nil => exact quiet.trans rest
  | cons deed deeds => exact ⟨quiet.trans rest.1, rest.2⟩

theorem append (one : Chronicle first deeds second) (two : Chronicle second more third) :
    Chronicle first (deeds ++ more) third := by
  -- on the deeds of the first part
  induction deeds generalizing first with
  | nil => exact of_quiet_left one two
  | cons deed deeds ih => exact ⟨one.1, one.2.1, ih one.2.2⟩

/-- A chronicle up to a deed and one from there on. -/
theorem split {earlier later : List Deed} {deed : Deed}
    (chronicle : Chronicle first (earlier ++ deed :: later) second) :
    Chronicle first earlier deed.before ∧ deed.Stands ∧ Chronicle deed.after later second := by
  induction earlier generalizing first with
  | nil => exact chronicle
  | cons head earlier ih =>
    obtain ⟨quiet, stands, rest⟩ := chronicle
    obtain ⟨before, standsToo, after⟩ := ih rest
    exact ⟨⟨quiet, stands, before⟩, standsToo, after⟩

end Chronicle

/-! ## Computations -/

/-- No array changes, and no function is lost; any fault may occur. -/
def Licence.quiet : Licence where
  change := Store.Quiet
  fault := fun _ => True
  refl := .refl
  trans := .trans
  ordinary := fun _ => trivial

open Run Bounds

variable {origin world store : Store} {α β : Type}

namespace Run

variable {wanted : Store → α → Prop} {goal : Store → β → Prop} {deeds : Deeds}

/-- From every store that a world grows to and in which nothing leads astray, a computation leads to
such a store, with a result as wanted, and some deeds are its chronicle. -/
def Recounts (origin world : Store) (wanted : Store → α → Prop) (run : Run α) (deeds : Deeds) :
    Prop :=
  ∀ store, world.Grows store → (present origin).Held store →
    Ends (present origin) store wanted (run store) ∧
      Chronicle store (deeds store) (run.final store)

theorem recounts_quiet {run : Run α} (upholds : Upholds (present origin) world wanted run)
    (quiet : run.Obeys .quiet) : Recounts origin world wanted run none :=
  fun store grows held => ⟨upholds store grows held, (quiet store).1⟩

theorem recounts_pure {value : α} (holds : ∀ store, world.Grows store → wanted store value) :
    Recounts origin world wanted (pure value) none :=
  recounts_quiet (upholds_pure holds) (obeys_pure value)

theorem recounts_throw {fault : Fault} : Recounts origin world wanted (throw fault) none :=
  recounts_quiet (upholds_throw trivial) (obeys_throw trivial)

/-- A computation that is one deed, of an array that exists. -/
theorem recounts_deed {run : Run α} {action : Action}
    (upholds : Upholds (present origin) world wanted run)
    (same : ∀ store, run.final store = action.run.final store)
    (stands : ∀ store, world.Grows store → (present origin).Held store →
      Deed.Stands ⟨action, store⟩) : Recounts origin world wanted run (one action) := by
  intro store grows held
  refine ⟨upholds store grows held, .refl store, stands store grows held, ?_⟩
  rw [same]
  exact .refl _

/-- The deeds of two computations, one after the other. The second starts in the store the first one
leaves. -/
theorem recounts_bind {first : Run α} {next : α → Run β} {more : α → Deeds}
    (head : Recounts origin world wanted first deeds)
    (tail : ∀ later value, world.Grows later → wanted later value →
      Recounts origin later goal (next value) (more value)) :
    Recounts origin world goal (first >>= next) (deeds.andThen first more) := by
  intro store grows held
  obtain ⟨ends, chronicle⟩ := head store grows held
  -- the two halves are independent: what a run upholds is known without its deeds
  refine ⟨upholds_bind (fun s g h => (head s g h).1)
    (fun later value grown holds s g h => (tail later value grown holds s g h).1)
    store grows held, ?_⟩
  unfold Deeds.andThen
  cases ran : first store with
  | ok value middle =>
    rw [ran] at ends
    rw [final_of_ok ran] at chronicle
    rw [final_bind_of_ok ran]
    obtain ⟨heldThere, grown, holds⟩ := ends
    have rest := tail middle value (grows.trans grown) holds middle (.refl middle) heldThere
    exact chronicle.append rest.2
  | error fault middle =>
    rw [final_of_error ran] at chronicle
    rw [final_bind_of_error ran, List.append_nil]
    exact chronicle

/-- A last step that does nothing to arrays. -/
theorem recounts_finish {first : Run α} {next : α → Run β}
    (head : Recounts origin world wanted first deeds)
    (tail : ∀ later value, world.Grows later → wanted later value →
      Recounts origin later goal (next value) none) :
    Recounts origin world goal (first >>= next) deeds := by
  have both := recounts_bind head tail
  -- what goes on has no deeds, so the list is that of the first part
  have same : deeds.andThen first (fun _ => none) = deeds := by
    funext store
    unfold Deeds.andThen Deeds.none
    split <;> exact List.append_nil _
  rwa [same] at both

/-- What goes on with the store as it is. -/
theorem recounts_get_bind {next : Store → Run α}
    (tail : ∀ store, world.Grows store → (present origin).Held store →
      Ends (present origin) store wanted (next store store) ∧
        Chronicle store (deeds store) ((next store).final store)) :
    Recounts origin world wanted (get >>= next) deeds :=
  tail

/-- A result to go on with changes nothing. -/
theorem final_then_pure (run : Run α) (value : β) (store : Store) :
    (run >>= fun _ => pure value).final store = run.final store := by
  cases ran : run store with
  | ok result after =>
    rw [final_bind_of_ok ran, final_of_ok ran]
    rfl
  | error fault after => rw [final_bind_of_error ran, final_of_error ran]

/-! ## Steps that do nothing to arrays -/

theorem quiet_scopes (store : Store) (scopes : Scopes Value) :
    Licence.quiet.change store { store with scopes } :=
  ⟨rfl, #[], Array.append_empty.symm⟩

theorem quiet_newObject (properties : List (String × Value)) :
    (newObject properties).Obeys .quiet :=
  obeys_modifyGet fun _ => ⟨rfl, #[], Array.append_empty.symm⟩

theorem quiet_newFunction (function : Callable) : (newFunction function).Obeys .quiet :=
  obeys_modifyGet fun _ => ⟨rfl, #[function], Array.push_eq_append⟩

theorem quiet_writeProperty (object : ObjectId) (key : String) (value : Value) :
    (writeProperty object key value).Obeys .quiet :=
  obeys_modify fun _ => ⟨rfl, #[], Array.append_empty.symm⟩

theorem quiet_print (value : Value) : (print value).Obeys .quiet :=
  obeys_modify fun _ => ⟨rfl, #[], Array.append_empty.symm⟩

/-- A write is one deed if it is to an array, and changes no array if it is to an object. -/
theorem recounts_writeMember {target value : Value} {key : Run String} {ofKey : Deeds}
    (knowsTarget : (present origin).Knows world target)
    (knows : (present origin).Knows world value)
    (keys : Recounts origin world anything key ofKey) :
    Recounts origin world anything (writeMember target key value)
      (writing target key ofKey value) := by
  cases target with
  -- the write itself is the deed; the key is computed before it
  | array id =>
    have within : (present origin).Within world (.array id) := knowsTarget _ rfl
    refine recounts_bind keys ?_
    intro later text grows _
    refine recounts_deed (upholds_writeElement (within.mono grows) (knows.mono grows) text) ?_ ?_
    · intro store
      exact (final_then_pure _ value store).symm
    · intro store grown held
      exact has_of_within held within (grows.trans grown)
  | object id =>
    have within : (present origin).Within world (.object id) := knowsTarget _ rfl
    refine recounts_finish keys ?_
    intro later text grows _
    exact recounts_quiet (upholds_writeProperty (within.mono grows) (knows.mono grows) text)
      (quiet_writeProperty _ _ _)
  | _ => exact recounts_throw

/-- A call of a method is one deed. -/
theorem recounts_builtin {name : String} {action : Builtin} {arguments : List Value}
    (permits : (present origin).Permits world (.builtin name action))
    (knows : ∀ value ∈ arguments, (present origin).Knows world value) (rounds depth : Nat) :
    Recounts origin world (known (present origin)) (builtin action arguments)
      (invokeDeeds rounds depth (.builtin name action) arguments) := by
  have upholds := upholds_builtin permits knows
  cases action with
  | console =>
    unfold invokeDeeds
    refine recounts_quiet upholds ?_
    unfold builtin
    split
    · exact obeys_bind (quiet_print _) fun _ => obeys_pure _
    all_goals first | contradiction | exact obeys_fault rfl
  | method method array =>
    unfold invokeDeeds
    refine recounts_deed upholds (fun _ => rfl) ?_
    intro store grows held
    exact has_of_within held permits grows

/-! ## Signals and loops -/

/-- The value of a signal, if it has one, is known. -/
def carried (origin : Store) : Store → Signal → Prop
  | store, .normal value => (present origin).Knows store value
  | store, .returned value => (present origin).Knows store value
  | _, .broke => True
  | _, .continued => True

theorem carried_mono {first second : Store} {signal : Signal}
    (carries : carried origin first signal) (grows : first.Grows second) :
    carried origin second signal := by
  cases signal with
  | normal value => exact Knows.mono carries grows
  | returned value => exact Knows.mono carries grows
  | broke | continued => trivial

theorem recounts_normal {value : Value} (knows : (present origin).Knows world value) :
    Recounts origin world (carried origin) (pure (.normal value)) none :=
  recounts_pure fun _ grows => knows.mono grows

/-- A block or a loop without a value of its own. -/
theorem recounts_zero : Recounts origin world (carried origin) (pure (.normal .zero)) none :=
  recounts_normal (knows_of_none rfl)

theorem recounts_countingLoop {scope : ScopeId} {condition : Run Bool} {body : Run Signal}
    {update : Run Unit} {ofCondition ofBody ofUpdate : Deeds}
    (test : ∀ {world}, (present origin).Within world (.scope scope) →
      Recounts origin world anything condition ofCondition)
    (round : ∀ {world}, (present origin).Within world (.scope scope) →
      Recounts origin world (carried origin) body ofBody)
    (step : ∀ {world}, (present origin).Within world (.scope scope) →
      Recounts origin world anything update ofUpdate) (rounds : Nat) :
    ∀ {world}, (present origin).Within world (.scope scope) →
      Recounts origin world (carried origin) (countingLoop condition body update rounds)
        (countingDeeds condition ofCondition body ofBody update ofUpdate rounds) := by
  -- by induction on the rounds. The scope of the loop stays within the bounds, and that is all the
  -- parts of a round ask for
  induction rounds with
  | zero => exact fun _ => recounts_throw
  | succ rounds ih =>
    intro world within
    refine recounts_bind (test within) ?_
    intro later holds grows _
    cases holds with
    | false => exact recounts_zero
    | true =>
      refine recounts_bind (round (within.mono grows)) ?_
      intro there signal grown carries
      have withinThere := within.mono (grows.trans grown)
      cases signal with
      | broke => exact recounts_zero
      | returned value => exact recounts_pure fun _ more => carried_mono carries more
      | normal _ | continued =>
        refine recounts_bind (step withinThere) ?_
        intro last _ more _
        exact ih (withinThere.mono more)

theorem recounts_throughLoop {scope : ScopeId} {array : ArrayId} {body : Value → Run Signal}
    {ofBody : Value → Deeds}
    (round : ∀ {world element}, (present origin).Within world (.scope scope) →
      (present origin).Knows world element →
      Recounts origin world (carried origin) (body element) (ofBody element)) (rounds : Nat) :
    ∀ {world} (index : Nat), (present origin).Within world (.scope scope) →
      (present origin).Within world (.array array) →
      Recounts origin world (carried origin) (throughLoop array body rounds index)
        (throughDeeds array body ofBody rounds index) := by
  -- by induction on the rounds. An element that is taken is one of the array's at that time, so it
  -- is known
  induction rounds with
  | zero => exact fun _ _ _ => recounts_throw
  | succ rounds ih =>
    intro world index within withinArray
    refine recounts_get_bind ?_
    intro store grows held
    -- each round reads the array as it is by then, so the body may add rounds or end them
    unfold throughDeeds
    cases found : (store.elements array)[index]? with
    | none => exact recounts_zero store (.refl store) held
    | some element =>
      have knows : (present origin).Knows store element := fun node refers =>
        held.closed (withinArray.mono grows) (.element (Array.mem_of_getElem? found) refers)
      refine recounts_bind (round (within.mono grows) knows) ?_ store (.refl store) held
      intro there signal grown carries
      cases signal with
      | broke => exact recounts_zero
      | returned value => exact recounts_pure fun _ more => carried_mono carries more
      | normal _ | continued =>
        exact ih (index + 1) (within.mono (grows.trans grown))
          (withinArray.mono (grows.trans grown))

end Run

/-! ## Expressions -/

/-- Calls of functions that may be called are recounted. -/
def CallsRecount (origin : Store) (call : Call) (inner : Callable → List Value → Deeds) : Prop :=
  ∀ {world function arguments}, (present origin).Permits world function →
    (∀ value ∈ arguments, (present origin).Knows world value) →
    Recounts origin world (known (present origin)) (call function arguments)
      (inner function arguments)

section

variable {call : Call} {inner : Callable → List Value → Deeds}

mutual

/-- The deeds of an expression are its chronicle, if those of calls are. -/
theorem Expr.eval_recounts (calls : CallsRecount origin call inner) {scope : ScopeId} :
    ∀ (e : Expr) {world : Store}, (present origin).Within world (.scope scope) →
      Recounts origin world (known (present origin)) (e.eval call scope)
        (e.deeds call inner scope)
  | .number _ _, _, _ | .string _ _, _, _ | .boolean _ _, _, _ | .null _, _, _ | .nan _, _, _ => by
    rw [Expr.eval, Expr.deeds]
    exact recounts_quiet (upholds_plain rfl) (obeys_pure _)
  | .identifier _ name, _, within => by
    rw [Expr.eval, Expr.deeds]
    exact recounts_quiet (upholds_lookup within) (obeys_lookup _ _)
  | .array _ elements, _, within => by
    rw [Expr.eval, Expr.deeds]
    refine recounts_bind (evalElements_recounts calls elements within) ?_
    intro later values _ knows
    exact recounts_deed (upholds_newArray knows) (fun _ => rfl) fun _ _ _ => trivial
  | .object _ properties, _, within => by
    rw [Expr.eval, Expr.deeds]
    refine recounts_finish (evalProperties_recounts calls properties within) ?_
    intro later entries _ knows
    exact recounts_quiet (upholds_newObject knows) (quiet_newObject _)
  | .binary _ operator left right, _, within => by
    rw [Expr.eval, Expr.deeds]
    refine recounts_bind (left.eval_recounts calls within) ?_
    intro later x grows _
    refine recounts_finish (right.eval_recounts calls (within.mono grows)) ?_
    intro last y _ _
    refine recounts_quiet ?_ (obeys_get_bind fun store => obeys_binary operator x y store)
    refine upholds_get_bind fun store _ _ => upholds_lift ?_ fun _ _ => trivial
    intro value computed _ _
    exact knows_of_none (Store.binary_plain computed)
  | .unary _ operator operand, _, within => by
    rw [Expr.eval, Expr.deeds]
    refine recounts_finish (operand.eval_recounts calls within) ?_
    intro later x _ _
    refine recounts_quiet (upholds_lift ?_ fun _ _ => trivial) (obeys_unary operator x)
    intro value computed _ _
    exact knows_of_none (Store.unary_plain computed)
  | .member _ object property, _, within => by
    rw [Expr.eval, Expr.deeds]
    refine recounts_finish (object.eval_recounts calls within) ?_
    intro later target _ knows
    exact recounts_quiet (upholds_readMember knows property)
      (obeys_readMember (fun _ _ => quiet_newFunction _) target property)
  | .computed _ object key, _, within => by
    rw [Expr.eval, Expr.deeds]
    refine recounts_bind (object.eval_recounts calls within) ?_
    intro later target grows knows
    refine recounts_finish (key.eval_recounts calls (within.mono grows)) ?_
    intro last keyValue grown _
    refine recounts_quiet ?_ (obeys_get_bind fun _ => obeys_readComputed target _)
    refine upholds_get_bind ?_
    intro store more _
    exact upholds_readComputed (knows.mono (grown.trans more)) _
  | .call _ callee arguments, _, within => by
    rw [Expr.eval, Expr.deeds]
    refine recounts_bind (callee.eval_recounts calls within) ?_
    intro later value grows knows
    refine recounts_bind (recounts_quiet (upholds_callable knows) (obeys_callable value)) ?_
    intro there function grown permits
    -- what is called is settled before the arguments are evaluated
    have withinThere := within.mono (grows.trans grown)
    refine recounts_bind (evalElements_recounts calls arguments withinThere) ?_
    intro last values more knowsAll
    exact calls (permits.mono more) knowsAll
  | .foreign _ _, _, _ => by
    rw [Expr.eval, Expr.deeds]
    exact recounts_throw

/-- Values that are known already stay known while the others are evaluated. -/
theorem evalElements_recounts (calls : CallsRecount origin call inner) {scope : ScopeId} :
    ∀ (elements : List Expr) {world : Store}, (present origin).Within world (.scope scope) →
      Recounts origin world
        (fun later values => ∀ value ∈ values, (present origin).Knows later value)
        (evalElements call scope elements) (elementDeeds call inner scope elements)
  | [], _, _ => by
    rw [evalElements, elementDeeds]
    exact recounts_pure fun _ _ _ member => by cases member
  | e :: rest, _, within => by
    rw [evalElements, elementDeeds]
    refine recounts_bind (e.eval_recounts calls within) ?_
    intro later value grows knows
    refine recounts_finish (evalElements_recounts calls rest (within.mono grows)) ?_
    intro last values grown knowsRest
    refine recounts_pure ?_
    intro there more
    refine List.forall_mem_cons.mpr ⟨knows.mono (grown.trans more), ?_⟩
    intro other member
    exact (knowsRest other member).mono more

theorem evalProperties_recounts (calls : CallsRecount origin call inner) {scope : ScopeId} :
    ∀ (properties : List (String × Expr)) {world : Store},
      (present origin).Within world (.scope scope) →
      Recounts origin world
        (fun later entries => ∀ entry ∈ entries, (present origin).Knows later entry.2)
        (evalProperties call scope properties) (propertyDeeds call inner scope properties)
  | [], _, _ => by
    rw [evalProperties, propertyDeeds]
    exact recounts_pure fun _ _ _ member => by cases member
  | (key, e) :: rest, _, within => by
    rw [evalProperties, propertyDeeds]
    refine recounts_bind (e.eval_recounts calls within) ?_
    intro later value grows knows
    refine recounts_finish (evalProperties_recounts calls rest (within.mono grows)) ?_
    intro last entries grown knowsRest
    refine recounts_pure ?_
    intro there more
    refine List.forall_mem_cons.mpr ⟨knows.mono (grown.trans more), ?_⟩
    intro other member
    exact (knowsRest other member).mono more

end

/-! ## Statements -/

mutual

/-- The deeds of a statement are its chronicle, if those of calls are. -/
theorem Stmt.exec_recounts (calls : CallsRecount origin call inner) (rounds : Nat) :
    ∀ (s : Stmt) {scope : ScopeId} {world : Store}, (present origin).Within world (.scope scope) →
      Recounts origin world (carried origin) (s.exec call rounds scope)
        (s.deeds call inner rounds scope)
  | .declare _ name constant value, scope, _, within => by
    rw [Stmt.exec, Stmt.deeds]
    refine recounts_finish (value.eval_recounts calls within) ?_
    intro later x grows knows
    refine recounts_finish (recounts_quiet (upholds_define (within.mono grows) knows)
      (obeys_define quiet_scopes _ _ _ _)) ?_
    intro last _ grown _
    exact recounts_normal (knows.mono grown)
  | .assign _ name value, scope, _, within => by
    rw [Stmt.exec, Stmt.deeds]
    refine recounts_finish (value.eval_recounts calls within) ?_
    intro later x grows knows
    refine recounts_finish (recounts_quiet (upholds_assign (within.mono grows) knows)
      (obeys_assign quiet_scopes _ _ _)) ?_
    intro last _ grown _
    exact recounts_normal (knows.mono grown)
  | .assignMember _ object property value, scope, _, within => by
    rw [Stmt.exec, Stmt.deeds]
    refine recounts_bind (object.eval_recounts calls within) ?_
    intro later target grows knowsTarget
    refine recounts_bind (value.eval_recounts calls (within.mono grows)) ?_
    intro there x grown knows
    refine recounts_finish (recounts_writeMember (knowsTarget.mono grown) knows
      (recounts_pure fun _ _ => trivial)) ?_
    intro last _ more _
    exact recounts_normal (knows.mono more)
  | .assignComputed _ object key value, scope, _, within => by
    rw [Stmt.exec, Stmt.deeds]
    refine recounts_bind (object.eval_recounts calls within) ?_
    intro later target grows knowsTarget
    refine recounts_bind (value.eval_recounts calls (within.mono grows)) ?_
    intro there x grown knows
    refine recounts_finish (recounts_writeMember (knowsTarget.mono grown) knows ?_) ?_
    · refine recounts_finish (key.eval_recounts calls (within.mono (grows.trans grown))) ?_
      intro last keyValue _ _
      exact recounts_quiet (upholds_get_bind fun _ _ _ => upholds_pure fun _ _ => trivial)
        (obeys_get_bind fun _ => obeys_pure _)
    · intro last _ more _
      exact recounts_normal (knows.mono more)
  | .procedure _ name parameters body, scope, _, within => by
    rw [Stmt.exec, Stmt.deeds]
    refine recounts_finish (recounts_quiet (upholds_newFunction ⟨within, fun _ _ => trivial⟩)
      (quiet_newFunction _)) ?_
    intro later function grows knows
    refine recounts_finish (recounts_quiet (upholds_define (within.mono grows) knows)
      (obeys_define quiet_scopes _ _ _ _)) ?_
    intro last _ grown _
    exact recounts_normal (knows.mono grown)
  | .returns _ value, scope, _, within => by
    rw [Stmt.exec, Stmt.deeds]
    refine recounts_finish (value.eval_recounts calls within) ?_
    intro later x _ knows
    exact recounts_pure fun last grown => knows.mono grown
  | .leave _, _, _, _ => by
    rw [Stmt.exec, Stmt.deeds]
    exact recounts_pure fun _ _ => trivial
  | .proceed _, _, _, _ => by
    rw [Stmt.exec, Stmt.deeds]
    exact recounts_pure fun _ _ => trivial
  | .incase _ condition body fallback, scope, _, within => by
    rw [Stmt.exec, Stmt.deeds]
    refine recounts_bind (condition.eval_recounts calls within) ?_
    intro later value grows _
    refine recounts_bind (recounts_quiet upholds_truth (obeys_truth _ _)) ?_
    intro there holds grown _
    have withinThere := within.mono (grows.trans grown)
    cases holds with
    | true => exact execBlock_recounts calls rounds body (knows_of_none rfl) withinThere
    | false => exact fallback.exec_recounts calls rounds withinThere
  | .drift _ init condition update body, scope, _, within => by
    rw [Stmt.exec, Stmt.deeds]
    refine recounts_bind (recounts_quiet (upholds_openScope within)
      (obeys_openScope quiet_scopes _)) ?_
    intro later inside _ withinInside
    refine recounts_bind (init.exec_recounts calls rounds withinInside) ?_
    intro there _ grown _
    refine recounts_countingLoop ?_ ?_ ?_ rounds (withinInside.mono grown)
    · intro world inWorld
      exact recounts_finish (condition.eval_recounts calls inWorld) fun _ _ _ _ =>
        recounts_pure fun _ _ => trivial
    · intro world inWorld
      exact execBlock_recounts calls rounds body (knows_of_none rfl) inWorld
    · intro world inWorld
      exact recounts_finish (update.exec_recounts calls rounds inWorld) fun _ _ _ _ =>
        recounts_pure fun _ _ => trivial
  | .through _ name constant iterable body, scope, _, within => by
    rw [Stmt.exec, Stmt.deeds]
    refine recounts_bind (iterable.eval_recounts calls within) ?_
    intro later value grows knows
    cases value with
    | array id =>
      refine recounts_throughLoop ?_ rounds 0 (within.mono grows) (knows _ rfl)
      intro world element inWorld knowsElement
      refine recounts_bind (recounts_quiet (upholds_openScope inWorld)
        (obeys_openScope quiet_scopes _)) ?_
      intro there inside grown withinInside
      refine recounts_bind (recounts_quiet (upholds_define withinInside (knowsElement.mono grown))
        (obeys_define quiet_scopes _ _ _ _)) ?_
      intro last _ more _
      exact execBlock_recounts calls rounds body (knows_of_none rfl) (withinInside.mono more)
    | _ => exact recounts_throw
  | .expression value, scope, _, within => by
    rw [Stmt.exec, Stmt.deeds]
    refine recounts_finish (value.eval_recounts calls within) ?_
    intro later x _ knows
    exact recounts_normal knows

theorem Fallback.exec_recounts (calls : CallsRecount origin call inner) (rounds : Nat) :
    ∀ (fallback : Fallback) {scope : ScopeId} {world : Store},
      (present origin).Within world (.scope scope) →
      Recounts origin world (carried origin) (fallback.exec call rounds scope)
        (fallback.deeds call inner rounds scope)
  | .nothing, _, _, _ => by
    rw [Fallback.exec, Fallback.deeds]
    exact recounts_zero
  | .block body, _, _, within => by
    rw [Fallback.exec, Fallback.deeds]
    exact execBlock_recounts calls rounds body (knows_of_none rfl) within
  | .elif _ condition body fallback, _, _, within => by
    rw [Fallback.exec, Fallback.deeds]
    refine recounts_bind (condition.eval_recounts calls within) ?_
    intro later value grows _
    refine recounts_bind (recounts_quiet upholds_truth (obeys_truth _ _)) ?_
    intro there holds grown _
    have withinThere := within.mono (grows.trans grown)
    cases holds with
    | true => exact execBlock_recounts calls rounds body (knows_of_none rfl) withinThere
    | false => exact fallback.exec_recounts calls rounds withinThere

theorem execBlock_recounts (calls : CallsRecount origin call inner) (rounds : Nat) :
    ∀ (body : List Stmt) {scope : ScopeId} {last : Value} {world : Store},
      (present origin).Knows world last → (present origin).Within world (.scope scope) →
      Recounts origin world (carried origin) (execBlock call rounds scope last body)
        (blockDeeds call inner rounds scope body)
  | [], _, _, _, knows, _ => by
    rw [execBlock, blockDeeds]
    exact recounts_normal knows
  | first :: rest, _, _, _, _, within => by
    rw [execBlock, blockDeeds]
    refine recounts_bind (first.exec_recounts calls rounds within) ?_
    intro later signal grows carries
    cases signal with
    | normal value => exact execBlock_recounts calls rounds rest carries (within.mono grows)
    | _ => exact recounts_pure fun _ more => carried_mono carries more

end

end

/-! ## Calls -/

theorem upholds_callResult_of_carried {signal : Signal} (carries : carried origin world signal) :
    Upholds (present origin) world (known (present origin)) (callResult signal) := by
  cases signal with
  | normal value => exact upholds_pure fun _ grows => Knows.mono carries grows
  | returned value => exact upholds_pure fun _ grows => Knows.mono carries grows
  | broke | continued => exact upholds_throw trivial

/-- The deeds of calls are their chronicles, however deep calls nest. -/
theorem invoke_recounts (rounds depth : Nat) :
    CallsRecount origin (invoke rounds depth) (invokeDeeds rounds depth) := by
  induction depth with
  | zero =>
    intro world function arguments permits knows
    cases function with
    | builtin name action => exact recounts_builtin permits knows rounds 0
    | procedure procedure =>
      unfold invoke invokeDeeds
      by_cases wrong : arguments.length ≠ procedure.parameters.length
      · simp only [if_pos wrong]
        exact recounts_throw
      · simp only [if_neg wrong]
        exact recounts_throw
  | succ depth ih =>
    intro world function arguments permits knows
    cases function with
    -- methods are no further level of calls
    | builtin name action => exact recounts_builtin permits knows rounds (depth + 1)
    | procedure procedure =>
      unfold invoke invokeDeeds
      by_cases wrong : arguments.length ≠ procedure.parameters.length
      · simp only [if_pos wrong]
        exact recounts_throw
      · simp only [if_neg wrong]
        refine recounts_bind (recounts_quiet (upholds_openScope permits.1)
          (obeys_openScope quiet_scopes _)) ?_
        intro later frame grows withinFrame
        -- parameters are bound to arguments, which are known
        have knowsEntries : ∀ entry ∈ procedure.parameters.zip arguments,
            (present origin).Knows later entry.2 := fun entry member =>
          (knows entry.2 (List.of_mem_zip member).2).mono grows
        refine recounts_bind (recounts_quiet (upholds_bindParameters withinFrame knowsEntries)
          (obeys_bindParameters quiet_scopes _ _)) ?_
        intro there _ grown _
        refine recounts_finish (execBlock_recounts ih rounds procedure.body (knows_of_none rfl)
          (withinFrame.mono grown)) ?_
        intro last signal _ carries
        exact recounts_quiet (upholds_callResult_of_carried carries) (obeys_callResult signal)

end Script
