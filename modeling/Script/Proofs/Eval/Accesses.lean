import Script.Proofs.Eval.Confinement

/-!
# Accesses to elements

The elements of arrays are read and written by keys. `Expr.accesses` and its like list the accesses
that a run makes, in order: each with its array, its key and the length of the array at that time.
Two accesses are refused whatever else happens: one by a key of too many digits, and a write too far
behind the end of the array (`Access.fault?`).

* `Settles`, `Exact`: a run ends with the fault of a refused access if and only if it makes such an
  access, which then is the only one.
-/

namespace Script

/-- An access to an element of an array. -/
structure Access where
  array : ArrayId
  key : String
  /-- How many elements the array has at the time. -/
  size : Nat
  writes : Bool
deriving DecidableEq, Repr

namespace Access

/-- Whether the key has nothing but digits, and too many. -/
def isLong (access : Access) : Bool :=
  Key.isDigits access.key.toList && decide (Fault.maxKeyDigits < access.key.toList.length)

/-- Whether a write is too far behind the end of the array. -/
def isHuge (access : Access) : Bool :=
  access.writes &&
    match Key.index? access.key with
    | .ok (some index) => decide (Key.maxGrowth < index + 1 - access.size)
    | _ => false

/-- Why an access is refused, if it is. -/
def fault? (access : Access) : Option Fault :=
  if access.isLong then some (.longKey access.key.toList.length)
  else if access.isHuge then some .hugeIndex
  else none

end Access

/-- Whether a fault is that of a refused access. -/
def Fault.isOfAccess : Fault → Bool
  | .longKey _ | .hugeIndex => true
  | _ => false

/-! ## Lists of accesses -/

/-- The accesses that a computation makes from a store on. -/
abbrev Accesses := Store → List Access

namespace Accesses

variable {α : Type}

def none : Accesses := fun _ => []

/-- The accesses of a computation and of what goes on with its result. -/
def andThen (first : Accesses) (run : Run α) (next : α → Accesses) : Accesses := fun store =>
  first store ++
    match run store with
    | .ok value after => next value after
    | .error _ _ => []

/-- An access by a key, if the target is an array. -/
def byKey (target : Value) (key : String) (writes : Bool) : Accesses := fun store =>
  match target with
  | .array id => [⟨id, key, (store.elements id).size, writes⟩]
  | _ => []

/-- A fixed name is a key, unless it is that of the length or of a method. -/
def byName (target : Value) (property : String) : Accesses :=
  match target with
  | .array _ =>
    if property = "length" ∨ (Method.ofName? property).isSome then none
    else byKey target property false
  | _ => none

/-- A write by a key, which is computed only for arrays and objects. -/
def writing (target : Value) (key : Run String) (ofKey : Accesses) : Accesses :=
  match target with
  | .array _ | .object _ => ofKey.andThen key fun text => byKey target text true
  | _ => none

end Accesses

open Accesses

mutual

/-- The accesses of an expression, given those of calls. -/
def Expr.accesses (call : Call) (inner : Callable → List Value → Accesses) (scope : ScopeId) :
    Expr → Accesses
  | .array _ elements => elementAccesses call inner scope elements
  | .object _ properties => propertyAccesses call inner scope properties
  | .binary _ _ left right =>
    (left.accesses call inner scope).andThen (left.eval call scope) fun _ =>
      right.accesses call inner scope
  | .unary _ _ operand => operand.accesses call inner scope
  | .member _ object property =>
    (object.accesses call inner scope).andThen (object.eval call scope) fun target =>
      byName target property
  | .computed _ object key =>
    (object.accesses call inner scope).andThen (object.eval call scope) fun target =>
      (key.accesses call inner scope).andThen (key.eval call scope) fun value store =>
        byKey target (store.display value) false store
  | .call _ callee arguments =>
    (callee.accesses call inner scope).andThen (callee.eval call scope) fun value =>
      none.andThen (callable value) fun function =>
        (elementAccesses call inner scope arguments).andThen (evalElements call scope arguments)
          fun values => inner function values
  | _ => none

/-- The accesses of expressions from left to right. -/
def elementAccesses (call : Call) (inner : Callable → List Value → Accesses) (scope : ScopeId) :
    List Expr → Accesses
  | [] => none
  | e :: rest =>
    (e.accesses call inner scope).andThen (e.eval call scope) fun _ =>
      elementAccesses call inner scope rest

/-- The accesses of properties from left to right. -/
def propertyAccesses (call : Call) (inner : Callable → List Value → Accesses) (scope : ScopeId) :
    List (String × Expr) → Accesses
  | [] => none
  | (_, e) :: rest =>
    (e.accesses call inner scope).andThen (e.eval call scope) fun _ =>
      propertyAccesses call inner scope rest

end

/-- The accesses of a counting loop, given those of its parts. -/
def countingAccesses (condition : Run Bool) (ofCondition : Accesses) (body : Run Signal)
    (ofBody : Accesses) (update : Run Unit) (ofUpdate : Accesses) : (rounds : Nat) → Accesses
  | 0 => none
  | rounds + 1 =>
    ofCondition.andThen condition fun holds =>
      if holds then
        ofBody.andThen body fun signal =>
          match signal with
          | .broke | .returned _ => none
          | .normal _ | .continued =>
            ofUpdate.andThen update fun _ =>
              countingAccesses condition ofCondition body ofBody update ofUpdate rounds
      else none

/-- The accesses of a loop through an array, given those of its body. The loop itself takes the
elements by number and not by key. -/
def throughAccesses (array : ArrayId) (body : Value → Run Signal) (ofBody : Value → Accesses) :
    (rounds index : Nat) → Accesses
  | 0, _ => none
  | rounds + 1, index => fun store =>
    match (store.elements array)[index]? with
    | .none => []
    | .some element =>
      (ofBody element).andThen (body element) (fun signal =>
        match signal with
        | .broke | .returned _ => none
        | .normal _ | .continued => throughAccesses array body ofBody rounds (index + 1)) store

mutual

/-- The accesses of a statement, given those of calls. -/
def Stmt.accesses (call : Call) (inner : Callable → List Value → Accesses) (rounds : Nat)
    (scope : ScopeId) : Stmt → Accesses
  | .declare _ _ _ value => value.accesses call inner scope
  | .assign _ _ value => value.accesses call inner scope
  | .assignMember _ object property value =>
    (object.accesses call inner scope).andThen (object.eval call scope) fun target =>
      (value.accesses call inner scope).andThen (value.eval call scope) fun _ =>
        writing target (return property) none
  | .assignComputed _ object key value =>
    (object.accesses call inner scope).andThen (object.eval call scope) fun target =>
      (value.accesses call inner scope).andThen (value.eval call scope) fun _ =>
        writing target (do
          let keyValue ← key.eval call scope
          return (← get).display keyValue) (key.accesses call inner scope)
  | .procedure _ _ _ _ => none
  | .returns _ value => value.accesses call inner scope
  | .leave _ => none
  | .proceed _ => none
  | .incase _ condition body fallback =>
    (condition.accesses call inner scope).andThen (condition.eval call scope) fun value =>
      none.andThen (truth .incase value) fun holds =>
        if holds then blockAccesses call inner rounds scope body
        else fallback.accesses call inner rounds scope
  | .drift _ init condition update body =>
    none.andThen (Run.openScope scope) fun inside =>
      (init.accesses call inner rounds inside).andThen (init.exec call rounds inside) fun _ =>
        countingAccesses (do return (← condition.eval call inside).isTruthy)
          (condition.accesses call inner inside) (execBlock call rounds inside .zero body)
          (blockAccesses call inner rounds inside body)
          (do let _ ← update.exec call rounds inside)
          (update.accesses call inner rounds inside) rounds
  | .through _ name constant iterable body =>
    (iterable.accesses call inner scope).andThen (iterable.eval call scope) fun value =>
      match value with
      | .array id =>
        throughAccesses id
          (fun element => do
            let inside ← Run.openScope scope
            Run.define inside name element constant
            execBlock call rounds inside .zero body)
          (fun element => none.andThen (Run.openScope scope) fun inside =>
            none.andThen (Run.define inside name element constant) fun _ =>
              blockAccesses call inner rounds inside body) rounds 0
      | _ => none
  | .expression value => value.accesses call inner scope

/-- The accesses of a fallback. -/
def Fallback.accesses (call : Call) (inner : Callable → List Value → Accesses) (rounds : Nat)
    (scope : ScopeId) : Fallback → Accesses
  | .nothing => none
  | .block body => blockAccesses call inner rounds scope body
  | .elif _ condition body fallback =>
    (condition.accesses call inner scope).andThen (condition.eval call scope) fun value =>
      none.andThen (truth .elif value) fun holds =>
        if holds then blockAccesses call inner rounds scope body
        else fallback.accesses call inner rounds scope

/-- The accesses of a block, up to the first signal that is not normal. -/
def blockAccesses (call : Call) (inner : Callable → List Value → Accesses) (rounds : Nat)
    (scope : ScopeId) : List Stmt → Accesses
  | [] => none
  | first :: rest =>
    (first.accesses call inner rounds scope).andThen (first.exec call rounds scope) fun signal =>
      match signal with
      | .normal _ => blockAccesses call inner rounds scope rest
      | _ => none

end

/-- The accesses of a call. The methods of arrays take no keys. -/
def invokeAccesses (rounds : Nat) : (depth : Nat) → Callable → List Value → Accesses
  | depth, function, arguments =>
    match function with
    | .builtin _ _ => none
    | .procedure procedure =>
      if arguments.length ≠ procedure.parameters.length then none
      else
        match depth with
        | 0 => none
        | depth + 1 =>
          none.andThen (Run.openScope procedure.scope) fun frame =>
            none.andThen (bindParameters frame (procedure.parameters.zip arguments)) fun _ =>
              blockAccesses (invoke rounds depth) (invokeAccesses rounds depth) rounds frame
                procedure.body

/-- The accesses of a program. -/
def Program.accesses (limits : Limits) (program : Program) : Accesses := fun store =>
  blockAccesses (invoke limits.rounds limits.depth) (invokeAccesses limits.rounds limits.depth)
    limits.rounds Store.globalScope program.body { store with output := #[] }

/-! ## Exact lists -/

/-- What comes of a computation fits its accesses: none was refused, or the last one was, for the
reason that the computation fails for. -/
def Settles {α : Type} : EStateM.Result Fault Store α → List Access → Prop
  | .ok _ _, accesses => ∀ access ∈ accesses, access.fault? = .none
  | .error fault _, accesses =>
    (∀ access ∈ accesses, ∀ reason, access.fault? = some reason → reason = fault) ∧
      (fault.isOfAccess = true → ∃ access ∈ accesses, access.fault? = some fault)

/-- From every store, a computation fits some accesses. -/
def Exact {α : Type} (run : Run α) (accesses : Accesses) : Prop :=
  ∀ store, Settles (run store) (accesses store)

section

variable {α β : Type} {accesses : Accesses}

theorem exact_pure {value : α} : Exact (pure value) none :=
  fun _ _ member => by cases member

theorem settles_nil_of_error {fault : Fault} {after : Store} (other : fault.isOfAccess = false) :
    Settles (.error fault after : EStateM.Result Fault Store α) [] := by
  refine ⟨fun _ member => (by cases member), ?_⟩
  intro ofAccess
  rw [other] at ofAccess
  cases ofAccess

theorem exact_throw {fault : Fault} (other : fault.isOfAccess = false) :
    Exact (throw fault : Run α) none :=
  fun _ => settles_nil_of_error other

/-- A computation that fails makes no accesses behind the one it fails for; so in a list of two
parts, the second is made only if all of the first were accepted. -/
theorem exact_bind {first : Run α} {next : α → Run β} {more : α → Accesses}
    (head : Exact first accesses) (tail : ∀ value, Exact (next value) (more value)) :
    Exact (first >>= next) (accesses.andThen first more) := by
  intro store
  have settled := head store
  show Settles (EStateM.bind first next store) _
  unfold EStateM.bind Accesses.andThen
  cases ran : first store with
  | ok value middle =>
    rw [ran] at settled
    have rest := tail value middle
    simp only
    cases ranOn : next value middle with
    | ok result after =>
      rw [ranOn] at rest
      exact List.forall_mem_append.mpr ⟨settled, rest⟩
    | error fault after =>
      rw [ranOn] at rest
      obtain ⟨only, found⟩ := rest
      refine ⟨?_, ?_⟩
      · intro access member reason refused
        -- those of the first part were all accepted, so the one refused is of the second
        rcases List.mem_append.mp member with early | late
        · rw [settled access early] at refused
          cases refused
        · exact only access late reason refused
      · intro ofAccess
        obtain ⟨access, member, refused⟩ := found ofAccess
        exact ⟨access, List.mem_append_right _ member, refused⟩
  | error fault middle =>
    rw [ran] at settled
    simp only [List.append_nil]
    exact settled

/-- A last step that makes no accesses. -/
theorem exact_finish {first : Run α} {next : α → Run β} (head : Exact first accesses)
    (tail : ∀ value, Exact (next value) none) : Exact (first >>= next) accesses := by
  have both := exact_bind head tail
  -- what goes on makes no accesses, so the list is that of the first part
  have same : accesses.andThen first (fun _ => none) = accesses := by
    funext store
    unfold Accesses.andThen Accesses.none
    split <;> exact List.append_nil _
  rwa [same] at both

theorem exact_get_bind {next : Store → Run α}
    (settled : ∀ store, Settles (next store store) (accesses store)) :
    Exact (get >>= next) accesses := settled

theorem exact_modify {change : Store → Store} : Exact (modify change : Run PUnit) none :=
  fun _ _ member => by cases member

theorem exact_modifyGet {change : Store → α × Store} : Exact (modifyGet change : Run α) none :=
  fun _ _ member => by cases member

theorem exact_lift {result : Except Fault α}
    (other : ∀ fault, result = .error fault → fault.isOfAccess = false) :
    Exact (Run.lift result) none := by
  cases result with
  | ok value => exact exact_pure
  | error fault => exact exact_throw (other fault rfl)

end

/-! ## Steps -/

/-- What comes of operands, or of an operator without a rule, comes of no access. -/
theorem Fault.other_of_blame {blame : List Fault} {fault : Fault}
    (others : ∀ fault ∈ blame, fault.isOfAccess = false)
    (origin : fault.isOfOperands = true ∨ fault ∈ blame) : fault.isOfAccess = false := by
  rcases origin with operands | member
  · cases fault <;> first | rfl | cases operands
  · exact others fault member

theorem BinaryOp.blame_other (operator : BinaryOp) :
    ∀ fault ∈ operator.blame, fault.isOfAccess = false := by
  cases operator <;> simp [BinaryOp.blame, Fault.isOfAccess]

theorem UnaryOp.blame_other (operator : UnaryOp) :
    ∀ fault ∈ operator.blame, fault.isOfAccess = false := by
  cases operator <;> simp [UnaryOp.blame, Fault.isOfAccess]

section

variable {scope : ScopeId} {name : String} {value : Value}

/-- Names are looked up in scopes, so no element is accessed, and the same holds of assignments to
them. -/
theorem exact_lookup : Exact (Run.lookup scope name) none := by
  refine exact_get_bind ?_
  intro store
  cases store.scopes.resolve scope name with
  | ok binding => exact exact_pure store
  | error fault => exact exact_throw rfl store

theorem exact_assign : Exact (Run.assign scope name value) none := by
  refine exact_get_bind ?_
  intro store
  cases store.scopes.assignee scope name with
  | ok owner => exact exact_modify store
  | error fault => exact exact_throw rfl store

theorem exact_lengthOf {array : ArrayId} : Exact (Run.lengthOf array) none :=
  exact_get_bind fun store => exact_pure store

theorem exact_readProperty {object : ObjectId} {key : String} :
    Exact (Run.readProperty object key) none :=
  exact_get_bind fun store => exact_pure store

/-- A key gives no index for one reason only. -/
theorem index?_eq_error_iff {key : String} {fault : Fault} :
    Key.index? key = .error fault ↔ Key.isDigits key.toList = true ∧
      Fault.maxKeyDigits < key.toList.length ∧ fault = .longKey key.toList.length := by
  unfold Key.index?
  simp only
  by_cases digits : Key.isDigits key.toList = true
  · rw [if_pos digits]
    by_cases long : Fault.maxKeyDigits < key.toList.length
    · rw [if_pos long]
      simp [digits, long, eq_comm]
    · rw [if_neg long]
      split <;> simp [long]
  · rw [if_neg digits]
    simp [digits]

/-- A key of too many digits is refused, for reading and writing alike. -/
theorem fault?_of_long {access : Access} {fault : Fault}
    (refused : Key.index? access.key = .error fault) : access.fault? = some fault := by
  obtain ⟨digits, long, rfl⟩ := index?_eq_error_iff.mp refused
  simp [Access.fault?, Access.isLong, digits, long]

theorem isLong_of_index {access : Access} {index : Option Nat}
    (found : Key.index? access.key = .ok index) : access.isLong = false := by
  apply Bool.eq_false_iff.mpr
  intro long
  obtain ⟨digits, many⟩ := Bool.and_eq_true_iff.mp long
  have refused := index?_eq_error_iff.mpr ⟨digits, of_decide_eq_true many, rfl⟩
  rw [found] at refused
  cases refused

/-- A read is refused for the length of its key only. -/
theorem fault?_of_read {access : Access} {index : Option Nat}
    (found : Key.index? access.key = .ok index) (reads : access.writes = false) :
    access.fault? = .none := by
  simp [Access.fault?, Access.isHuge, isLong_of_index found, reads]

/-- A write by a number is refused for its distance from the end only. -/
theorem fault?_of_write {access : Access} {index : Option Nat}
    (found : Key.index? access.key = .ok index) (writes : access.writes = true) :
    access.fault? =
      if ∃ number, index = some number ∧ Key.maxGrowth < number + 1 - access.size then
        some .hugeIndex
      else .none := by
  cases index with
  | none => simp [Access.fault?, Access.isHuge, isLong_of_index found, writes, found]
  | some number => simp [Access.fault?, Access.isHuge, isLong_of_index found, writes, found]

theorem settles_refused {α : Type} {fault : Fault} {access : Access} {after : Store}
    (refused : access.fault? = some fault) :
    Settles (.error fault after : EStateM.Result Fault Store α) [access] := by
  refine ⟨?_, fun _ => ⟨access, List.mem_singleton_self _, refused⟩⟩
  intro other member reason found
  rw [List.mem_singleton.mp member, refused] at found
  exact (Option.some.inj found).symm

theorem settles_other {α : Type} {fault : Fault} {access : Access} {after : Store}
    (accepted : access.fault? = .none) (other : fault.isOfAccess = false) :
    Settles (.error fault after : EStateM.Result Fault Store α) [access] := by
  refine ⟨?_, fun ofAccess => ?_⟩
  · intro found member reason refused
    rw [List.mem_singleton.mp member, accepted] at refused
    cases refused
  · rw [other] at ofAccess
    cases ofAccess

theorem settles_accepted {α : Type} {result : α} {access : Access} {after : Store}
    (accepted : access.fault? = .none) :
    Settles (.ok result after : EStateM.Result Fault Store α) [access] := by
  intro other member
  rw [List.mem_singleton.mp member]
  exact accepted

theorem exact_readElement {array : ArrayId} {key : String} :
    Exact (Run.readElement array key) (byKey (.array array) key false) := by
  intro store
  unfold Run.readElement Accesses.byKey
  cases found : Key.index? key with
  | error fault => exact settles_refused (fault?_of_long found)
  | ok index => exact settles_accepted (fault?_of_read found rfl)

/-- A write is refused for its key or for its distance from the end. A key that is no number is
refused as well, but that fault is no access's. -/
theorem exact_writeElement {array : ArrayId} {key : String} :
    Exact (Run.writeElement array key value) (byKey (.array array) key true) := by
  intro store
  unfold Run.writeElement Accesses.byKey
  cases found : Key.index? key with
  | error fault => exact settles_refused (fault?_of_long found)
  | ok index =>
    let access : Access := ⟨array, key, (store.elements array).size, true⟩
    have faults : access.fault? = _ := fault?_of_write found rfl
    cases index with
    -- the key is no number: the fault says so
    | none => exact settles_other (faults.trans (by simp)) rfl
    | some number =>
      simp only [Option.some.injEq, exists_eq_left'] at faults
      show Settles ((if Key.maxGrowth < number + 1 - (store.elements array).size then _ else _ :
        Run Unit) store) [access]
      by_cases huge : Key.maxGrowth < number + 1 - (store.elements array).size
      · rw [if_pos huge] at faults ⊢
        exact settles_refused faults
      · rw [if_neg huge] at faults ⊢
        exact settles_accepted faults

/-- The length and the methods of an array are found before any key is tried. -/
theorem exact_readMember {target : Value} {property : String} :
    Exact (Run.readMember target property) (byName target property) := by
  cases target with
  | array id =>
    simp only [Run.readMember, Accesses.byName]
    by_cases length : property = "length"
    · simp only [length, if_true, true_or]
      exact exact_lengthOf
    · simp only [length, if_false, false_or]
      cases Method.ofName? property with
      | some method => exact exact_modifyGet
      | none => exact exact_readElement
  | object id => exact exact_readProperty
  | _ => exact exact_throw rfl

theorem exact_readComputed {target : Value} {key : String} :
    Exact (Run.readComputed target key) (byKey target key false) := by
  cases target with
  | array id => exact exact_readElement
  | object id => exact exact_readProperty
  | _ => exact exact_throw rfl

/-- The key of a write is computed for arrays and objects only, so only then its accesses count. -/
theorem exact_writeMember {target : Value} {key : Run String} {ofKey : Accesses}
    (keys : Exact key ofKey) :
    Exact (Run.writeMember target key value) (writing target key ofKey) := by
  cases target with
  | array id => exact exact_bind keys fun _ => exact_writeElement
  | object id => exact exact_bind keys fun _ => exact_modify
  | _ => exact exact_throw rfl

theorem exact_callable {function : Value} : Exact (callable function) none := by
  cases function with
  | function id =>
    refine exact_get_bind ?_
    intro store
    cases store.functions[id]? with
    | some found => exact exact_pure store
    | none => exact exact_throw rfl store
  | _ => exact exact_throw rfl

/-- The methods of arrays work on places, not on keys. -/
theorem exact_builtin {action : Builtin} {arguments : List Value} :
    Exact (Run.builtin action arguments) none := by
  unfold Run.builtin
  split
  · exact exact_finish exact_modify fun _ => exact_pure
  · exact exact_finish exact_modify fun _ => exact_lengthOf
  · exact exact_finish exact_modify fun _ => exact_lengthOf
  · exact exact_get_bind fun store => exact_finish exact_modify (fun _ => exact_pure) store
  · exact exact_get_bind fun store => exact_finish exact_modify (fun _ => exact_pure) store
  · exact exact_throw rfl

theorem exact_truth {clause : Clause} : Exact (truth clause value) none := by
  cases value with
  | boolean b => exact exact_pure
  | _ => exact exact_throw rfl

theorem exact_bindParameters : ∀ entries : List (String × Value),
    Exact (bindParameters scope entries) none
  | [] => exact_pure
  | _ :: rest => exact_finish exact_modify fun _ => exact_bindParameters rest

theorem exact_callResult {signal : Signal} : Exact (callResult signal) none := by
  cases signal with
  | normal value => exact exact_pure
  | returned value => exact exact_pure
  | broke => exact exact_throw rfl
  | continued => exact exact_throw rfl

theorem exact_programResult {signal : Signal} : Exact (programResult signal) none := by
  cases signal with
  | normal value => exact exact_pure
  | returned value => exact exact_throw rfl
  | broke => exact exact_throw rfl
  | continued => exact exact_throw rfl

end

/-! ## Loops -/

theorem exact_countingLoop {condition : Run Bool} {body : Run Signal} {update : Run Unit}
    {ofCondition ofBody ofUpdate : Accesses} (test : Exact condition ofCondition)
    (round : Exact body ofBody) (step : Exact update ofUpdate) : ∀ rounds : Nat,
    Exact (countingLoop condition body update rounds)
      (countingAccesses condition ofCondition body ofBody update ofUpdate rounds)
  -- by induction on the rounds; the accesses follow the three parts of a round in the order in
  -- which they run
  | 0 => exact_throw rfl
  | rounds + 1 => by
    refine exact_bind test ?_
    intro holds
    cases holds with
    | false => exact exact_pure
    | true =>
      refine exact_bind round ?_
      intro signal
      cases signal with
      | broke => exact exact_pure
      | returned value => exact exact_pure
      | normal value => exact exact_bind step fun _ => exact_countingLoop test round step rounds
      | continued => exact exact_bind step fun _ => exact_countingLoop test round step rounds

theorem exact_throughLoop {array : ArrayId} {body : Value → Run Signal}
    {ofBody : Value → Accesses} (round : ∀ element, Exact (body element) (ofBody element)) :
    ∀ rounds index : Nat, Exact (throughLoop array body rounds index)
      (throughAccesses array body ofBody rounds index)
  -- by induction on the rounds; the element is taken by its place, so a round starts with no access
  | 0, _ => exact_throw rfl
  | rounds + 1, index => by
    refine exact_get_bind ?_
    intro store
    unfold throughAccesses
    cases (store.elements array)[index]? with
    | none => exact exact_pure store
    | some element =>
      refine exact_bind (round element) ?_ store
      intro signal
      cases signal with
      | broke => exact exact_pure
      | returned value => exact exact_pure
      | normal value => exact exact_throughLoop round rounds (index + 1)
      | continued => exact exact_throughLoop round rounds (index + 1)

/-! ## Expressions and statements -/

/-- The accesses of calls are exact. -/
def CallsExact (call : Call) (inner : Callable → List Value → Accesses) : Prop :=
  ∀ function arguments, Exact (call function arguments) (inner function arguments)

section

variable {call : Call} {inner : Callable → List Value → Accesses}

mutual

/-- The accesses of an expression are exact, if those of calls are. -/
theorem Expr.exact_eval (calls : CallsExact call inner) {scope : ScopeId} :
    ∀ e : Expr, Exact (e.eval call scope) (e.accesses call inner scope)
  | .number _ _ | .string _ _ | .boolean _ _ | .null _ | .nan _ => by
    unfold Expr.eval Expr.accesses
    exact exact_pure
  | .identifier _ _ => by
    unfold Expr.eval Expr.accesses
    exact exact_lookup
  | .array _ elements => by
    unfold Expr.eval Expr.accesses
    exact exact_finish (exact_evalElements calls elements) fun _ => exact_modifyGet
  | .object _ properties => by
    unfold Expr.eval Expr.accesses
    exact exact_finish (exact_evalProperties calls properties) fun _ => exact_modifyGet
  | .binary _ operator left right => by
    unfold Expr.eval Expr.accesses
    refine exact_bind (left.exact_eval calls) fun x => ?_
    refine exact_finish (right.exact_eval calls) fun y => ?_
    refine exact_get_bind fun store => exact_lift ?_ store
    intro fault refused
    exact Fault.other_of_blame (BinaryOp.blame_other operator) (Store.binary_fault refused)
  | .unary _ operator operand => by
    unfold Expr.eval Expr.accesses
    refine exact_finish (operand.exact_eval calls) fun x => exact_lift ?_
    intro fault refused
    exact Fault.other_of_blame (UnaryOp.blame_other operator) (Store.unary_fault refused)
  | .member _ object property => by
    unfold Expr.eval Expr.accesses
    exact exact_bind (object.exact_eval calls) fun _ => exact_readMember
  | .computed _ object key => by
    unfold Expr.eval Expr.accesses
    refine exact_bind (object.exact_eval calls) fun target => ?_
    refine exact_bind (key.exact_eval calls) fun value => ?_
    exact exact_get_bind fun store => exact_readComputed store
  | .call _ callee arguments => by
    unfold Expr.eval Expr.accesses
    refine exact_bind (callee.exact_eval calls) fun value => ?_
    refine exact_bind exact_callable fun function => ?_
    exact exact_bind (exact_evalElements calls arguments) fun values => calls function values
  | .foreign _ _ => by
    unfold Expr.eval Expr.accesses
    exact exact_throw rfl

theorem exact_evalElements (calls : CallsExact call inner) {scope : ScopeId} :
    ∀ elements : List Expr,
      Exact (evalElements call scope elements) (elementAccesses call inner scope elements)
  | [] => by
    unfold evalElements elementAccesses
    exact exact_pure
  | e :: rest => by
    unfold evalElements elementAccesses
    refine exact_bind (e.exact_eval calls) fun _ => ?_
    exact exact_finish (exact_evalElements calls rest) fun _ => exact_pure

theorem exact_evalProperties (calls : CallsExact call inner) {scope : ScopeId} :
    ∀ properties : List (String × Expr),
      Exact (evalProperties call scope properties) (propertyAccesses call inner scope properties)
  | [] => by
    unfold evalProperties propertyAccesses
    exact exact_pure
  | (_, e) :: rest => by
    unfold evalProperties propertyAccesses
    refine exact_bind (e.exact_eval calls) fun _ => ?_
    exact exact_finish (exact_evalProperties calls rest) fun _ => exact_pure

end

mutual

/-- The accesses of a statement are exact, if those of calls are. -/
theorem Stmt.exact_exec (calls : CallsExact call inner) {rounds : Nat} :
    ∀ (s : Stmt) {scope : ScopeId},
      Exact (s.exec call rounds scope) (s.accesses call inner rounds scope)
  | .declare _ _ _ value, _ => by
    unfold Stmt.exec Stmt.accesses
    refine exact_finish (value.exact_eval calls) fun _ => ?_
    exact exact_finish exact_modify fun _ => exact_pure
  | .assign _ _ value, _ => by
    unfold Stmt.exec Stmt.accesses
    refine exact_finish (value.exact_eval calls) fun _ => ?_
    exact exact_finish exact_assign fun _ => exact_pure
  | .assignMember _ object property value, _ => by
    unfold Stmt.exec Stmt.accesses
    refine exact_bind (object.exact_eval calls) fun target => ?_
    refine exact_bind (value.exact_eval calls) fun _ => ?_
    exact exact_finish (exact_writeMember exact_pure) fun _ => exact_pure
  | .assignComputed _ object key value, _ => by
    unfold Stmt.exec Stmt.accesses
    refine exact_bind (object.exact_eval calls) fun target => ?_
    refine exact_bind (value.exact_eval calls) fun _ => ?_
    refine exact_finish (exact_writeMember ?_) fun _ => exact_pure
    exact exact_finish (key.exact_eval calls) fun _ => exact_get_bind fun store => exact_pure store
  | .procedure _ _ _ _, _ => by
    unfold Stmt.exec Stmt.accesses
    refine exact_finish exact_modifyGet fun _ => ?_
    exact exact_finish exact_modify fun _ => exact_pure
  | .returns _ value, _ => by
    unfold Stmt.exec Stmt.accesses
    exact exact_finish (value.exact_eval calls) fun _ => exact_pure
  | .leave _, _ => by
    unfold Stmt.exec Stmt.accesses
    exact exact_pure
  | .proceed _, _ => by
    unfold Stmt.exec Stmt.accesses
    exact exact_pure
  | .incase _ condition body fallback, _ => by
    unfold Stmt.exec Stmt.accesses
    refine exact_bind (condition.exact_eval calls) fun _ => ?_
    refine exact_bind exact_truth fun holds => ?_
    cases holds with
    | true => exact exact_execBlock calls body
    | false => exact fallback.exact_exec calls
  | .drift _ init condition update body, _ => by
    unfold Stmt.exec Stmt.accesses
    refine exact_bind exact_modifyGet fun inside => ?_
    refine exact_bind (init.exact_exec calls) fun _ => ?_
    refine exact_countingLoop ?_ (exact_execBlock calls body) ?_ rounds
    · exact exact_finish (condition.exact_eval calls) fun _ => exact_pure
    · exact exact_finish (update.exact_exec calls) fun _ => exact_pure
  | .through _ _ _ iterable body, _ => by
    unfold Stmt.exec Stmt.accesses
    refine exact_bind (iterable.exact_eval calls) fun value => ?_
    cases value with
    | array id =>
      refine exact_throughLoop (fun element => ?_) rounds 0
      refine exact_bind exact_modifyGet fun inside => ?_
      exact exact_bind exact_modify fun _ => exact_execBlock calls body
    | _ => exact exact_throw rfl
  | .expression value, _ => by
    unfold Stmt.exec Stmt.accesses
    exact exact_finish (value.exact_eval calls) fun _ => exact_pure

theorem Fallback.exact_exec (calls : CallsExact call inner) {rounds : Nat} :
    ∀ (fallback : Fallback) {scope : ScopeId},
      Exact (fallback.exec call rounds scope) (fallback.accesses call inner rounds scope)
  | .nothing, _ => by
    unfold Fallback.exec Fallback.accesses
    exact exact_pure
  | .block body, _ => by
    unfold Fallback.exec Fallback.accesses
    exact exact_execBlock calls body
  | .elif _ condition body fallback, _ => by
    unfold Fallback.exec Fallback.accesses
    refine exact_bind (condition.exact_eval calls) fun _ => ?_
    refine exact_bind exact_truth fun holds => ?_
    cases holds with
    | true => exact exact_execBlock calls body
    | false => exact fallback.exact_exec calls

theorem exact_execBlock (calls : CallsExact call inner) {rounds : Nat} :
    ∀ (body : List Stmt) {scope : ScopeId} {last : Value},
      Exact (execBlock call rounds scope last body) (blockAccesses call inner rounds scope body)
  | [], _, _ => by
    unfold execBlock blockAccesses
    exact exact_pure
  | first :: rest, _, _ => by
    unfold execBlock blockAccesses
    refine exact_bind (first.exact_exec calls) fun signal => ?_
    cases signal with
    | normal value => exact exact_execBlock calls rest
    | _ => exact exact_pure

end

end

/-- The accesses of calls that nest only so deep are exact. -/
theorem callsExact_invoke (rounds : Nat) : ∀ depth : Nat,
    CallsExact (invoke rounds depth) (invokeAccesses rounds depth)
  | depth, function, arguments => by
    unfold invoke invokeAccesses
    cases function with
    | builtin name action => exact exact_builtin
    | procedure procedure =>
      by_cases wrong : arguments.length ≠ procedure.parameters.length
      · simp only [if_pos wrong]
        exact exact_throw rfl
      · simp only [if_neg wrong]
        cases depth with
        | zero => exact exact_throw rfl
        -- by induction on the depth: the calls of the body nest less deep
        | succ depth =>
          refine exact_bind exact_modifyGet fun frame => ?_
          refine exact_bind (exact_bindParameters _) fun _ => ?_
          exact exact_finish (exact_execBlock (callsExact_invoke rounds depth) procedure.body)
            fun _ => exact_callResult

/-- The accesses of a program are exact. -/
theorem Program.exact_run (limits : Limits) (program : Program) :
    Exact (program.run limits) (program.accesses limits) := by
  intro store
  have exec : Exact (program.exec limits) _ :=
    exact_execBlock (callsExact_invoke limits.rounds limits.depth) program.body
  exact exact_finish exec (fun _ => exact_programResult) { store with output := #[] }

/-! ## Refused accesses -/

/-- The length of its key is tested first. -/
theorem Access.fault?_eq_longKey_iff {access : Access} {digits : Nat} :
    access.fault? = some (.longKey digits) ↔
      access.isLong = true ∧ access.key.toList.length = digits := by
  unfold Access.fault?
  by_cases long : access.isLong = true
  · simp [long]
  · rw [if_neg long]
    split <;> simp [long]

theorem Access.fault?_eq_hugeIndex_iff {access : Access} :
    access.fault? = some .hugeIndex ↔ access.isHuge = true := by
  unfold Access.fault?
  by_cases long : access.isLong = true
  · -- a key that is too long has no index
    obtain ⟨digits, many⟩ := Bool.and_eq_true_iff.mp long
    have refused := index?_eq_error_iff.mpr ⟨digits, of_decide_eq_true many, rfl⟩
    simp [long, Access.isHuge, refused]
  · simp [long]

/-- A run in a session ends with the fault of an access if and only if it makes an access that is
refused for that reason. -/
theorem Session.run_refused_iff {limits : Limits} {session : Session} {program : Program}
    {fault : Fault} (ofAccess : fault.isOfAccess = true) :
    (session.run limits program).1 = .error fault ↔
      ∃ access ∈ program.accesses limits session.store, access.fault? = some fault := by
  have settled := program.exact_run limits session.store
  unfold Session.run
  cases ran : program.run limits session.store with
  | ok value after =>
    rw [ran] at settled
    constructor
    · intro failed
      cases failed
    · rintro ⟨access, member, refused⟩
      rw [settled access member] at refused
      cases refused
  | error found after =>
    rw [ran] at settled
    -- `only`: no other reason was met, so the run failed for this one
    obtain ⟨only, made⟩ := settled
    constructor
    · intro failed
      cases failed
      exact made ofAccess
    · rintro ⟨access, member, refused⟩
      exact congrArg Except.error (only access member fault refused).symm

end Script
