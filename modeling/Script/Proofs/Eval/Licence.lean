import Script.Proofs.Eval.Accesses
import Script.Proofs.Eval.Members

/-!
# What computations may do

A `Licence` says what may be done to the store, any number of times, and which faults may occur, and
`Run.Obeys` that a computation does nothing else, from any store and however it ends. Steps that
leave the store as it is obey every licence, those that change nothing but scopes, arrays, objects
or output obey every one that lets them, and loops obey every one that their parts obey, if they may
come to an end by force.
-/

namespace Script

/-- Whether a fault ends what might go on for ever. -/
def Fault.isEndless : Fault → Bool
  | .callDepth | .loopRounds => true
  | _ => false

theorem Fault.ends_of_operands {fault : Fault} (operands : fault.isOfOperands = true) :
    fault.isEndless = false := by
  cases fault <;> first | rfl | cases operands

/-- What may be done to the store, any number of times, and the faults that may occur. -/
structure Licence where
  change : Store → Store → Prop
  fault : Fault → Prop
  refl : ∀ store, change store store
  trans : ∀ {first second third}, change first second → change second third → change first third
  /-- Only the faults that end what might go on for ever can be excluded. -/
  ordinary : ∀ {found : Fault}, found.isEndless = false → fault found

namespace Run

variable {α β : Type} {licence : Licence}

/-! ## Where a computation ends -/

/-- The store in which a computation ends, by a result or by a fault. -/
def final (run : Run α) (store : Store) : Store :=
  match run store with
  | .ok _ after => after
  | .error _ after => after

section

variable {run : Run α} {first : Run α} {next : α → Run β} {store after middle : Store}

theorem final_of_ok {value : α} (ran : run store = .ok value after) : run.final store = after := by
  unfold final
  rw [ran]

theorem final_of_error {fault : Fault} (ran : run store = .error fault after) :
    run.final store = after := by
  unfold final
  rw [ran]

theorem bind_of_error {fault : Fault} (failed : first store = .error fault middle) :
    (first >>= next) store = .error fault middle := by
  show EStateM.bind first next store = _
  rw [EStateM.bind, failed]

theorem final_bind_of_ok {value : α} (done : first store = .ok value middle) :
    (first >>= next).final store = (next value).final middle := by
  unfold final
  rw [bind_of_ok done]

theorem final_bind_of_error {fault : Fault} (failed : first store = .error fault middle) :
    (first >>= next).final store = middle :=
  final_of_error (bind_of_error failed)

end

/-! ## Obedience -/

/-- From every store, a computation does what it may and ends with a result or a fault that may
occur. -/
def Obeys (licence : Licence) (run : Run α) : Prop :=
  ∀ store, licence.change store (run.final store) ∧
    ∀ fault after, run store = .error fault after → licence.fault fault

theorem obeys_pure (value : α) : Obeys licence (pure value) := by
  intro store
  exact ⟨licence.refl store, fun _ _ failed => by cases failed⟩

theorem obeys_throw {fault : Fault} (may : licence.fault fault) :
    Obeys licence (throw fault : Run α) := by
  intro store
  refine ⟨licence.refl store, ?_⟩
  intro found after failed
  cases failed
  exact may

/-- Two computations obey one after the other, since a licence may be used any number of times. -/
theorem obeys_bind {first : Run α} {next : α → Run β} (head : first.Obeys licence)
    (tail : ∀ value, (next value).Obeys licence) : (first >>= next).Obeys licence := by
  intro store
  obtain ⟨changed, failing⟩ := head store
  -- either the rest goes on from the store in between, or the fault is that of the whole
  cases ran : first store with
  | ok value middle =>
    rw [final_of_ok ran] at changed
    rw [final_bind_of_ok ran, bind_of_ok ran]
    exact ⟨licence.trans changed (tail value middle).1, (tail value middle).2⟩
  | error fault middle =>
    rw [final_of_error ran] at changed
    rw [final_bind_of_error ran, bind_of_error ran]
    refine ⟨changed, ?_⟩
    intro found after failed
    cases failed
    exact failing fault middle ran

/-- What goes on with the store as it is. -/
theorem obeys_get_bind {next : Store → Run α} (tail : ∀ store, (next store).Obeys licence) :
    Obeys licence (get >>= next) := by
  intro store
  exact tail store store

/-- What goes on with the store as it is, and does what it may from there. -/
theorem obeys_get_bind_self {next : Store → Run α}
    (tail : ∀ store, licence.change store ((next store).final store) ∧
      ∀ fault after, next store store = .error fault after → licence.fault fault) :
    Obeys licence (get >>= next) :=
  tail

theorem obeys_modifyGet {change : Store → α × Store}
    (may : ∀ store, licence.change store (change store).2) :
    Obeys licence (modifyGet change : Run α) := by
  intro store
  exact ⟨may store, fun _ _ failed => by cases failed⟩

theorem obeys_modify {change : Store → Store} (may : ∀ store, licence.change store (change store)) :
    Obeys licence (modify change : Run PUnit) := by
  intro store
  exact ⟨may store, fun _ _ failed => by cases failed⟩

theorem obeys_lift {result : Except Fault α}
    (may : ∀ fault, result = .error fault → licence.fault fault) : (lift result).Obeys licence := by
  cases result with
  | ok value => exact obeys_pure value
  | error fault => exact obeys_throw (may fault rfl)

/-- What obeys one licence obeys a wider one. -/
theorem Obeys.weaken {wider : Licence} {run : Run α} (obeys : run.Obeys licence)
    (change : ∀ {store after}, licence.change store after → wider.change store after)
    (fault : ∀ {fault}, licence.fault fault → wider.fault fault) : run.Obeys wider := by
  intro store
  obtain ⟨changed, failing⟩ := obeys store
  exact ⟨change changed, fun found after failed => fault (failing found after failed)⟩

/-! ## Steps that leave the store as it is -/

/-- A fault that ends nothing endless. -/
theorem obeys_fault {fault : Fault} (ends : fault.isEndless = false) :
    Obeys licence (throw fault : Run α) :=
  obeys_throw (licence.ordinary ends)

theorem obeys_lookup (scope : ScopeId) (name : String) : (lookup scope name).Obeys licence := by
  refine obeys_get_bind fun store => ?_
  split
  · exact obeys_pure _
  · exact obeys_fault rfl

theorem obeys_lengthOf (array : ArrayId) : (lengthOf array).Obeys licence :=
  obeys_get_bind fun _ => obeys_pure _

theorem obeys_index (key : String) : (lift (Key.index? key)).Obeys licence := by
  refine obeys_lift fun fault refused => licence.ordinary ?_
  rw [(index?_eq_error_iff.mp refused).2.2]
  rfl

theorem obeys_readElement (array : ArrayId) (key : String) :
    (readElement array key).Obeys licence :=
  obeys_bind (obeys_index key) fun _ => obeys_get_bind fun _ => obeys_pure _

theorem obeys_readProperty (object : ObjectId) (key : String) :
    (readProperty object key).Obeys licence :=
  obeys_get_bind fun _ => obeys_pure _

theorem obeys_readComputed (target : Value) (key : String) :
    (readComputed target key).Obeys licence := by
  unfold readComputed
  split
  · exact obeys_readElement _ _
  · exact obeys_readProperty _ _
  · exact obeys_fault rfl

/-- Reading a member makes a method at most. -/
theorem obeys_readMember
    (methods : ∀ (method : Method) (array : ArrayId),
      (newFunction (.builtin method.name (.method method array))).Obeys licence)
    (target : Value) (property : String) : (readMember target property).Obeys licence := by
  unfold readMember
  split
  · split
    · exact obeys_lengthOf _
    · split
      · exact methods _ _
      · exact obeys_readElement _ _
  · exact obeys_readProperty _ _
  · exact obeys_fault rfl

/-- What comes of operands, or of an operator without a rule, ends nothing endless. -/
theorem obeys_binary (operator : BinaryOp) (left right : Value) (store : Store) :
    (lift (store.binary operator left right)).Obeys licence := by
  refine obeys_lift fun fault refused => licence.ordinary ?_
  rcases Store.binary_fault refused with operands | blamed
  · exact Fault.ends_of_operands operands
  · cases operator <;> simp only [BinaryOp.blame, List.not_mem_nil, List.mem_singleton] at blamed
    rw [blamed]
    rfl

theorem obeys_unary (operator : UnaryOp) (operand : Value) :
    (lift (Store.unary operator operand)).Obeys licence := by
  refine obeys_lift fun fault refused => licence.ordinary ?_
  rcases Store.unary_fault refused with operands | blamed
  · exact Fault.ends_of_operands operands
  · cases operator <;> simp only [UnaryOp.blame, List.not_mem_nil, List.mem_singleton] at blamed
    rw [blamed]
    rfl

theorem obeys_callable (value : Value) : (callable value).Obeys licence := by
  unfold callable
  split
  · refine obeys_get_bind fun store => ?_
    split
    · exact obeys_pure _
    · exact obeys_fault rfl
  · exact obeys_fault rfl

theorem obeys_callResult (signal : Signal) : (callResult signal).Obeys licence := by
  cases signal with
  | normal value => exact obeys_pure value
  | returned value => exact obeys_pure value
  | broke | continued => exact obeys_fault rfl

theorem obeys_truth (clause : Clause) (value : Value) : (truth clause value).Obeys licence := by
  unfold truth
  split
  · exact obeys_pure _
  · exact obeys_fault rfl

theorem obeys_programResult (signal : Signal) : (programResult signal).Obeys licence := by
  cases signal with
  | normal value => exact obeys_pure value
  | returned | broke | continued => exact obeys_fault rfl

/-! ## Steps that change scopes -/

section

variable (scopes : ∀ (store : Store) (scopes : Scopes Value),
  licence.change store { store with scopes })

include scopes

theorem obeys_define (scope : ScopeId) (name : String) (value : Value) (constant : Bool) :
    (define scope name value constant).Obeys licence :=
  obeys_modify fun store => scopes store _

/-- An assignment declares the name once more in the scope that has it. -/
theorem obeys_assign (scope : ScopeId) (name : String) (value : Value) :
    (assign scope name value).Obeys licence := by
  refine obeys_get_bind fun store => ?_
  split
  · exact obeys_define scopes _ _ _ _
  · exact obeys_fault rfl

theorem obeys_openScope (parent : ScopeId) : (openScope parent).Obeys licence :=
  obeys_modifyGet fun store => scopes store _

theorem obeys_bindParameters (scope : ScopeId) : ∀ entries : List (String × Value),
    (bindParameters scope entries).Obeys licence
  | [] => obeys_pure _
  | _ :: rest => obeys_bind (obeys_define scopes _ _ _ _) fun _ => obeys_bindParameters scope rest

end

/-! ## Steps that change arrays, objects and output -/

section

variable (arrays : ∀ (store : Store) (arrays : Array (Array Value)),
  licence.change store { store with arrays })

include arrays

theorem obeys_updateElements (array : ArrayId) (change : Array Value → Array Value) :
    (updateElements array change).Obeys licence :=
  obeys_modify fun store => arrays store _

/-- The elements of one array change, if the key is an index within reach. -/
theorem obeys_writeElement (array : ArrayId) (key : String) (value : Value) :
    (writeElement array key value).Obeys licence := by
  unfold writeElement
  refine obeys_bind (obeys_index key) fun index => ?_
  split
  · exact obeys_fault rfl
  · refine obeys_get_bind fun store => ?_
    split
    · exact obeys_fault rfl
    · exact obeys_updateElements arrays _ _

theorem obeys_writeMember
    (objects : ∀ (store : Store) (objects : Array (Table Value)),
      licence.change store { store with objects })
    {target value : Value} {key : Run String} (obeys : key.Obeys licence) :
    (writeMember target key value).Obeys licence := by
  unfold writeMember
  split
  · exact obeys_bind obeys fun text => obeys_writeElement arrays _ text _
  · exact obeys_bind obeys fun text => obeys_modify fun store => objects store _
  · exact obeys_fault rfl

/-- A method changes its array, and only the console prints. -/
theorem obeys_builtin
    (output : ∀ (store : Store) (output : Array String),
      licence.change store { store with output })
    (action : Builtin) (given : List Value) : (builtin action given).Obeys licence := by
  unfold builtin
  split
  · exact obeys_bind (obeys_modify fun store => output store _) fun _ => obeys_pure _
  · exact obeys_bind (obeys_updateElements arrays _ _) fun _ => obeys_lengthOf _
  · exact obeys_bind (obeys_updateElements arrays _ _) fun _ => obeys_lengthOf _
  · refine obeys_get_bind fun store => ?_
    exact obeys_bind (obeys_updateElements arrays _ _) fun _ => obeys_pure _
  · refine obeys_get_bind fun store => ?_
    exact obeys_bind (obeys_updateElements arrays _ _) fun _ => obeys_pure _
  · exact obeys_fault rfl

end

/-! ## Loops -/

section

variable (stopped : licence.fault .loopRounds)

include stopped

theorem obeys_countingLoop {condition : Run Bool} {body : Run Signal} {update : Run Unit}
    (test : condition.Obeys licence) (round : body.Obeys licence) (step : update.Obeys licence)
    (rounds : Nat) : (countingLoop condition body update rounds).Obeys licence := by
  -- by induction on the rounds: a loop that is cut short fails with its own fault
  induction rounds with
  | zero => exact obeys_throw stopped
  | succ rounds ih =>
    unfold countingLoop
    refine obeys_bind test fun holds => ?_
    split
    · refine obeys_bind round fun signal => ?_
      -- the loop ends on the first two signals and goes on behind the others
      split
      · exact obeys_pure _
      · exact obeys_pure _
      · exact obeys_bind step fun _ => ih
      · exact obeys_bind step fun _ => ih
    · exact obeys_pure _

/-- The rounds of a loop over an array obey on whatever elements they find. -/
theorem obeys_throughLoop {array : ArrayId} {body : Value → Run Signal}
    (round : ∀ element, (body element).Obeys licence) (rounds : Nat) :
    ∀ index, (throughLoop array body rounds index).Obeys licence := by
  induction rounds with
  | zero => exact fun _ => obeys_throw stopped
  | succ rounds ih =>
    intro index
    unfold throughLoop
    refine obeys_get_bind fun store => ?_
    split
    · exact obeys_pure _
    · rename_i element _
      refine obeys_bind (round element) fun signal => ?_
      split
      · exact obeys_pure _
      · exact obeys_pure _
      · exact ih _
      · exact ih _

end

end Run

end Script
