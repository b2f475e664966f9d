import Script.Proofs.Eval.Bounds
import Script.Session

/-!
# Running keeps its bounds

Evaluation is made of steps that keep the bounds, so it keeps them: by recursion on expressions and
statements, and by induction on the depth of calls. Signals are what the text admits
(`Signal.Fits`), and a text gives rise to no fault but those it is to blame for and those that come
of values.
-/

namespace Script

open Run Bounds

variable {bounds : Bounds} {world store after : Store} {call : Call} {scope : ScopeId}

/-! ## Operators -/

/-- An operator gives a number, a string or a truth value, and never refers to anything. -/
theorem Store.binary_plain {operator : BinaryOp} {left right value : Value}
    (computed : store.binary operator left right = .ok value) : value.node? = none := by
  have numeric : ∀ {operator : BinaryOp} {compute : Number → Number → Number},
      Store.arithmetic operator compute left right = .ok value → value.node? = none := by
    intro operator compute found
    unfold Store.arithmetic Store.numbers at found
    split at found <;> cases found
    rfl
  have ordering : ∀ {operator : BinaryOp} {compare : Number → Number → Bool},
      Store.comparison operator compare left right = .ok value → value.node? = none := by
    intro operator compare found
    unfold Store.comparison at found
    split at found <;> cases found
    rfl
  have joining : ∀ {combine : Bool → Bool → Bool},
      Store.logical combine left right = .ok value → value.node? = none := by
    intro combine found
    unfold Store.logical at found
    split at found <;> cases found
    rfl
  unfold Store.binary at computed
  split at computed
  case h_1 =>
    unfold Store.sum at computed
    split at computed
    · cases computed
      rfl
    · cases computed
      rfl
    · exact numeric computed
  case h_2 | h_3 | h_4 | h_13 | h_14 => exact numeric computed
  case h_5 | h_6 | h_7 | h_8 => exact ordering computed
  case h_9 | h_10 =>
    cases computed
    rfl
  case h_11 | h_12 => exact joining computed
  case h_15 => cases computed

/-- The faults of operators that have a rule. -/
def Fault.isOfOperands : Fault → Bool
  | .operandKinds .. | .orderWithNull _ | .orderKinds .. | .arrayWithBoolean | .booleanWithArray
  | .negatedKind _ => true
  | _ => false

theorem Fault.ordinary_of_isOfOperands {fault : Fault} (operands : fault.isOfOperands = true) :
    fault.isOrdinary = true := by
  cases fault <;> first | rfl | cases operands

/-- An operator fails for its operands, or because it has no rule. -/
theorem Store.binary_fault {operator : BinaryOp} {left right : Value} {fault : Fault}
    (refused : store.binary operator left right = .error fault) :
    fault.isOfOperands = true ∨ fault ∈ operator.blame := by
  have numeric : ∀ {operator : BinaryOp} {compute : Number → Number → Number},
      Store.arithmetic operator compute left right = .error fault →
      fault.isOfOperands = true := by
    intro operator compute found
    unfold Store.arithmetic Store.numbers at found
    split at found <;> cases found
    rfl
  have ordering : ∀ {operator : BinaryOp} {compare : Number → Number → Bool},
      Store.comparison operator compare left right = .error fault →
      fault.isOfOperands = true := by
    intro operator compare found
    unfold Store.comparison at found
    split at found <;> cases found <;> rfl
  have joining : ∀ {combine : Bool → Bool → Bool},
      Store.logical combine left right = .error fault → fault.isOfOperands = true := by
    intro combine found
    unfold Store.logical at found
    split at found <;> cases found <;> rfl
  unfold Store.binary at refused
  split at refused
  case h_1 =>
    unfold Store.sum at refused
    split at refused
    · cases refused
    · cases refused
    · exact .inl (numeric refused)
  case h_2 | h_3 | h_4 | h_13 | h_14 => exact .inl (numeric refused)
  case h_5 | h_6 | h_7 | h_8 => exact .inl (ordering refused)
  case h_9 | h_10 => cases refused
  case h_11 | h_12 => exact .inl (joining refused)
  case h_15 =>
    cases refused
    exact .inr List.mem_cons_self

theorem Store.unary_plain {operator : UnaryOp} {operand value : Value}
    (computed : Store.unary operator operand = .ok value) : value.node? = none := by
  unfold Store.unary at computed
  split at computed
  · cases computed
    rfl
  · split at computed <;> cases computed
    rfl
  · cases computed

theorem Store.unary_fault {operator : UnaryOp} {operand : Value} {fault : Fault}
    (refused : Store.unary operator operand = .error fault) :
    fault.isOfOperands = true ∨ fault ∈ operator.blame := by
  unfold Store.unary at refused
  split at refused
  · cases refused
  · split at refused <;> cases refused
    exact .inl rfl
  · cases refused
    exact .inr List.mem_cons_self

/-- What a text is to blame for, or what comes of its operands. -/
theorem Bounds.allowed_of_blame {blame : List Fault} {fault : Fault}
    (allows : ∀ fault ∈ blame, bounds.allowed fault)
    (origin : fault.isOfOperands = true ∨ fault ∈ blame) : bounds.allowed fault := by
  rcases origin with operands | member
  · exact bounds.ordinary fault (Fault.ordinary_of_isOfOperands operands)
  · exact allows fault member

/-! ## Expressions -/

/-- A known function exists, unless calling what does not exist is allowed. -/
theorem upholds_callable {value : Value} (knows : bounds.Knows world value) :
    Upholds bounds world bounds.Permits (callable value) := by
  unfold callable
  split
  · rename_i id
    refine upholds_get_bind ?_
    intro store grows held
    have within : bounds.Within store (.function id) := (knows _ rfl).mono grows
    split
    · rename_i function found
      refine upholds_pure ?_
      intro later grown
      have permits : bounds.Permits store function := by
        cases function with
        | procedure procedure =>
          exact ⟨held.closed within (.captured found), held.blameless within found⟩
        | builtin name action =>
          cases action with
          | console => trivial
          | method method array => exact held.closed within (.receiver found)
      exact permits.mono grown
    · rename_i missing
      refine upholds_throw ?_
      rcases bounds.callable with allowed | exist
      · exact allowed
      · have has : store.Has (.function id) := by
          rcases within with base | ⟨_, has⟩
          · exact held.grown.has (exist _ base)
          · exact has
        exact absurd has (Nat.not_lt.mpr (Array.getElem?_eq_none_iff.mp missing))
  · rename_i other
    refine upholds_throw (bounds.ordinary _ ?_)
    cases value with
    | function id => exact absurd rfl (other id)
    | _ => rfl

/-- Calls keep the bounds. -/
def CallsUphold (bounds : Bounds) (call : Call) : Prop :=
  ∀ {world function arguments}, bounds.Permits world function →
    (∀ value ∈ arguments, bounds.Knows world value) →
    Upholds bounds world (known bounds) (call function arguments)

mutual

/-- Evaluation keeps the bounds, if calls do. -/
theorem Expr.eval_upholds (calls : CallsUphold bounds call) :
    ∀ (e : Expr) {world : Store}, (∀ fault ∈ e.blame, bounds.allowed fault) →
      bounds.Within world (.scope scope) →
      Upholds bounds world (known bounds) (e.eval call scope)
  | .number _ _, _, _, _ | .string _ _, _, _, _ | .boolean _ _, _, _, _ | .null _, _, _, _
  | .nan _, _, _, _ => by
    unfold Expr.eval
    exact upholds_plain rfl
  | .identifier _ name, _, _, within => by
    unfold Expr.eval
    exact upholds_lookup within
  | .array _ elements, _, allows, within => by
    unfold Expr.eval
    refine upholds_bind (evalElements_upholds calls elements allows within) ?_
    intro later values _ knows
    exact upholds_newArray knows
  | .object _ properties, _, allows, within => by
    unfold Expr.eval
    refine upholds_bind (evalProperties_upholds calls properties allows within) ?_
    intro later entries _ knows
    exact upholds_newObject knows
  | .binary _ operator left right, _, allows, within => by
    obtain ⟨allowsOperator, allowsBoth⟩ := List.forall_mem_append.mp allows
    obtain ⟨allowsLeft, allowsRight⟩ := List.forall_mem_append.mp allowsBoth
    unfold Expr.eval
    refine upholds_bind (left.eval_upholds calls allowsLeft within) ?_
    intro later x grows _
    refine upholds_bind (right.eval_upholds calls allowsRight (within.mono grows)) ?_
    intro last y _ _
    refine upholds_get_bind ?_
    intro store _ _
    refine upholds_lift ?_ ?_
    · intro value computed _ _
      exact knows_of_none (Store.binary_plain computed)
    · intro fault refused
      exact allowed_of_blame allowsOperator (Store.binary_fault refused)
  | .unary _ operator operand, _, allows, within => by
    obtain ⟨allowsOperator, allowsOperand⟩ := List.forall_mem_append.mp allows
    unfold Expr.eval
    refine upholds_bind (operand.eval_upholds calls allowsOperand within) ?_
    intro later x _ _
    refine upholds_lift ?_ ?_
    · intro value computed _ _
      exact knows_of_none (Store.unary_plain computed)
    · intro fault refused
      exact allowed_of_blame allowsOperator (Store.unary_fault refused)
  | .member _ object property, _, allows, within => by
    unfold Expr.eval
    refine upholds_bind (object.eval_upholds calls allows within) ?_
    intro later target _ knows
    exact upholds_readMember knows property
  | .computed _ object key, _, allows, within => by
    obtain ⟨allowsObject, allowsKey⟩ := List.forall_mem_append.mp allows
    unfold Expr.eval
    refine upholds_bind (object.eval_upholds calls allowsObject within) ?_
    intro later target grows knows
    refine upholds_bind (key.eval_upholds calls allowsKey (within.mono grows)) ?_
    intro last keyValue grown _
    refine upholds_get_bind ?_
    intro store more _
    exact upholds_readComputed (knows.mono (grown.trans more)) _
  | .call _ callee arguments, _, allows, within => by
    obtain ⟨allowsCallee, allowsArguments⟩ := List.forall_mem_append.mp allows
    unfold Expr.eval
    refine upholds_bind (callee.eval_upholds calls allowsCallee within) ?_
    intro later value grows knows
    refine upholds_bind (upholds_callable knows) ?_
    intro there function grown permits
    have withinThere := within.mono (grows.trans grown)
    refine upholds_bind (evalElements_upholds calls arguments allowsArguments withinThere) ?_
    intro last values more knowsAll
    exact calls (permits.mono more) knowsAll
  | .foreign _ _, _, allows, _ => by
    unfold Expr.eval
    exact upholds_throw (allows _ List.mem_cons_self)

theorem evalElements_upholds (calls : CallsUphold bounds call) :
    ∀ (elements : List Expr) {world : Store},
      (∀ fault ∈ elementBlame elements, bounds.allowed fault) →
      bounds.Within world (.scope scope) →
      Upholds bounds world (fun later values => ∀ value ∈ values, bounds.Knows later value)
        (evalElements call scope elements)
  | [], _, _, _ => by
    unfold evalElements
    refine upholds_pure ?_
    intro later _ value member
    cases member
  | e :: rest, _, allows, within => by
    obtain ⟨allowsFirst, allowsRest⟩ := List.forall_mem_append.mp allows
    unfold evalElements
    refine upholds_bind (e.eval_upholds calls allowsFirst within) ?_
    intro later value grows knows
    refine upholds_bind (evalElements_upholds calls rest allowsRest (within.mono grows)) ?_
    intro last values grown knowsRest
    refine upholds_pure ?_
    intro there more
    refine List.forall_mem_cons.mpr ⟨knows.mono (grown.trans more), ?_⟩
    intro other member
    exact (knowsRest other member).mono more

theorem evalProperties_upholds (calls : CallsUphold bounds call) :
    ∀ (properties : List (String × Expr)) {world : Store},
      (∀ fault ∈ propertyBlame properties, bounds.allowed fault) →
      bounds.Within world (.scope scope) →
      Upholds bounds world (fun later entries => ∀ entry ∈ entries, bounds.Knows later entry.2)
        (evalProperties call scope properties)
  | [], _, _, _ => by
    unfold evalProperties
    refine upholds_pure ?_
    intro later _ entry member
    cases member
  | (key, e) :: rest, _, allows, within => by
    obtain ⟨allowsFirst, allowsRest⟩ := List.forall_mem_append.mp allows
    unfold evalProperties
    refine upholds_bind (e.eval_upholds calls allowsFirst within) ?_
    intro later value grows knows
    refine upholds_bind (evalProperties_upholds calls rest allowsRest (within.mono grows)) ?_
    intro last entries grown knowsRest
    refine upholds_pure ?_
    intro there more
    refine List.forall_mem_cons.mpr ⟨knows.mono (grown.trans more), ?_⟩
    intro other member
    exact (knowsRest other member).mono more

end

/-! ## Signals and loops -/

/-- A signal has a known value and is one of some exits, unless it is normal. -/
def Signal.Fits (bounds : Bounds) (exits : List Exit) (store : Store) : Signal → Prop
  | .normal value => bounds.Knows store value
  | .returned value => bounds.Knows store value ∧ .returns ∈ exits
  | .broke => .leave ∈ exits
  | .continued => .proceed ∈ exits

/-- The result is a signal that fits. -/
def fitting (bounds : Bounds) (exits : List Exit) : Store → Signal → Prop :=
  fun store signal => signal.Fits bounds exits store

theorem Signal.Fits.mono {exits : List Exit} {signal : Signal}
    (fits : signal.Fits bounds exits store) (grows : store.Grows after) :
    signal.Fits bounds exits after := by
  cases signal with
  | normal value => exact Knows.mono fits grows
  | returned value => exact ⟨fits.1.mono grows, fits.2⟩
  | broke => exact fits
  | continued => exact fits

theorem Signal.Fits.more {exits more : List Exit} {signal : Signal}
    (fits : signal.Fits bounds exits store) (subset : exits ⊆ more) :
    signal.Fits bounds more store := by
  cases signal with
  | normal value => exact fits
  | returned value => exact ⟨fits.1, subset fits.2⟩
  | broke => exact subset fits
  | continued => exact subset fits

theorem upholds_more {exits more : List Exit} {run : Run Signal}
    (upholds : Upholds bounds world (fitting bounds exits) run)
    (subset : exits ⊆ more) :
    Upholds bounds world (fitting bounds more) run :=
  upholds_weaken upholds fun _ _ _ fits => fits.more subset

/-- A block or a loop without a value of its own. -/
theorem upholds_zero {exits : List Exit} :
    Upholds bounds world (fitting bounds exits)
      (pure (.normal .zero)) :=
  upholds_pure fun _ _ => knows_of_none rfl

theorem upholds_countingLoop {condition : Run Bool} {body : Run Signal} {update : Run Unit}
    {exits : List Exit}
    (test : ∀ {world}, bounds.Within world (.scope scope) →
      Upholds bounds world anything condition)
    (round : ∀ {world}, bounds.Within world (.scope scope) →
      Upholds bounds world (fitting bounds exits) body)
    (step : ∀ {world}, bounds.Within world (.scope scope) →
      Upholds bounds world anything update) (rounds : Nat) :
    ∀ {world}, bounds.Within world (.scope scope) →
      Upholds bounds world (fitting bounds (Exit.ofLoop exits))
        (countingLoop condition body update rounds) := by
  -- by induction on the rounds, in every world that the loop leads to. The exits of the body that
  -- the loop takes are none of its own
  induction rounds with
  | zero => exact fun _ => upholds_throw (bounds.ordinary _ rfl)
  | succ rounds ih =>
    intro world within
    unfold countingLoop
    refine upholds_bind (test within) ?_
    intro later holds grows _
    split
    · refine upholds_bind (round (within.mono grows)) ?_
      intro there signal grown fits
      have withinThere := within.mono (grows.trans grown)
      have goesOn : Upholds bounds there
          (fitting bounds (Exit.ofLoop exits))
          (update >>= fun _ => countingLoop condition body update rounds) := by
        refine upholds_bind (step withinThere) ?_
        intro last _ more _
        exact ih (withinThere.mono more)
      split
      · exact upholds_zero
      · exact upholds_pure fun last more =>
          ⟨fits.1.mono more, Exit.mem_ofLoop.mpr ⟨fits.2, rfl⟩⟩
      · exact goesOn
      · exact goesOn
    · exact upholds_zero

theorem upholds_throughLoop {array : ArrayId} {body : Value → Run Signal} {exits : List Exit}
    (round : ∀ {world element}, bounds.Within world (.scope scope) → bounds.Knows world element →
      Upholds bounds world (fitting bounds exits) (body element))
    (rounds : Nat) :
    ∀ {world} (index : Nat), bounds.Within world (.scope scope) →
      bounds.Within world (.array array) →
      Upholds bounds world (fitting bounds (Exit.ofLoop exits))
        (throughLoop array body rounds index) := by
  -- by induction on the rounds; the element of a round is known, since the array is
  induction rounds with
  | zero => exact fun _ _ _ => upholds_throw (bounds.ordinary _ rfl)
  | succ rounds ih =>
    intro world index within withinArray
    unfold throughLoop
    refine upholds_get_bind ?_
    intro store grows held
    split
    · exact upholds_zero
    · rename_i element found
      have knows : bounds.Knows store element := fun node refers =>
        held.closed (withinArray.mono grows) (.element (Array.mem_of_getElem? found) refers)
      refine upholds_bind (round (within.mono grows) knows) ?_
      intro there signal grown fits
      have goesOn := ih (index + 1) (within.mono (grows.trans grown))
        (withinArray.mono (grows.trans grown))
      split
      · exact upholds_zero
      · exact upholds_pure fun last more =>
          ⟨fits.1.mono more, Exit.mem_ofLoop.mpr ⟨fits.2, rfl⟩⟩
      · exact goesOn
      · exact goesOn

/-! ## Statements -/

theorem upholds_truth {clause : Clause} {value : Value} :
    Upholds bounds world anything (truth clause value) := by
  unfold truth
  split
  · exact upholds_pure fun _ _ => trivial
  · exact upholds_throw (bounds.ordinary _ rfl)

/-- The value of a statement that has one. -/
theorem upholds_normal {value : Value} {exits : List Exit} (knows : bounds.Knows world value) :
    Upholds bounds world (fitting bounds exits)
      (pure (.normal value)) :=
  upholds_pure fun _ grows => knows.mono grows

mutual

/-- Execution keeps the bounds, if calls do, and ends as the text admits. -/
theorem Stmt.exec_upholds (calls : CallsUphold bounds call) (rounds : Nat) :
    ∀ (s : Stmt) {scope : ScopeId} {world : Store}, (∀ fault ∈ s.blame, bounds.allowed fault) →
      bounds.Within world (.scope scope) →
      Upholds bounds world (fitting bounds s.exits)
        (s.exec call rounds scope)
  | .declare _ name constant value, scope, _, allows, within => by
    unfold Stmt.exec
    refine upholds_bind (value.eval_upholds calls allows within) ?_
    intro later x grows knows
    refine upholds_bind (upholds_define (within.mono grows) knows) ?_
    intro last _ grown _
    exact upholds_normal (knows.mono grown)
  | .assign _ name value, scope, _, allows, within => by
    unfold Stmt.exec
    refine upholds_bind (value.eval_upholds calls allows within) ?_
    intro later x grows knows
    refine upholds_bind (upholds_assign (within.mono grows) knows) ?_
    intro last _ grown _
    exact upholds_normal (knows.mono grown)
  | .assignMember _ object property value, scope, _, allows, within => by
    obtain ⟨allowsObject, allowsValue⟩ := List.forall_mem_append.mp allows
    unfold Stmt.exec
    refine upholds_bind (object.eval_upholds calls allowsObject within) ?_
    intro later target grows knowsTarget
    refine upholds_bind (value.eval_upholds calls allowsValue (within.mono grows)) ?_
    intro there x grown knows
    refine upholds_bind (upholds_writeMember (knowsTarget.mono grown) knows
      (upholds_pure fun _ _ => trivial)) ?_
    intro last _ more _
    exact upholds_normal (knows.mono more)
  | .assignComputed _ object key value, scope, _, allows, within => by
    obtain ⟨allowsObject, allowsRest⟩ := List.forall_mem_append.mp allows
    obtain ⟨allowsKey, allowsValue⟩ := List.forall_mem_append.mp allowsRest
    unfold Stmt.exec
    refine upholds_bind (object.eval_upholds calls allowsObject within) ?_
    intro later target grows knowsTarget
    refine upholds_bind (value.eval_upholds calls allowsValue (within.mono grows)) ?_
    intro there x grown knows
    have withinThere := within.mono (grows.trans grown)
    refine upholds_bind (upholds_writeMember (knowsTarget.mono grown) knows ?_) ?_
    · refine upholds_bind (key.eval_upholds calls allowsKey withinThere) ?_
      intro last keyValue _ _
      exact upholds_get_bind fun _ _ _ => upholds_pure fun _ _ => trivial
    · intro last _ more _
      exact upholds_normal (knows.mono more)
  | .procedure _ name parameters body, scope, _, allows, within => by
    unfold Stmt.exec
    refine upholds_bind (upholds_newFunction ⟨within, allows⟩) ?_
    intro later function grows knows
    refine upholds_bind (upholds_define (within.mono grows) knows) ?_
    intro last _ grown _
    exact upholds_normal (knows.mono grown)
  | .returns _ value, scope, _, allows, within => by
    unfold Stmt.exec
    refine upholds_bind (value.eval_upholds calls allows within) ?_
    intro later x _ knows
    exact upholds_pure fun last grown => ⟨knows.mono grown, List.mem_cons_self⟩
  | .leave _, _, _, _, _ => by
    unfold Stmt.exec
    exact upholds_pure fun _ _ => List.mem_cons_self
  | .proceed _, _, _, _, _ => by
    unfold Stmt.exec
    exact upholds_pure fun _ _ => List.mem_cons_self
  | .incase _ condition body fallback, scope, _, allows, within => by
    obtain ⟨allowsCondition, allowsRest⟩ := List.forall_mem_append.mp allows
    obtain ⟨allowsBody, allowsFallback⟩ := List.forall_mem_append.mp allowsRest
    unfold Stmt.exec
    refine upholds_bind (condition.eval_upholds calls allowsCondition within) ?_
    intro later value grows _
    refine upholds_bind upholds_truth ?_
    intro there holds grown _
    have withinThere := within.mono (grows.trans grown)
    split
    · exact upholds_more (execBlock_upholds calls rounds body (knows_of_none rfl) allowsBody
        withinThere) (List.subset_append_left _ _)
    · exact upholds_more (fallback.exec_upholds calls rounds allowsFallback withinThere)
        (List.subset_append_right _ _)
  | .drift _ init condition update body, scope, _, allows, within => by
    obtain ⟨allowsInit, allowsRest⟩ := List.forall_mem_append.mp allows
    obtain ⟨allowsCondition, allowsLoop⟩ := List.forall_mem_append.mp allowsRest
    obtain ⟨allowsUpdate, allowsBody⟩ := List.forall_mem_append.mp allowsLoop
    unfold Stmt.exec
    refine upholds_bind (upholds_openScope within) ?_
    intro later inner _ withinInner
    refine upholds_bind (init.exec_upholds calls rounds allowsInit withinInner) ?_
    intro there _ grown _
    refine upholds_countingLoop ?_ ?_ ?_ rounds (withinInner.mono grown)
    · intro world inside
      refine upholds_bind (condition.eval_upholds calls allowsCondition inside) ?_
      intro _ _ _ _
      exact upholds_pure fun _ _ => trivial
    · intro world inside
      exact execBlock_upholds calls rounds body (knows_of_none rfl) allowsBody inside
    · intro world inside
      refine upholds_bind (update.exec_upholds calls rounds allowsUpdate inside) ?_
      intro _ _ _ _
      exact upholds_pure fun _ _ => trivial
  | .through _ name constant iterable body, scope, _, allows, within => by
    obtain ⟨allowsIterable, allowsBody⟩ := List.forall_mem_append.mp allows
    unfold Stmt.exec
    refine upholds_bind (iterable.eval_upholds calls allowsIterable within) ?_
    intro later value grows knows
    split
    · refine upholds_throughLoop ?_ rounds 0 (within.mono grows) (knows _ rfl)
      intro world element inside knowsElement
      refine upholds_bind (upholds_openScope inside) ?_
      intro there inner grown withinInner
      refine upholds_bind (upholds_define withinInner (knowsElement.mono grown)) ?_
      intro last _ more _
      exact execBlock_upholds calls rounds body (knows_of_none rfl) allowsBody
        (withinInner.mono more)
    · exact upholds_throw (bounds.ordinary _ rfl)
  | .expression value, scope, _, allows, within => by
    unfold Stmt.exec
    refine upholds_bind (value.eval_upholds calls allows within) ?_
    intro later x _ knows
    exact upholds_normal knows

theorem Fallback.exec_upholds (calls : CallsUphold bounds call) (rounds : Nat) :
    ∀ (fallback : Fallback) {scope : ScopeId} {world : Store},
      (∀ fault ∈ fallback.blame, bounds.allowed fault) → bounds.Within world (.scope scope) →
      Upholds bounds world (fitting bounds fallback.exits)
        (fallback.exec call rounds scope)
  | .nothing, _, _, _, _ => by
    unfold Fallback.exec
    exact upholds_zero
  | .block body, _, _, allows, within => by
    unfold Fallback.exec
    exact execBlock_upholds calls rounds body (knows_of_none rfl) allows within
  | .elif _ condition body fallback, _, _, allows, within => by
    obtain ⟨allowsCondition, allowsRest⟩ := List.forall_mem_append.mp allows
    obtain ⟨allowsBody, allowsFallback⟩ := List.forall_mem_append.mp allowsRest
    unfold Fallback.exec
    refine upholds_bind (condition.eval_upholds calls allowsCondition within) ?_
    intro later value grows _
    refine upholds_bind upholds_truth ?_
    intro there holds grown _
    have withinThere := within.mono (grows.trans grown)
    split
    · exact upholds_more (execBlock_upholds calls rounds body (knows_of_none rfl) allowsBody
        withinThere) (List.subset_append_left _ _)
    · exact upholds_more (fallback.exec_upholds calls rounds allowsFallback withinThere)
        (List.subset_append_right _ _)

theorem execBlock_upholds (calls : CallsUphold bounds call) (rounds : Nat) :
    ∀ (body : List Stmt) {scope : ScopeId} {last : Value} {world : Store},
      bounds.Knows world last → (∀ fault ∈ blockBlame body, bounds.allowed fault) →
      bounds.Within world (.scope scope) →
      Upholds bounds world (fitting bounds (blockExits body))
        (execBlock call rounds scope last body)
  | [], _, _, _, knows, _, _ => by
    unfold execBlock
    exact upholds_normal knows
  | first :: rest, _, _, _, _, allows, within => by
    obtain ⟨allowsFirst, allowsRest⟩ := List.forall_mem_append.mp allows
    unfold execBlock
    refine upholds_bind (first.exec_upholds calls rounds allowsFirst within) ?_
    intro later signal grows fits
    split
    · exact upholds_more (execBlock_upholds calls rounds rest fits allowsRest (within.mono grows))
        (List.subset_append_right _ _)
    · exact upholds_pure fun last grown =>
        (fits.mono grown).more (List.subset_append_left _ _)

end

/-! ## Calls -/

/-- A signal that leaves a body without being returned is stray. -/
theorem upholds_callResult {exits : List Exit} {signal : Signal}
    (fits : signal.Fits bounds exits world)
    (allows : ∀ fault ∈ (Exit.ofCall exits).map Exit.stray, bounds.allowed fault) :
    Upholds bounds world (known bounds) (callResult signal) := by
  have stray : ∀ exit ∈ exits, exit ≠ .returns → bounds.allowed exit.stray :=
    fun exit member left => allows _ (List.mem_map_of_mem (Exit.mem_ofCall.mpr ⟨member, left⟩))
  cases signal with
  | normal value => exact upholds_pure fun _ grows => Knows.mono fits grows
  | returned value => exact upholds_pure fun _ grows => fits.1.mono grows
  | broke => exact upholds_throw (stray .leave fits (by decide))
  | continued => exact upholds_throw (stray .proceed fits (by decide))

/-- Calls keep the bounds, however deep they nest. -/
theorem invoke_upholds (rounds depth : Nat) : CallsUphold bounds (invoke rounds depth) := by
  induction depth with
  | zero =>
    intro world function arguments permits knows
    unfold invoke
    split
    · exact upholds_builtin permits knows
    · split
      · exact upholds_throw (bounds.ordinary _ rfl)
      · exact upholds_throw (bounds.ordinary _ rfl)
  | succ depth ih =>
    intro world function arguments permits knows
    unfold invoke
    split
    · exact upholds_builtin permits knows
    · rename_i procedure
      obtain ⟨within, blameless⟩ := permits
      obtain ⟨allowsBody, allowsExits⟩ := List.forall_mem_append.mp blameless
      split
      · exact upholds_throw (bounds.ordinary _ rfl)
      · refine upholds_bind (upholds_openScope within) ?_
        intro later frame grows withinFrame
        have knowsEntries : ∀ entry ∈ procedure.parameters.zip arguments,
            bounds.Knows later entry.2 := fun entry member =>
          (knows entry.2 (List.of_mem_zip member).2).mono grows
        refine upholds_bind (upholds_bindParameters withinFrame knowsEntries) ?_
        intro there _ grown _
        refine upholds_bind (execBlock_upholds ih rounds procedure.body (knows_of_none rfl)
          allowsBody (withinFrame.mono grown)) ?_
        intro last signal _ fits
        exact upholds_callResult fits allowsExits

/-! ## Programs -/

/-- A signal that leaves a program is stray, returned or not. -/
theorem upholds_programResult {exits : List Exit}
    {signal : Signal} (fits : signal.Fits bounds exits world)
    (allows : ∀ fault ∈ exits.map Exit.stray, bounds.allowed fault) :
    Upholds bounds world (known bounds) (programResult signal) := by
  have stray : ∀ exit ∈ exits, bounds.allowed exit.stray := fun exit member =>
    allows _ (List.mem_map_of_mem member)
  cases signal with
  | normal value => exact upholds_pure fun _ grows => Knows.mono fits grows
  | returned value => exact upholds_throw (stray .returns fits.2)
  | broke => exact upholds_throw (stray .leave fits)
  | continued => exact upholds_throw (stray .proceed fits)

/-- Programs keep the bounds, if these contain the outermost scope and the faults that the program
is to blame for. -/
theorem Program.run_upholds (limits : Limits) (program : Program)
    (allows : ∀ fault ∈ program.blame, bounds.allowed fault)
    (within : bounds.Within world (.scope Store.globalScope)) :
    Upholds bounds world (known bounds) (program.run limits) := by
  obtain ⟨allowsBody, allowsExits⟩ := List.forall_mem_append.mp allows
  unfold Program.run Program.exec
  refine upholds_bind (upholds_modify fun _ _ held => held_output held _) ?_
  intro later _ grows _
  refine upholds_bind (execBlock_upholds (invoke_upholds limits.rounds limits.depth) limits.rounds
    program.body (knows_of_none rfl) allowsBody (within.mono grows)) ?_
  intro last signal _ fits
  exact upholds_programResult fits allowsExits

/-- A session shows the fault of a run as it is. -/
theorem Session.allowed_of_run {limits : Limits} {session : Session}
    {program : Program} {wanted : Store → Value → Prop}
    (upholds : Upholds bounds session.store wanted (program.run limits))
    (held : bounds.Held session.store) {fault : Fault}
    (failed : (session.run limits program).1 = .error fault) : bounds.allowed fault := by
  have ends := upholds session.store (.refl _) held
  unfold Session.run at failed
  cases ran : program.run limits session.store with
  | ok value after =>
    rw [ran] at failed
    cases failed
  | error found after =>
    rw [ran] at failed ends
    cases failed
    exact ends.2

end Script
