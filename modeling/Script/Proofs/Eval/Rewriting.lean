import Script.Proofs.Eval.Comparison
import Script.Proofs.Renaming.Tree
import Script.Proofs.Tree.Relocation

/-!
# Running rewritten programs

The trees that two runs execute are the same but for what running does not see or a comparison
allows for: the positions of nodes, the flags of declarations and, in expressions, names. Calls are
a hypothesis, so that they may nest less deep in one run than in the other. An expression compares
with the rewritten one if its names do; a statement with the rewritten one if each step that names
or functions take part in does (`Comparison.Stepwise`).

* `Expr.eval_compares`: an expression under other names and at other positions.
* `execBlock_compares`: a block at other positions and with other flags.
* `invoke_compares`: a call of a procedure at other positions and with other flags.
-/

namespace Script

/-! ## Trees with other flags -/

mutual

/-- A statement whose declarations and loop variables have other flags. -/
def Stmt.reflag (flag : Bool → Bool) : Stmt → Stmt
  | .declare position name constant value => .declare position name (flag constant) value
  | .assign position name value => .assign position name value
  | .assignMember position object property value => .assignMember position object property value
  | .assignComputed position object key value => .assignComputed position object key value
  | .procedure position name parameters body =>
    .procedure position name parameters (reflagBlock flag body)
  | .returns position value => .returns position value
  | .leave position => .leave position
  | .proceed position => .proceed position
  | .incase position condition body fallback =>
    .incase position condition (reflagBlock flag body) (fallback.reflag flag)
  | .drift position init condition update body =>
    .drift position (init.reflag flag) condition (update.reflag flag) (reflagBlock flag body)
  | .through position name constant iterable body =>
    .through position name (flag constant) iterable (reflagBlock flag body)
  | .expression value => .expression value

/-- A fallback whose declarations and loop variables have other flags. -/
def Fallback.reflag (flag : Bool → Bool) : Fallback → Fallback
  | .nothing => .nothing
  | .block body => .block (reflagBlock flag body)
  | .elif position condition body fallback =>
    .elif position condition (reflagBlock flag body) (fallback.reflag flag)

/-- Statements whose declarations and loop variables have other flags. -/
def reflagBlock (flag : Bool → Bool) : List Stmt → List Stmt
  | [] => []
  | s :: rest => s.reflag flag :: reflagBlock flag rest

end

mutual

/-- A tree that keeps its flags is as it was. -/
theorem Stmt.reflag_id : ∀ s : Stmt, s.reflag id = s
  | .declare .. | .assign .. | .assignMember .. | .assignComputed .. | .returns .. | .leave _
  | .proceed _ | .expression _ => by simp [Stmt.reflag]
  | .procedure _ _ _ body => by simp [Stmt.reflag, reflagBlock_id body]
  | .incase _ _ body fallback => by simp [Stmt.reflag, reflagBlock_id body, fallback.reflag_id]
  | .drift _ init _ update body => by
    simp [Stmt.reflag, init.reflag_id, update.reflag_id, reflagBlock_id body]
  | .through _ _ _ _ body => by simp [Stmt.reflag, reflagBlock_id body]

theorem Fallback.reflag_id : ∀ fallback : Fallback, fallback.reflag id = fallback
  | .nothing => by simp [Fallback.reflag]
  | .block body => by simp [Fallback.reflag, reflagBlock_id body]
  | .elif _ _ body fallback => by
    simp [Fallback.reflag, reflagBlock_id body, fallback.reflag_id]

theorem reflagBlock_id : ∀ body : List Stmt, reflagBlock id body = body
  | [] => by simp [reflagBlock]
  | s :: rest => by simp [reflagBlock, s.reflag_id, reflagBlock_id rest]

end

/-! ## Rewritten programs -/

/-- A procedure whose declarations have other flags. -/
def Procedure.reflag (flag : Bool → Bool) (procedure : Procedure) : Procedure :=
  { procedure with body := reflagBlock flag procedure.body }

/-- A function whose declarations have other flags. -/
def Callable.reflag (flag : Bool → Bool) : Callable → Callable
  | .procedure target => .procedure (target.reflag flag)
  | .builtin name action => .builtin name action

/-- A procedure at other positions. -/
def Procedure.relocate (shift : Position → Position) (procedure : Procedure) : Procedure :=
  { procedure with body := relocateBlock shift procedure.body }

/-- A function at other positions. -/
def Callable.relocate (shift : Position → Position) : Callable → Callable
  | .procedure target => .procedure (target.relocate shift)
  | .builtin name action => .builtin name action

/-- What becomes of positions and flags. -/
structure Rewriting where
  shift : Position → Position := id
  flag : Bool → Bool := id

namespace Rewriting

variable (rewriting : Rewriting)

/-- A block at other positions and with other flags. -/
def block (body : List Stmt) : List Stmt :=
  reflagBlock rewriting.flag (relocateBlock rewriting.shift body)

/-- A function at other positions and with other flags. -/
def callable (function : Callable) : Callable :=
  (function.relocate rewriting.shift).reflag rewriting.flag

/-! ### Only one of the two -/

@[simp]
theorem block_flag (flag : Bool → Bool) (body : List Stmt) :
    block { flag := flag } body = reflagBlock flag body := by
  simp [block, relocateBlock_id]

@[simp]
theorem block_shift (shift : Position → Position) (body : List Stmt) :
    block { shift := shift } body = relocateBlock shift body := by
  simp [block, reflagBlock_id]

@[simp]
theorem callable_flag (flag : Bool → Bool) (function : Callable) :
    callable { flag := flag } function = function.reflag flag := by
  cases function <;> simp [callable, Callable.relocate, Procedure.relocate, relocateBlock_id]

@[simp]
theorem callable_shift (shift : Position → Position) (function : Callable) :
    callable { shift := shift } function = function.relocate shift := by
  cases function <;>
    simp [callable, Callable.relocate, Callable.reflag, Procedure.reflag, reflagBlock_id]

@[simp]
theorem block_nothing (body : List Stmt) : block {} body = body := by
  simp [block, relocateBlock_id, reflagBlock_id]

@[simp]
theorem callable_nothing (function : Callable) : callable {} function = function := by
  cases function <;> simp [callable, Callable.relocate, Procedure.relocate, Callable.reflag,
    Procedure.reflag, relocateBlock_id, reflagBlock_id]

end Rewriting

open Run

variable {World : Type} {c : Comparison World} {w : World}
  {Functions : World → Callable → Callable → Prop} {call call' : Call}

/-- Calls of functions that belong together compare. -/
def CallsCompare (c : Comparison World) (Functions : World → Callable → Callable → Prop)
    (call call' : Call) : Prop :=
  ∀ w function function' arguments, Functions w function function' →
    Compares c w same (call function arguments) (call' function' arguments)

/-! ## Expressions -/

/-- From a world on, some names mean the same in a scope as what is put for them. -/
def Looks (c : Comparison World) (w : World) (scope : ScopeId) (change : String → String)
    (names : List String) : Prop :=
  ∀ w' name, c.Grows w w' → name ∈ names →
    Compares c w' same (lookup scope name) (lookup scope (change name))

section

variable {scope : ScopeId} {change : String → String} {names more : List String}

/-- Names that mean the same go on to do so. -/
theorem Looks.later {w' : World} (looks : Looks c w scope change names) (grows : c.Grows w w') :
    Looks c w' scope change names :=
  fun w₁ name further member => looks w₁ name (c.trans grows further) member

theorem looks_append : Looks c w scope change (names ++ more) ↔
    Looks c w scope change names ∧ Looks c w scope change more := by
  constructor
  · intro looks
    exact ⟨fun w' name grows member => looks w' name grows (List.mem_append_left _ member),
      fun w' name grows member => looks w' name grows (List.mem_append_right _ member)⟩
  · rintro ⟨first, second⟩ w' name grows member
    rcases List.mem_append.mp member with here | there
    · exact first w' name grows here
    · exact second w' name grows there

/-- What expressions need to have the same values: the steps that read and write arrays and objects
compare, and calls do. -/
structure Comparison.Evaluates (c : Comparison World)
    (Functions : World → Callable → Callable → Prop) (call call' : Call) : Prop
    extends c.Faithful Functions where
  calls : CallsCompare c Functions call call'

variable {shift : Position → Position}

mutual

/-- An expression has the same value under other names and at other positions. -/
theorem Expr.eval_compares (evaluates : c.Evaluates Functions call call') :
    ∀ (e : Expr) {w : World}, Looks c w scope change e.names →
      Compares c w same (e.eval call scope) (((e.rename change).relocate shift).eval call' scope)
  | .number _ _, _, _ | .string _ _, _, _ | .boolean _ _, _, _ | .null _, _, _ | .nan _, _, _ => by
    simp only [Expr.rename, Expr.relocate, Expr.eval]
    exact compares_pure rfl
  | .identifier _ name, w, looks => by
    simp only [Expr.rename, Expr.relocate, Expr.eval]
    exact looks w name (c.refl w) (List.mem_singleton.mpr rfl)
  | .array _ elements, _, looks => by
    simp only [Expr.rename, Expr.relocate, Expr.eval]
    exact compares_then (evalElements_compares evaluates elements looks) fun _ _ _ =>
      evaluates.newArray _
  | .object _ properties, _, looks => by
    simp only [Expr.rename, Expr.relocate, Expr.eval]
    exact compares_then (evalProperties_compares evaluates properties looks) fun _ _ _ =>
      evaluates.newObject _
  | .binary _ operator left right, _, looks => by
    obtain ⟨looksLeft, looksRight⟩ := looks_append.mp looks
    simp only [Expr.rename, Expr.relocate, Expr.eval]
    refine compares_then (left.eval_compares evaluates looksLeft) fun w₁ x grows => ?_
    refine compares_then (right.eval_compares evaluates (looksRight.later grows)) fun w₂ y _ => ?_
    exact evaluates.binary_bind operator x y
  | .unary _ operator operand, _, looks => by
    simp only [Expr.rename, Expr.relocate, Expr.eval]
    exact compares_then (operand.eval_compares evaluates looks) fun _ _ _ => compares_lift _
  | .member _ object property, _, looks => by
    simp only [Expr.rename, Expr.relocate, Expr.eval]
    exact compares_then (object.eval_compares evaluates looks) fun _ target _ =>
      evaluates.readMember target property
  | .computed _ object key, _, looks => by
    obtain ⟨looksObject, looksKey⟩ := looks_append.mp looks
    simp only [Expr.rename, Expr.relocate, Expr.eval]
    refine compares_then (object.eval_compares evaluates looksObject) fun w₁ target grows => ?_
    refine compares_then (key.eval_compares evaluates (looksKey.later grows)) fun _ keyValue _ => ?_
    -- a key is what the value is displayed as, the names of functions included
    exact evaluates.display_bind keyValue fun text => evaluates.readComputed target text
  | .call _ callee arguments, _, looks => by
    obtain ⟨looksCallee, looksArguments⟩ := looks_append.mp looks
    simp only [Expr.rename, Expr.relocate, Expr.eval]
    refine compares_then (callee.eval_compares evaluates looksCallee) fun w₁ value grows => ?_
    refine compares_bind (evaluates.callable value) fun w₂ function function' second related => ?_
    refine compares_then (evalElements_compares evaluates arguments
      (looksArguments.later (c.trans grows second))) fun w₃ values third => ?_
    exact evaluates.calls w₃ function function' values (evaluates.later third related)
  | .foreign _ _, _, _ => by
    simp only [Expr.rename, Expr.relocate, Expr.eval]
    exact compares_throw _

theorem evalElements_compares (evaluates : c.Evaluates Functions call call') :
    ∀ (elements : List Expr) {w : World}, Looks c w scope change (elementNames elements) →
      Compares c w same (evalElements call scope elements)
        (evalElements call' scope (relocateElements shift (renameElements change elements)))
  | [], _, _ => by
    simp only [renameElements, relocateElements, evalElements]
    exact compares_pure rfl
  | e :: rest, _, looks => by
    obtain ⟨looksFirst, looksRest⟩ := looks_append.mp looks
    simp only [renameElements, relocateElements, evalElements]
    refine compares_then (e.eval_compares evaluates looksFirst) fun w₁ value grows => ?_
    exact compares_then (evalElements_compares evaluates rest (looksRest.later grows)) fun _ _ _ =>
      compares_pure rfl

theorem evalProperties_compares (evaluates : c.Evaluates Functions call call') :
    ∀ (properties : List (String × Expr)) {w : World},
      Looks c w scope change (propertyNames properties) →
      Compares c w same (evalProperties call scope properties)
        (evalProperties call' scope (relocateProperties shift (renameProperties change properties)))
  | [], _, _ => by
    simp only [renameProperties, relocateProperties, evalProperties]
    exact compares_pure rfl
  | (key, e) :: rest, _, looks => by
    obtain ⟨looksFirst, looksRest⟩ := looks_append.mp looks
    simp only [renameProperties, relocateProperties, evalProperties]
    refine compares_then (e.eval_compares evaluates looksFirst) fun w₁ value grows => ?_
    exact compares_then (evalProperties_compares evaluates rest (looksRest.later grows))
      fun _ _ _ => compares_pure rfl

end

end

/-! ## Statements -/

/-- All steps in which names or functions take part compare with those of the rewritten program. -/
structure Comparison.Stepwise (c : Comparison World) (rewriting : Rewriting) : Prop
    extends c.Faithful fun _ function function' => function' = rewriting.callable function where
  lookup : ∀ w scope name, Compares c w same (lookup scope name) (lookup scope name)
  define : ∀ w scope name value constant, Compares c w same
    (define scope name value constant) (define scope name value constant)
  /-- A declaration may have another flag. -/
  declare : ∀ w scope name value constant, Compares c w same
    (Run.define scope name value constant) (Run.define scope name value (rewriting.flag constant))
  assign : ∀ w scope name value, Compares c w same
    (assign scope name value) (assign scope name value)
  openScope : ∀ w scope, Compares c w same (openScope scope) (openScope scope)

/-- Calls compare with those of the rewritten functions. -/
def CallsRewrite (c : Comparison World) (rewriting : Rewriting) (call call' : Call) : Prop :=
  CallsCompare c (fun _ function function' => function' = rewriting.callable function) call call'

/-- What statements and the rewritten ones need to end alike: the steps and the calls compare, and
loops may make as many rounds, unless the first run is excused from making more. -/
structure Comparison.Rewrites (c : Comparison World) (rewriting : Rewriting) (call call' : Call)
    (rounds more : Nat) : Prop extends c.Stepwise rewriting where
  calls : CallsRewrite c rewriting call call'
  narrower : Narrower (c.Excuses .loopRounds) rounds more

variable {rewriting : Rewriting} {rounds more : Nat}

/-- Names stay, so they mean the same. -/
theorem Comparison.Rewrites.eval (rewrites : c.Rewrites rewriting call call' rounds more) (e : Expr)
    (scope : ScopeId) :
    Compares c w same (e.eval call scope) ((e.relocate rewriting.shift).eval call' scope) := by
  have looks : Looks c w scope id e.names := fun w' name _ _ => rewrites.lookup w' scope name
  have evaluates : c.Evaluates _ call call' := ⟨rewrites.toFaithful, rewrites.calls⟩
  have compares : Compares c w same (e.eval call scope)
      (((e.rename id).relocate rewriting.shift).eval call' scope) := e.eval_compares evaluates looks
  rwa [e.rename_id] at compares

mutual

/-- A statement ends with the same signal at other positions and with other flags. -/
theorem Stmt.exec_compares (rewrites : c.Rewrites rewriting call call' rounds more)
    (scope : ScopeId) : ∀ (s : Stmt) {w : World},
    Compares c w same (s.exec call rounds scope)
      (((s.relocate rewriting.shift).reflag rewriting.flag).exec call' more scope)
  | .declare _ name constant value, _ => by
    simp only [Stmt.relocate, Stmt.reflag, Stmt.exec]
    refine compares_then (rewrites.eval value scope) fun w₁ x _ => ?_
    exact compares_then (rewrites.declare w₁ scope name x constant) fun _ _ _ => compares_pure rfl
  | .assign _ name value, _ => by
    simp only [Stmt.relocate, Stmt.reflag, Stmt.exec]
    refine compares_then (rewrites.eval value scope) fun w₁ x _ => ?_
    exact compares_then (rewrites.assign w₁ scope name x) fun _ _ _ => compares_pure rfl
  | .assignMember _ object property value, _ => by
    simp only [Stmt.relocate, Stmt.reflag, Stmt.exec]
    refine compares_then (rewrites.eval object scope) fun w₁ target _ => ?_
    refine compares_then (rewrites.eval value scope) fun w₂ x _ => ?_
    exact compares_then (rewrites.writeMember (compares_pure rfl)) fun _ _ _ => compares_pure rfl
  | .assignComputed _ object key value, _ => by
    simp only [Stmt.relocate, Stmt.reflag, Stmt.exec]
    refine compares_then (rewrites.eval object scope) fun w₁ target _ => ?_
    refine compares_then (rewrites.eval value scope) fun w₂ x _ => ?_
    refine compares_then (rewrites.writeMember ?_) fun _ _ _ => compares_pure rfl
    refine compares_then (rewrites.eval key scope) fun w₃ keyValue _ => ?_
    exact rewrites.display_bind keyValue fun _ => compares_pure rfl
  | .procedure _ name parameters body, _ => by
    simp only [Stmt.relocate, Stmt.reflag, Stmt.exec]
    refine compares_then (rewrites.newFunction rfl) fun w₁ function _ => ?_
    -- the name of a procedure is constant in both runs
    exact compares_then (rewrites.define w₁ scope name function true) fun _ _ _ =>
      compares_pure rfl
  | .returns _ value, _ | .expression value, _ => by
    simp only [Stmt.relocate, Stmt.reflag, Stmt.exec]
    exact compares_then (rewrites.eval value scope) fun _ _ _ => compares_pure rfl
  | .leave _, _ | .proceed _, _ => by
    simp only [Stmt.relocate, Stmt.reflag, Stmt.exec]
    exact compares_pure rfl
  | .incase _ condition body fallback, _ => by
    simp only [Stmt.relocate, Stmt.reflag, Stmt.exec]
    refine compares_then (rewrites.eval condition scope) fun w₁ x _ => ?_
    refine compares_then (compares_truth .incase x) fun w₂ holds _ => ?_
    split
    · exact execBlock_compares rewrites scope .zero body
    · exact fallback.exec_compares rewrites scope
  | .drift _ init condition update body, _ => by
    simp only [Stmt.relocate, Stmt.reflag, Stmt.exec]
    refine compares_then (rewrites.openScope _ scope) fun w₁ inner _ => ?_
    refine compares_then (init.exec_compares rewrites inner) fun w₂ _ _ => ?_
    refine compares_countingLoop rewrites.narrower ?_ ?_ ?_
    · intro w' _
      exact compares_then (rewrites.eval condition inner) fun _ _ _ => compares_pure rfl
    · intro w' _
      exact execBlock_compares rewrites inner .zero body
    · intro w' _
      exact compares_then (update.exec_compares rewrites inner) fun _ _ _ => compares_pure rfl
  | .through _ name constant iterable body, _ => by
    simp only [Stmt.relocate, Stmt.reflag, Stmt.exec]
    refine compares_then (rewrites.eval iterable scope) fun w₁ x _ => ?_
    cases x with
    | array id =>
      have elements {w' store store'} (stores : c.Stores w' store store') :
          store'.elements id = store.elements id := (rewrites.contents stores).elements id
      refine compares_throughLoop rewrites.narrower elements (fun w' element _ => ?_) 0
      refine compares_then (rewrites.openScope w' scope) fun w₂ inner _ => ?_
      refine compares_then (rewrites.declare w₂ inner name element constant) fun w₃ _ _ => ?_
      exact execBlock_compares rewrites inner .zero body
    | _ => exact compares_throw _

theorem Fallback.exec_compares (rewrites : c.Rewrites rewriting call call' rounds more)
    (scope : ScopeId) : ∀ (fallback : Fallback) {w : World},
    Compares c w same (fallback.exec call rounds scope)
      (((fallback.relocate rewriting.shift).reflag rewriting.flag).exec call' more scope)
  | .nothing, _ => by
    simp only [Fallback.relocate, Fallback.reflag, Fallback.exec]
    exact compares_pure rfl
  | .block body, _ => by
    simp only [Fallback.relocate, Fallback.reflag, Fallback.exec]
    exact execBlock_compares rewrites scope .zero body
  | .elif _ condition body fallback, _ => by
    simp only [Fallback.relocate, Fallback.reflag, Fallback.exec]
    refine compares_then (rewrites.eval condition scope) fun w₁ x _ => ?_
    refine compares_then (compares_truth .elif x) fun w₂ holds _ => ?_
    split
    · exact execBlock_compares rewrites scope .zero body
    · exact fallback.exec_compares rewrites scope

/-- The statements of a block end with the same signal at other positions and with other flags. -/
theorem execBlock_compares (rewrites : c.Rewrites rewriting call call' rounds more)
    (scope : ScopeId) (last : Value) : ∀ (body : List Stmt) {w : World},
    Compares c w same (execBlock call rounds scope last body)
      (execBlock call' more scope last (rewriting.block body))
  | [], _ => by
    simp only [Rewriting.block, relocateBlock, reflagBlock, execBlock]
    exact compares_pure rfl
  | first :: rest, _ => by
    simp only [Rewriting.block, relocateBlock, reflagBlock, execBlock]
    refine compares_then (first.exec_compares rewrites scope) fun w₁ signal _ => ?_
    cases signal with
    | normal value => exact execBlock_compares rewrites scope value rest
    | _ => exact compares_pure rfl

end

/-! ## Calls -/

section

variable (stepwise : c.Stepwise rewriting)

include stepwise

theorem Comparison.Stepwise.bindParameters (scope : ScopeId) (bound : List (String × Value)) :
    Compares c w same (bindParameters scope bound) (bindParameters scope bound) := by
  induction bound generalizing w with
  | nil => exact compares_pure rfl
  | cons entry rest ih =>
    exact compares_then (stepwise.define w scope entry.1 entry.2 false) fun _ _ _ => ih

theorem Comparison.Stepwise.enter (scope : ScopeId) (entries : List (String × Value)) :
    Compares c w same (enter scope entries) (enter scope entries) := by
  refine compares_then (stepwise.openScope w scope) fun w₁ frame _ => ?_
  exact compares_then (stepwise.bindParameters frame entries) fun _ _ _ => compares_pure rfl

/-- A call compares with that of the rewritten function, which may be allowed to nest deeper and to
make more rounds if the first run is excused from doing so. -/
theorem invoke_compares (narrower : Narrower (c.Excuses .loopRounds) rounds more)
    {depth deeper : Nat} (shallower : Narrower (c.Excuses .callDepth) depth deeper) :
    CallsRewrite c rewriting (invoke rounds depth) (invoke more deeper) := by
  -- the induction is on the calls that may still be nested in the first run
  induction depth using Nat.strongRecOn generalizing deeper with
  | ind depth ih =>
    rintro w function _ arguments rfl
    cases function with
    | builtin name action =>
      simp only [Rewriting.callable, Callable.relocate, Callable.reflag, invoke]
      exact stepwise.builtin action arguments
    | procedure procedure =>
      refine compares_procedure shallower rfl (fun _ => stepwise.enter _ _) ?_
      rintro less fewer rfl rfl left w' _ frame rfl
      have rewrites : c.Rewrites rewriting (invoke rounds less) (invoke more fewer) rounds more :=
        { stepwise with
          calls := ih less (Nat.lt_succ_self less) left
          narrower }
      exact execBlock_compares rewrites frame .zero procedure.body

/-! ## Programs -/

/-- The rest of a program, behind a value, has the same result when it is rewritten. -/
theorem rest_compares {limits wider : Limits} (tighter : limits.Tighter c.Excuses wider)
    (last : Value) (body : List Stmt) :
    Compares c w same
      (execBlock (invoke limits.rounds limits.depth) limits.rounds Store.globalScope last body >>=
        programResult)
      (execBlock (invoke wider.rounds wider.depth) wider.rounds Store.globalScope last
        (rewriting.block body) >>= programResult) := by
  have rewrites : c.Rewrites rewriting (invoke limits.rounds limits.depth)
      (invoke wider.rounds wider.depth) limits.rounds wider.rounds :=
    { stepwise with
      calls := invoke_compares stepwise tighter.rounds tighter.depth
      narrower := tighter.rounds }
  exact compares_then (execBlock_compares rewrites Store.globalScope last body)
    fun _ signal _ => compares_programResult signal

end

end Script
