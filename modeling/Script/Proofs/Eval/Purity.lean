import Script.Proofs.Eval.Licence

/-!
# Running without calls

It is only by calls that an expression changes what exists already or prints anything. The store in
which an expression without calls ends is the one it began in with more arrays, objects and methods
of arrays (`Store.Extends`). A statement without calls may change names, arrays and objects, but it
prints nothing.

* `Expr.eval_obeys`: an expression without calls only adds to the store, and does end.
* `execBlock_obeys`: a block without calls prints nothing.
-/

namespace Script

/-! ## Texts without calls -/

mutual

/-- Whether no call stands in an expression. -/
def Expr.isCallFree : Expr → Bool
  | .array _ elements => elementsCallFree elements
  | .object _ properties => propertiesCallFree properties
  | .binary _ _ left right => left.isCallFree && right.isCallFree
  | .unary _ _ operand => operand.isCallFree
  | .member _ object _ => object.isCallFree
  | .computed _ object key => object.isCallFree && key.isCallFree
  | .call .. => false
  | _ => true

/-- Whether no call stands in any of some expressions. -/
def elementsCallFree : List Expr → Bool
  | [] => true
  | e :: rest => e.isCallFree && elementsCallFree rest

/-- Whether no call stands in the value of any of some properties. -/
def propertiesCallFree : List (String × Expr) → Bool
  | [] => true
  | (_, e) :: rest => e.isCallFree && propertiesCallFree rest

end

mutual

/-- Whether no call stands in a statement, nor in a procedure declared in it. -/
def Stmt.isCallFree : Stmt → Bool
  | .declare _ _ _ value => value.isCallFree
  | .assign _ _ value => value.isCallFree
  | .assignMember _ object _ value => object.isCallFree && value.isCallFree
  | .assignComputed _ object key value => object.isCallFree && key.isCallFree && value.isCallFree
  | .procedure _ _ _ body => blockCallFree body
  | .returns _ value => value.isCallFree
  | .leave _ | .proceed _ => true
  | .incase _ condition body fallback =>
    condition.isCallFree && blockCallFree body && fallback.isCallFree
  | .drift _ init condition update body =>
    init.isCallFree && condition.isCallFree && update.isCallFree && blockCallFree body
  | .through _ _ _ iterable body => iterable.isCallFree && blockCallFree body
  | .expression value => value.isCallFree

/-- Whether no call stands in a fallback. -/
def Fallback.isCallFree : Fallback → Bool
  | .nothing => true
  | .block body => blockCallFree body
  | .elif _ condition body fallback =>
    condition.isCallFree && blockCallFree body && fallback.isCallFree

/-- Whether no call stands in a block. -/
def blockCallFree : List Stmt → Bool
  | [] => true
  | first :: rest => first.isCallFree && blockCallFree rest

end

/-- Whether no call stands anywhere in a program. -/
def Program.isCallFree (program : Program) : Bool := blockCallFree program.body

/-! ## Adding to the store -/

/-- A store is another one with more arrays, objects and methods of arrays. -/
structure Store.Extends (store after : Store) : Prop where
  scopes : after.scopes = store.scopes
  output : after.output = store.output
  arrays : ∃ more, after.arrays = store.arrays ++ more
  objects : ∃ more, after.objects = store.objects ++ more
  functions : ∃ more, after.functions = store.functions ++ more ∧
    ∀ function ∈ more, ∃ (method : Method) (array : ArrayId),
      function = .builtin method.name (.method method array)

namespace Store.Extends

variable {first second third : Store}

theorem refl (store : Store) : store.Extends store where
  scopes := rfl
  output := rfl
  arrays := ⟨#[], Array.append_empty.symm⟩
  objects := ⟨#[], Array.append_empty.symm⟩
  functions := ⟨#[], Array.append_empty.symm, fun _ member => absurd member (Array.not_mem_empty _)⟩

theorem trans (one : first.Extends second) (two : second.Extends third) : first.Extends third where
  scopes := two.scopes.trans one.scopes
  output := two.output.trans one.output
  arrays := by
    obtain ⟨more, there⟩ := one.arrays
    obtain ⟨further, there'⟩ := two.arrays
    exact ⟨more ++ further, by rw [there', there, Array.append_assoc]⟩
  objects := by
    obtain ⟨more, there⟩ := one.objects
    obtain ⟨further, there'⟩ := two.objects
    exact ⟨more ++ further, by rw [there', there, Array.append_assoc]⟩
  functions := by
    obtain ⟨more, there, methods⟩ := one.functions
    obtain ⟨further, there', methodsToo⟩ := two.functions
    refine ⟨more ++ further, by rw [there', there, Array.append_assoc], ?_⟩
    intro function member
    rcases Array.mem_append.mp member with before | after
    · exact methods function before
    · exact methodsToo function after

end Store.Extends

/-- Nothing but additions to the store, and an end. -/
def Licence.adding : Licence where
  change := Store.Extends
  fault := fun fault => fault.isEndless = false
  refl := .refl
  trans := .trans
  ordinary := id

/-- Anything but lines to print. -/
def Licence.silent : Licence where
  change := fun store after => after.output = store.output
  fault := fun _ => True
  refl := fun _ => rfl
  trans := fun one two => two.trans one
  ordinary := fun _ => trivial

/-- To add to the store is to print nothing. -/
theorem Run.Obeys.silent_of_adding {α : Type} {run : Run α} (obeys : run.Obeys .adding) :
    run.Obeys .silent :=
  obeys.weaken Store.Extends.output fun _ => trivial

namespace Run

theorem adding_newArray (elements : List Value) : (newArray elements).Obeys .adding :=
  obeys_modifyGet fun store =>
    { Store.Extends.refl store with arrays := ⟨#[elements.toArray], Array.push_eq_append⟩ }

theorem adding_newObject (properties : List (String × Value)) :
    (newObject properties).Obeys .adding :=
  obeys_modifyGet fun store =>
    { Store.Extends.refl store with objects := ⟨#[.ofList properties], Array.push_eq_append⟩ }

theorem adding_newMethod (method : Method) (array : ArrayId) :
    (newFunction (.builtin method.name (.method method array))).Obeys .adding := by
  refine obeys_modifyGet fun store => ?_
  refine { Store.Extends.refl store with functions := ⟨_, Array.push_eq_append, ?_⟩ }
  intro function member
  exact ⟨method, array, Array.mem_singleton.mp member⟩

end Run

open Run

variable {call : Call} {scope : ScopeId}

mutual

/-- An expression without calls only adds to the store, whatever calls would do, and it ends. -/
theorem Expr.eval_obeys :
    ∀ {e : Expr}, e.isCallFree = true → (e.eval call scope).Obeys .adding
  | .number _ _, _ | .string _ _, _ | .boolean _ _, _ | .null _, _ | .nan _, _ => by
    rw [Expr.eval]
    exact obeys_pure _
  | .identifier _ name, _ => by
    rw [Expr.eval]
    exact obeys_lookup scope name
  | .array _ elements, free => by
    rw [Expr.eval]
    rw [Expr.isCallFree] at free
    exact obeys_bind (evalElements_obeys free) adding_newArray
  | .object _ properties, free => by
    rw [Expr.eval]
    rw [Expr.isCallFree] at free
    exact obeys_bind (evalProperties_obeys free) adding_newObject
  | .binary _ operator left right, free => by
    rw [Expr.eval]
    rw [Expr.isCallFree, Bool.and_eq_true] at free
    refine obeys_bind (Expr.eval_obeys free.1) fun x => ?_
    refine obeys_bind (Expr.eval_obeys free.2) fun y => ?_
    exact obeys_get_bind fun store => obeys_binary operator x y store
  | .unary _ operator operand, free => by
    rw [Expr.eval]
    rw [Expr.isCallFree] at free
    exact obeys_bind (Expr.eval_obeys free) fun x => obeys_unary operator x
  | .member _ object property, free => by
    rw [Expr.eval]
    rw [Expr.isCallFree] at free
    refine obeys_bind (Expr.eval_obeys free) fun target => ?_
    exact obeys_readMember adding_newMethod target property
  | .computed _ object key, free => by
    rw [Expr.eval]
    rw [Expr.isCallFree, Bool.and_eq_true] at free
    refine obeys_bind (Expr.eval_obeys free.1) fun target => ?_
    refine obeys_bind (Expr.eval_obeys free.2) fun keyValue => ?_
    exact obeys_get_bind fun store => obeys_readComputed target _
  | .call _ _ _, free => by
    rw [Expr.isCallFree] at free
    cases free
  -- a node without a rule fails, and the fault is no limit
  | .foreign _ _, _ => by
    rw [Expr.eval]
    exact obeys_throw rfl

theorem evalElements_obeys :
    ∀ {elements : List Expr}, elementsCallFree elements = true →
      (evalElements call scope elements).Obeys .adding
  | [], _ => by
    rw [evalElements]
    exact obeys_pure _
  | e :: rest, free => by
    rw [evalElements]
    rw [elementsCallFree, Bool.and_eq_true] at free
    refine obeys_bind (Expr.eval_obeys free.1) fun value => ?_
    exact obeys_bind (evalElements_obeys free.2) fun _ => obeys_pure _

theorem evalProperties_obeys :
    ∀ {properties : List (String × Expr)}, propertiesCallFree properties = true →
      (evalProperties call scope properties).Obeys .adding
  | [], _ => by
    rw [evalProperties]
    exact obeys_pure _
  | (key, e) :: rest, free => by
    rw [evalProperties]
    rw [propertiesCallFree, Bool.and_eq_true] at free
    refine obeys_bind (Expr.eval_obeys free.1) fun value => ?_
    exact obeys_bind (evalProperties_obeys free.2) fun _ => obeys_pure _

end

/-! ## Statements that print nothing -/

namespace Run

/-- Whatever happens to scopes, nothing is printed. -/
theorem silent_scopes (store : Store) (scopes : Scopes Value) :
    Licence.silent.change store { store with scopes } :=
  rfl

theorem silent_newFunction (function : Callable) : (newFunction function).Obeys .silent :=
  obeys_modifyGet fun _ => rfl

theorem silent_writeMember {target value : Value} {key : Run String} (obeys : key.Obeys .silent) :
    (writeMember target key value).Obeys .silent :=
  obeys_writeMember (fun _ _ => rfl) (fun _ _ => rfl) obeys

end Run

theorem Expr.eval_silent {e : Expr} (free : e.isCallFree = true) :
    (e.eval call scope).Obeys .silent :=
  (eval_obeys free).silent_of_adding

mutual

/-- A statement without calls prints nothing. -/
theorem Stmt.exec_obeys (rounds : Nat) :
    ∀ {s : Stmt} {scope : ScopeId}, s.isCallFree = true → (s.exec call rounds scope).Obeys .silent
  | .declare _ name constant value, scope, free => by
    rw [Stmt.exec]
    rw [Stmt.isCallFree] at free
    refine obeys_bind (Expr.eval_silent free) fun x => ?_
    exact obeys_bind (obeys_define silent_scopes _ _ _ _) fun _ => obeys_pure _
  | .assign _ name value, scope, free => by
    rw [Stmt.exec]
    rw [Stmt.isCallFree] at free
    refine obeys_bind (Expr.eval_silent free) fun x => ?_
    exact obeys_bind (obeys_assign silent_scopes _ _ _) fun _ => obeys_pure _
  | .assignMember _ object property value, scope, free => by
    rw [Stmt.exec]
    rw [Stmt.isCallFree, Bool.and_eq_true] at free
    refine obeys_bind (Expr.eval_silent free.1) fun target => ?_
    refine obeys_bind (Expr.eval_silent free.2) fun x => ?_
    exact obeys_bind (silent_writeMember (obeys_pure _)) fun _ => obeys_pure _
  | .assignComputed _ object key value, scope, free => by
    rw [Stmt.exec]
    rw [Stmt.isCallFree, Bool.and_eq_true, Bool.and_eq_true] at free
    refine obeys_bind (Expr.eval_silent free.1.1) fun target => ?_
    refine obeys_bind (Expr.eval_silent free.2) fun x => ?_
    refine obeys_bind (silent_writeMember ?_) fun _ => obeys_pure _
    exact obeys_bind (Expr.eval_silent free.1.2) fun _ => obeys_get_bind fun _ => obeys_pure _
  -- the body is kept for calls, of which there are none
  | .procedure _ name parameters body, scope, _ => by
    rw [Stmt.exec]
    refine obeys_bind (silent_newFunction _) fun function => ?_
    exact obeys_bind (obeys_define silent_scopes _ _ _ _) fun _ => obeys_pure _
  | .returns _ value, scope, free => by
    rw [Stmt.exec]
    rw [Stmt.isCallFree] at free
    exact obeys_bind (Expr.eval_silent free) fun _ => obeys_pure _
  | .leave _, _, _ | .proceed _, _, _ => by
    rw [Stmt.exec]
    exact obeys_pure _
  | .incase _ condition body fallback, scope, free => by
    rw [Stmt.exec]
    rw [Stmt.isCallFree, Bool.and_eq_true, Bool.and_eq_true] at free
    refine obeys_bind (Expr.eval_silent free.1.1) fun value => ?_
    refine obeys_bind (obeys_truth _ _) fun holds => ?_
    split
    · exact execBlock_obeys rounds free.1.2
    · exact Fallback.exec_obeys rounds free.2
  | .drift _ init condition update body, scope, free => by
    rw [Stmt.exec]
    rw [Stmt.isCallFree, Bool.and_eq_true, Bool.and_eq_true, Bool.and_eq_true] at free
    refine obeys_bind (obeys_openScope silent_scopes _) fun inner => ?_
    refine obeys_bind (Stmt.exec_obeys rounds free.1.1.1) fun _ => ?_
    refine obeys_countingLoop trivial ?_ (execBlock_obeys rounds free.2) ?_ rounds
    · exact obeys_bind (Expr.eval_silent free.1.1.2) fun _ => obeys_pure _
    · exact obeys_bind (Stmt.exec_obeys rounds free.1.2) fun _ => obeys_pure _
  | .through _ name constant iterable body, scope, free => by
    rw [Stmt.exec]
    rw [Stmt.isCallFree, Bool.and_eq_true] at free
    refine obeys_bind (Expr.eval_silent free.1) fun value => ?_
    split
    · refine obeys_throughLoop trivial (fun element => ?_) rounds 0
      refine obeys_bind (obeys_openScope silent_scopes _) fun inner => ?_
      refine obeys_bind (obeys_define silent_scopes _ _ _ _) fun _ => ?_
      exact execBlock_obeys rounds free.2
    · exact obeys_throw trivial
  | .expression value, scope, free => by
    rw [Stmt.exec]
    rw [Stmt.isCallFree] at free
    exact obeys_bind (Expr.eval_silent free) fun _ => obeys_pure _

theorem Fallback.exec_obeys (rounds : Nat) :
    ∀ {fallback : Fallback} {scope : ScopeId}, fallback.isCallFree = true →
      (fallback.exec call rounds scope).Obeys .silent
  | .nothing, _, _ => by
    rw [Fallback.exec]
    exact obeys_pure _
  | .block body, scope, free => by
    rw [Fallback.exec]
    rw [Fallback.isCallFree] at free
    exact execBlock_obeys rounds free
  | .elif _ condition body fallback, scope, free => by
    rw [Fallback.exec]
    rw [Fallback.isCallFree, Bool.and_eq_true, Bool.and_eq_true] at free
    refine obeys_bind (Expr.eval_silent free.1.1) fun value => ?_
    refine obeys_bind (obeys_truth _ _) fun holds => ?_
    split
    · exact execBlock_obeys rounds free.1.2
    · exact Fallback.exec_obeys rounds free.2

theorem execBlock_obeys (rounds : Nat) :
    ∀ {body : List Stmt} {scope : ScopeId} {last : Value}, blockCallFree body = true →
      (execBlock call rounds scope last body).Obeys .silent
  | [], _, _, _ => by
    rw [execBlock]
    exact obeys_pure _
  | first :: rest, scope, last, free => by
    rw [execBlock]
    rw [blockCallFree, Bool.and_eq_true] at free
    refine obeys_bind (Stmt.exec_obeys rounds free.1) fun signal => ?_
    split
    · exact execBlock_obeys rounds free.2
    · exact obeys_pure _

end

/-! ## Programs -/

/-- The lines of earlier runs are gone before a program runs, so one without calls prints none. -/
theorem Program.output_of_callFree {limits : Limits} {program : Program}
    (free : program.isCallFree = true) (store : Store) :
    ((program.run limits).final store).output = #[] := by
  have quiet : (do programResult (← program.exec limits)).Obeys .silent :=
    obeys_bind (execBlock_obeys limits.rounds free) obeys_programResult
  exact (quiet { store with output := #[] }).1

/-- What a session shows of such a program is empty, since the lines of earlier ones are gone. -/
theorem Session.run_of_callFree {limits : Limits} {session : Session} {program : Program}
    {text : String} (free : program.isCallFree = true)
    (finished : (session.run limits program).1 = .ok text) : text = "" := by
  have printed : ((program.run limits).final session.store).output = #[] :=
    program.output_of_callFree free session.store
  unfold Session.run at finished
  unfold Run.final at printed
  cases ran : program.run limits session.store with
  | ok value after =>
    rw [ran] at finished printed
    cases finished
    unfold Session.output
    rw [printed]
    rfl
  | error fault after =>
    rw [ran] at finished
    cases finished

end Script
