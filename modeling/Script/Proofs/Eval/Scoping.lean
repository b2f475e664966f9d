import Script.Proofs.Eval.Licence
import Script.Proofs.Scope

/-!
# What running does to scopes

A scope that exists keeps its parent and, of every name, whether it is bound, whether it is
constant, and its value if it is: `Scopes.Keeps` says so of two states, but for names that may
change, and `Licence.keeping` is the licence to do all else, for computations however they end.
Nothing may change while an expression is evaluated; while a statement is executed, only the names
that it declares in its own scope may (`Stmt.declared`).

Loops and calls work in new scopes, where everything may change: a scope that is new is none of
those that existed (`keeps_openScope`).
-/

namespace Script

/-! ## States -/

/-- A name stays bound or unbound, keeps its flag, and keeps its value if it is constant. -/
def Binding.Persists : Option (Binding Value) → Option (Binding Value) → Prop
  | none, none => True
  | some old, some new =>
    new.constant = old.constant ∧ (old.constant = true → new.value = old.value)
  | _, _ => False

theorem Binding.Persists.refl (binding : Option (Binding Value)) : Persists binding binding := by
  cases binding with
  | none => trivial
  | some old => exact ⟨rfl, fun _ => rfl⟩

theorem Binding.Persists.trans {first second third : Option (Binding Value)}
    (one : Persists first second) (other : Persists second third) : Persists first third := by
  cases first <;> cases second <;> cases third
  case none.none.none => trivial
  case some.some.some =>
    obtain ⟨flag, value⟩ := one
    obtain ⟨nextFlag, nextValue⟩ := other
    refine ⟨nextFlag.trans flag, ?_⟩
    intro constant
    rw [nextValue (flag.trans constant), value constant]
  all_goals first | exact one.elim | exact other.elim

/-- The scopes there were keep their parents and bindings, but for some names that may change. -/
structure Scopes.Keeps (changes : ScopeId → String → Prop) (before after : Scopes Value) :
    Prop where
  size : before.size ≤ after.size
  parent : ∀ scope < before.size, after.parent? scope = before.parent? scope
  binding : ∀ scope < before.size, ∀ name, ¬ changes scope name →
    Binding.Persists (before.local? scope name) (after.local? scope name)

namespace Scopes.Keeps

variable {changes : ScopeId → String → Prop} {first second third : Scopes Value}

theorem refl (scopes : Scopes Value) : Keeps changes scopes scopes where
  size := Nat.le_refl _
  parent := fun _ _ => rfl
  binding := fun _ _ _ _ => .refl _

theorem trans (one : Keeps changes first second) (other : Keeps changes second third) :
    Keeps changes first third where
  size := Nat.le_trans one.size other.size
  parent := fun scope inside =>
    (other.parent scope (Nat.lt_of_lt_of_le inside one.size)).trans (one.parent scope inside)
  binding := fun scope inside name stays =>
    (one.binding scope inside name stays).trans
      (other.binding scope (Nat.lt_of_lt_of_le inside one.size) name stays)

theorem weaken {more : ScopeId → String → Prop} (keeps : Keeps changes first second)
    (weaker : ∀ scope name, changes scope name → more scope name) : Keeps more first second where
  size := keeps.size
  parent := keeps.parent
  binding := fun scope inside name stays =>
    keeps.binding scope inside name fun changed => stays (weaker scope name changed)

/-- A declaration keeps all but one name, and that one too if the new binding may stand for the old
one. -/
theorem define (scopes : Scopes Value) {scope : ScopeId} {name : String} (value : Value)
    (constant : Bool)
    (persists : scope < scopes.size → ¬ changes scope name →
      Binding.Persists (scopes.local? scope name) (some ⟨value, constant⟩)) :
    Keeps changes scopes (scopes.define scope name value constant) where
  size := Nat.le_of_eq Scopes.size_define.symm
  parent := fun _ _ => Scopes.parent?_define
  binding := by
    intro other inside n stays
    by_cases same : other = scope ∧ n = name
    · obtain ⟨rfl, rfl⟩ := same
      rw [Scopes.local?_define_self inside]
      exact persists inside stays
    · rw [Scopes.local?_define_of_ne same]
      exact .refl _

end Scopes.Keeps

/-! ## Computations -/

/-- To do anything, but to keep the scopes except for some names. -/
def Licence.keeping (changes : ScopeId → String → Prop) : Licence where
  change store after := Scopes.Keeps changes store.scopes after.scopes
  fault _ := True
  refl store := .refl store.scopes
  trans := .trans
  ordinary _ := trivial

namespace Run

variable {α β : Type} {changes : ScopeId → String → Prop}

/-- No name may change. -/
def nothing : ScopeId → String → Prop := fun _ _ => False

theorem Obeys.keeping_fewer {more : ScopeId → String → Prop} {run : Run α}
    (keeps : run.Obeys (.keeping changes))
    (weaker : ∀ scope name, changes scope name → more scope name) : run.Obeys (.keeping more) :=
  keeps.weaken (fun kept => Scopes.Keeps.weaken kept weaker) id

theorem Obeys.ofNothing {run : Run α} (keeps : run.Obeys (.keeping nothing)) :
    run.Obeys (.keeping changes) :=
  keeps.keeping_fewer fun _ _ => False.elim

/-! ## Names and scopes -/

/-- A declaration changes one name of one scope. -/
theorem keeps_define (scope : ScopeId) (name : String) (value : Value) (constant : Bool) :
    (define scope name value constant).Obeys (.keeping fun s n => s = scope ∧ n = name) :=
  obeys_modify fun store =>
    Scopes.Keeps.define store.scopes value constant fun _ stays => absurd ⟨rfl, rfl⟩ stays

/-- An assignment finds a binding that is no constant, and leaves one. -/
theorem keeps_assign (scope : ScopeId) (name : String) (value : Value) :
    (assign scope name value).Obeys (.keeping changes) := by
  unfold assign
  refine obeys_get_bind_self fun store => ⟨?_, fun _ _ _ => trivial⟩
  split
  · rename_i owner found
    obtain ⟨old, bound⟩ := Scopes.local?_of_assignee found
    refine Scopes.Keeps.define store.scopes value false fun _ _ => ?_
    rw [bound]
    -- the flag was off and stays off, so any value will do
    exact ⟨rfl, fun constant => by cases constant⟩
  · exact Scopes.Keeps.refl _

/-- In a new scope everything may change. -/
theorem keeps_openScope {parent : ScopeId} {next : ScopeId → Run α}
    (inside : ∀ inner, (next inner).Obeys (.keeping fun s n => s = inner ∨ changes s n)) :
    (openScope parent >>= next).Obeys (.keeping changes) := by
  intro store
  refine ⟨?_, fun _ _ _ => trivial⟩
  -- the new scope has a number that none of the old ones has
  have rest := (inside store.scopes.size { store with scopes := store.scopes.child parent }).1
  refine ⟨?_, ?_, ?_⟩
  · have grown := rest.size
    rw [Scopes.size_child] at grown
    exact Nat.le_of_succ_le grown
  · intro scope old
    have kept := rest.parent scope (by rw [Scopes.size_child]; omega)
    rw [Scopes.parent?_child_of_lt old] at kept
    exact kept
  · intro scope old name stays
    have kept := rest.binding scope (by rw [Scopes.size_child]; omega) name ?_
    · rw [Scopes.local?_child_of_lt old] at kept
      exact kept
    · rintro (same | changed)
      · exact Nat.ne_of_lt old same
      · exact stays changed

/-! ## Arrays, objects and functions -/

theorem keeps_newArray (elements : List Value) : (newArray elements).Obeys (.keeping changes) :=
  obeys_modifyGet fun store => Scopes.Keeps.refl store.scopes

theorem keeps_newObject (properties : List (String × Value)) :
    (newObject properties).Obeys (.keeping changes) :=
  obeys_modifyGet fun store => Scopes.Keeps.refl store.scopes

theorem keeps_newFunction (callable : Callable) :
    (newFunction callable).Obeys (.keeping changes) :=
  obeys_modifyGet fun store => Scopes.Keeps.refl store.scopes

theorem keeps_writeMember {target value : Value} {key : Run String}
    (keeps : key.Obeys (.keeping changes)) :
    (writeMember target key value).Obeys (.keeping changes) :=
  obeys_writeMember (fun _ _ => Scopes.Keeps.refl _) (fun _ _ => Scopes.Keeps.refl _) keeps

end Run

/-! ## Expressions -/

open Run

/-- Calls keep all scopes. -/
def CallsKeep (call : Call) : Prop :=
  ∀ function arguments, (call function arguments).Obeys (.keeping nothing)

mutual

/-- Evaluation keeps all scopes, if calls do. -/
theorem Expr.eval_keeps {call : Call} (calls : CallsKeep call) (scope : ScopeId) :
    ∀ e : Expr, (e.eval call scope).Obeys (.keeping nothing)
  | .number _ _ | .string _ _ | .boolean _ _ | .null _ | .nan _ => by
    unfold Expr.eval
    exact obeys_pure _
  | .identifier _ name => by
    unfold Expr.eval
    exact obeys_lookup scope name
  | .array _ elements => by
    unfold Expr.eval
    exact obeys_bind (evalElements_keeps calls scope elements) keeps_newArray
  | .object _ properties => by
    unfold Expr.eval
    exact obeys_bind (evalProperties_keeps calls scope properties) keeps_newObject
  | .binary _ operator left right => by
    unfold Expr.eval
    refine obeys_bind (left.eval_keeps calls scope) ?_
    intro x
    refine obeys_bind (right.eval_keeps calls scope) ?_
    intro y
    exact obeys_get_bind fun store => obeys_binary operator x y store
  | .unary _ operator operand => by
    unfold Expr.eval
    exact obeys_bind (operand.eval_keeps calls scope) fun x => obeys_unary operator x
  | .member _ object property => by
    unfold Expr.eval
    exact obeys_bind (object.eval_keeps calls scope) fun target =>
      obeys_readMember (fun _ _ => keeps_newFunction _) target property
  | .computed _ object key => by
    unfold Expr.eval
    refine obeys_bind (object.eval_keeps calls scope) ?_
    intro target
    refine obeys_bind (key.eval_keeps calls scope) ?_
    intro keyValue
    exact obeys_get_bind fun store => obeys_readComputed target _
  | .call _ callee arguments => by
    unfold Expr.eval
    refine obeys_bind (callee.eval_keeps calls scope) ?_
    intro value
    refine obeys_bind (obeys_callable value) ?_
    intro function
    exact obeys_bind (evalElements_keeps calls scope arguments) fun values => calls function values
  | .foreign _ _ => by
    unfold Expr.eval
    exact obeys_throw trivial

theorem evalElements_keeps {call : Call} (calls : CallsKeep call) (scope : ScopeId) :
    ∀ elements : List Expr, (evalElements call scope elements).Obeys (.keeping nothing)
  | [] => by
    unfold evalElements
    exact obeys_pure _
  | e :: rest => by
    unfold evalElements
    refine obeys_bind (e.eval_keeps calls scope) ?_
    intro value
    exact obeys_bind (evalElements_keeps calls scope rest) fun _ => obeys_pure _

theorem evalProperties_keeps {call : Call} (calls : CallsKeep call) (scope : ScopeId) :
    ∀ properties : List (String × Expr),
      (evalProperties call scope properties).Obeys (.keeping nothing)
  | [] => by
    unfold evalProperties
    exact obeys_pure _
  | (key, e) :: rest => by
    unfold evalProperties
    refine obeys_bind (e.eval_keeps calls scope) ?_
    intro value
    exact obeys_bind (evalProperties_keeps calls scope rest) fun _ => obeys_pure _

end

/-! ## Statements -/

mutual

/-- The names that a statement declares in its own scope: those of its variable and procedure
declarations outside all loops and procedure bodies. -/
def Stmt.declared : Stmt → List String
  | .declare _ name _ _ => [name]
  | .procedure _ name _ _ => [name]
  | .incase _ _ body fallback => declaredBlock body ++ fallback.declared
  | _ => []

/-- The names that a fallback declares. -/
def Fallback.declared : Fallback → List String
  | .nothing => []
  | .block body => declaredBlock body
  | .elif _ _ body fallback => declaredBlock body ++ fallback.declared

/-- The names that the statements of a block declare. -/
def declaredBlock : List Stmt → List String
  | [] => []
  | first :: rest => first.declared ++ declaredBlock rest

end

/-- Some names may change in one scope. -/
def within (scope : ScopeId) (names : List String) : ScopeId → String → Prop :=
  fun s n => s = scope ∧ n ∈ names

theorem Run.Obeys.within_subset {α : Type} {run : Run α} {scope : ScopeId}
    {names more : List String} (keeps : run.Obeys (.keeping (within scope names)))
    (subset : names ⊆ more) : run.Obeys (.keeping (within scope more)) :=
  keeps.keeping_fewer fun _ _ changed => ⟨changed.1, subset changed.2⟩

/-- What changes names in a new scope only keeps those there were. -/
theorem Run.Obeys.within_inner {α : Type} {run : Run α} {inner : ScopeId} {names : List String}
    {changes : ScopeId → String → Prop} (keeps : run.Obeys (.keeping (within inner names))) :
    run.Obeys (.keeping fun s n => s = inner ∨ changes s n) :=
  keeps.keeping_fewer fun _ _ changed => .inl changed.1

mutual

/-- A statement keeps all scopes but for the names that it declares in its own. -/
theorem Stmt.exec_keeps {call : Call} (calls : CallsKeep call) (rounds : Nat) (scope : ScopeId) :
    ∀ s : Stmt, (s.exec call rounds scope).Obeys (.keeping (within scope s.declared))
  | .declare _ name constant value => by
    unfold Stmt.exec
    refine obeys_bind (value.eval_keeps calls scope).ofNothing ?_
    intro x
    refine obeys_bind ?_ fun _ => obeys_pure _
    exact (keeps_define scope name x constant).keeping_fewer fun _ _ ⟨here, same⟩ =>
      ⟨here, List.mem_singleton.mpr same⟩
  | .assign _ name value => by
    unfold Stmt.exec
    refine obeys_bind (value.eval_keeps calls scope).ofNothing ?_
    intro x
    exact obeys_bind (keeps_assign scope name x) fun _ => obeys_pure _
  | .assignMember _ object property value => by
    unfold Stmt.exec
    refine obeys_bind (object.eval_keeps calls scope).ofNothing ?_
    intro target
    refine obeys_bind (value.eval_keeps calls scope).ofNothing ?_
    intro x
    exact obeys_bind (keeps_writeMember (obeys_pure property)) fun _ => obeys_pure _
  | .assignComputed _ object key value => by
    unfold Stmt.exec
    refine obeys_bind (object.eval_keeps calls scope).ofNothing ?_
    intro target
    refine obeys_bind (value.eval_keeps calls scope).ofNothing ?_
    intro x
    refine obeys_bind (keeps_writeMember ?_) fun _ => obeys_pure _
    refine obeys_bind (key.eval_keeps calls scope).ofNothing ?_
    intro keyValue
    exact obeys_get_bind fun _ => obeys_pure _
  | .procedure _ name parameters body => by
    unfold Stmt.exec
    refine obeys_bind (keeps_newFunction _) ?_
    intro function
    refine obeys_bind ?_ fun _ => obeys_pure _
    exact (keeps_define scope name function true).keeping_fewer fun _ _ ⟨here, same⟩ =>
      ⟨here, List.mem_singleton.mpr same⟩
  | .returns _ value => by
    unfold Stmt.exec
    exact obeys_bind (value.eval_keeps calls scope).ofNothing fun _ => obeys_pure _
  | .leave _ | .proceed _ => by
    unfold Stmt.exec
    exact obeys_pure _
  | .incase _ condition body fallback => by
    unfold Stmt.exec
    refine obeys_bind (condition.eval_keeps calls scope).ofNothing ?_
    intro value
    refine obeys_bind (obeys_truth _ _) ?_
    intro holds
    -- both branches run in the scope of the conditional itself
    split
    · exact (execBlock_keeps calls rounds scope _ body).within_subset
        (List.subset_append_left _ _)
    · exact (fallback.exec_keeps calls rounds scope).within_subset (List.subset_append_right _ _)
  | .drift _ init condition update body => by
    unfold Stmt.exec
    -- one scope for the header and all rounds
    refine keeps_openScope ?_
    intro inner
    refine obeys_bind (init.exec_keeps calls rounds inner).within_inner ?_
    intro _
    refine obeys_countingLoop trivial ?_ ?_ ?_ rounds
    · exact obeys_bind (condition.eval_keeps calls inner).ofNothing fun _ => obeys_pure _
    · exact (execBlock_keeps calls rounds inner _ body).within_inner
    · exact obeys_bind (update.exec_keeps calls rounds inner).within_inner fun _ => obeys_pure _
  | .through _ name constant iterable body => by
    unfold Stmt.exec
    refine obeys_bind (iterable.eval_keeps calls scope).ofNothing ?_
    intro value
    split
    · refine obeys_throughLoop trivial ?_ rounds 0
      intro element
      -- a scope for each round
      refine keeps_openScope ?_
      intro inner
      refine obeys_bind ?_ fun _ => (execBlock_keeps calls rounds inner _ body).within_inner
      exact (keeps_define inner name element constant).keeping_fewer fun _ _ changed =>
        .inl changed.1
    · exact obeys_throw trivial
  | .expression value => by
    unfold Stmt.exec
    exact obeys_bind (value.eval_keeps calls scope).ofNothing fun _ => obeys_pure _

theorem Fallback.exec_keeps {call : Call} (calls : CallsKeep call) (rounds : Nat)
    (scope : ScopeId) :
    ∀ fallback : Fallback, (fallback.exec call rounds scope).Obeys
      (.keeping (within scope fallback.declared))
  | .nothing => by
    unfold Fallback.exec
    exact obeys_pure _
  | .block body => by
    unfold Fallback.exec
    exact execBlock_keeps calls rounds scope _ body
  | .elif _ condition body fallback => by
    unfold Fallback.exec
    refine obeys_bind (condition.eval_keeps calls scope).ofNothing ?_
    intro value
    refine obeys_bind (obeys_truth _ _) ?_
    intro holds
    split
    · exact (execBlock_keeps calls rounds scope _ body).within_subset
        (List.subset_append_left _ _)
    · exact (fallback.exec_keeps calls rounds scope).within_subset (List.subset_append_right _ _)

theorem execBlock_keeps {call : Call} (calls : CallsKeep call) (rounds : Nat) (scope : ScopeId)
    (last : Value) :
    ∀ body : List Stmt, (execBlock call rounds scope last body).Obeys
      (.keeping (within scope (declaredBlock body)))
  | [] => by
    unfold execBlock
    exact obeys_pure _
  | first :: rest => by
    unfold execBlock
    refine obeys_bind ((first.exec_keeps calls rounds scope).within_subset
      (List.subset_append_left _ _)) ?_
    intro signal
    split
    · exact (execBlock_keeps calls rounds scope _ rest).within_subset
        (List.subset_append_right _ _)
    · exact obeys_pure _

end

/-! ## Calls -/

theorem keeps_bindParameters (scope : ScopeId) {changes : ScopeId → String → Prop}
    (bound : List (String × Value)) :
    (bindParameters scope bound).Obeys (.keeping fun s n => s = scope ∨ changes s n) := by
  induction bound with
  | nil => exact obeys_pure _
  | cons entry rest ih =>
    unfold bindParameters
    refine obeys_bind ?_ fun _ => ih
    exact (keeps_define scope _ _ false).keeping_fewer fun _ _ changed => .inl changed.1

/-- A call works in a scope of its own, however deep further calls nest in it. -/
theorem invoke_keeps (rounds depth : Nat) : CallsKeep (invoke rounds depth) := by
  induction depth with
  | zero =>
    intro function arguments
    unfold invoke
    split
    · exact obeys_builtin (fun _ _ => Scopes.Keeps.refl _) (fun _ _ => Scopes.Keeps.refl _) _ _
    · split
      · exact obeys_throw trivial
      · exact obeys_throw trivial
  | succ depth ih =>
    intro function arguments
    unfold invoke
    split
    · exact obeys_builtin (fun _ _ => Scopes.Keeps.refl _) (fun _ _ => Scopes.Keeps.refl _) _ _
    · rename_i procedure
      split
      · exact obeys_throw trivial
      · refine keeps_openScope ?_
        intro frame
        refine obeys_bind (keeps_bindParameters frame _) ?_
        intro _
        refine obeys_bind (execBlock_keeps ih rounds frame _ procedure.body).within_inner ?_
        exact obeys_callResult

/-- From every store and in every scope, however it ends: a statement keeps the parents and
bindings of all scopes there are, but for the names that it declares in its own scope, and an
expression or a call keeps all of them. -/
theorem running_keeps_scopes (limits : Limits) (scope : ScopeId) (store : Store) :
    (∀ s : Stmt, Scopes.Keeps (within scope s.declared) store.scopes
      ((s.exec (invoke limits.rounds limits.depth) limits.rounds scope).final store).scopes) ∧
    (∀ e : Expr, Scopes.Keeps nothing store.scopes
      ((e.eval (invoke limits.rounds limits.depth) scope).final store).scopes) ∧
    (∀ function arguments, Scopes.Keeps nothing store.scopes
      ((invoke limits.rounds limits.depth function arguments).final store).scopes) := by
  have calls : CallsKeep (invoke limits.rounds limits.depth) :=
    invoke_keeps limits.rounds limits.depth
  refine ⟨?_, ?_, ?_⟩
  · intro s
    exact (s.exec_keeps calls limits.rounds scope store).1
  · intro e
    exact (e.eval_keeps calls scope store).1
  · intro function arguments
    exact (calls function arguments store).1

end Script
