import Script.Table

/-!
# Scopes

Names are bound in scopes, and each scope but the first lies in an earlier one. A name means its
binding in the nearest scope, going outward, that has one. A constant binding can be declared
again in its own scope, but not assigned to.

Scopes are numbered in the order of their creation, and `owner?` only follows a parent with a
smaller number, so looking up a name always ends.
-/

namespace Script

/-- What a name is bound to in a scope. -/
structure Binding (α : Type) where
  value : α
  constant : Bool
deriving DecidableEq, Repr

/-- The number of a scope. -/
abbrev ScopeId := Nat

/-- The names bound in one scope, and the scope it lies in. -/
structure Scope (α : Type) where
  parent : Option ScopeId := none
  bindings : Table (Binding α) := .empty
deriving DecidableEq, Repr, Inhabited

/-- Why a name cannot be read or assigned to. -/
inductive NameFault where
  | undefined (name : String)
  | constant (name : String)
deriving DecidableEq, Repr

/-- What is said about a name. -/
def NameFault.message : NameFault → String
  | undefined name => s!"Undefined variable: {name}"
  | constant name => s!"Cannot assign to constant variable: {name}"

/-- All scopes, by number. -/
abbrev Scopes (α : Type) := Array (Scope α)

namespace Scopes

variable {α : Type}

/-- One scope that lies in no other. -/
def root : Scopes α := #[{}]

/-- A new scope in a given one. Its number is the number of scopes before. -/
def child (scopes : Scopes α) (parent : ScopeId) : Scopes α := scopes.push { parent := parent }

/-- The binding of a name in one scope. -/
def local? (scopes : Scopes α) (scope : ScopeId) (name : String) : Option (Binding α) :=
  (scopes[scope]?).bind (·.bindings.get? name)

/-- Binds a name in one scope, in place of a binding that it has there. -/
def define (scopes : Scopes α) (scope : ScopeId) (name : String) (value : α)
    (constant : Bool) : Scopes α :=
  scopes.modify scope fun s => { s with bindings := s.bindings.insert name ⟨value, constant⟩ }

/-- The nearest scope, going outward from a given one, that binds a name. -/
def owner? (scopes : Scopes α) (scope : ScopeId) (name : String) : Option ScopeId :=
  match scopes[scope]? with
  | none => none
  | some s =>
    if s.bindings.contains name then some scope
    else
      match s.parent with
      | none => none
      | some parent => if _outward : parent < scope then owner? scopes parent name else none
termination_by scope

/-- The binding that a name has in a scope. -/
def resolve (scopes : Scopes α) (scope : ScopeId) (name : String) :
    Except NameFault (Binding α) :=
  match (scopes.owner? scope name).bind (scopes.local? · name) with
  | some binding => .ok binding
  | none => .error (.undefined name)

/-- The scope in which an assignment to a name takes place. -/
def assignee (scopes : Scopes α) (scope : ScopeId) (name : String) : Except NameFault ScopeId :=
  match scopes.owner? scope name with
  | none => .error (.undefined name)
  | some owner =>
    match scopes.local? owner name with
    | some ⟨_, false⟩ => .ok owner
    | some ⟨_, true⟩ => .error (.constant name)
    | none => .error (.undefined name)

/-- Gives a name another value in the scope that binds it. -/
def assign (scopes : Scopes α) (scope : ScopeId) (name : String) (value : α) :
    Except NameFault (Scopes α) :=
  match scopes.assignee scope name with
  | .ok owner => .ok (scopes.define owner name value false)
  | .error fault => .error fault

end Scopes

end Script
