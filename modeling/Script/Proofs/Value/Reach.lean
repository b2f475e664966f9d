import Mathlib.Logic.Relation
import Script.Proofs.Scope
import Script.Proofs.Value.Equality

/-!
# What leads to what in a store

Scopes, arrays, objects and functions are the *nodes* of a store. A scope leads to the scope it lies
in and to what its names are bound to, an array to its elements, an object to its properties, a
procedure to the scope it was declared in, and a method to its array. `Store.Reaches` is the
reflexive and transitive closure.

* `Leads.has`: only a node that exists leads anywhere.
* `Grows.has`: a store that grows keeps its nodes.
-/

namespace Script

/-- A node of the store. -/
inductive Node where
  | scope (id : ScopeId)
  | array (id : ArrayId)
  | object (id : ObjectId)
  | function (id : FunctionId)
deriving DecidableEq, Repr

/-- The node that a value refers to, if any. -/
def Value.node? : Value → Option Node
  | .array id => some (.array id)
  | .object id => some (.object id)
  | .function id => some (.function id)
  | _ => none

namespace Store

/-- One node leads to another. -/
inductive Leads (store : Store) : Node → Node → Prop
  | parent {scope parent} : store.scopes.parent? scope = some (some parent) →
      Leads store (.scope scope) (.scope parent)
  | binding {scope name binding node} : store.scopes.local? scope name = some binding →
      binding.value.node? = some node → Leads store (.scope scope) node
  | element {array value node} : value ∈ store.elements array → value.node? = some node →
      Leads store (.array array) node
  | property {object key value node} : (store.properties object).get? key = some value →
      value.node? = some node → Leads store (.object object) node
  | captured {function procedure} : store.functions[function]? = some (.procedure procedure) →
      Leads store (.function function) (.scope procedure.scope)
  | receiver {function name method array} :
      store.functions[function]? = some (.builtin name (.method method array)) →
      Leads store (.function function) (.array array)

/-- Some steps lead from one node to another. -/
def Reaches (store : Store) : Node → Node → Prop := Relation.ReflTransGen store.Leads

/-- A node exists. -/
def Has (store : Store) : Node → Prop
  | .scope id => id < store.scopes.size
  | .array id => id < store.arrays.size
  | .object id => id < store.objects.size
  | .function id => id < store.functions.size

/-- A node is the same in two stores. -/
def Same (before after : Store) : Node → Prop
  | .scope id => after.scopes[id]? = before.scopes[id]?
  | .array id => after.arrays[id]? = before.arrays[id]?
  | .object id => after.objects[id]? = before.objects[id]?
  | .function id => after.functions[id]? = before.functions[id]?

/-- No kind of nodes gets fewer. -/
structure Grows (before after : Store) : Prop where
  scopes : before.scopes.size ≤ after.scopes.size
  arrays : before.arrays.size ≤ after.arrays.size
  objects : before.objects.size ≤ after.objects.size
  functions : before.functions.size ≤ after.functions.size

variable {first second third : Store} {node other : Node}

theorem Same.refl (store : Store) (node : Node) : store.Same store node := by
  cases node <;> rfl

theorem Same.trans (one : first.Same second node) (two : second.Same third node) :
    first.Same third node := by
  cases node <;> exact Eq.trans two one

theorem Grows.refl (store : Store) : store.Grows store :=
  ⟨Nat.le_refl _, Nat.le_refl _, Nat.le_refl _, Nat.le_refl _⟩

theorem Grows.trans (one : first.Grows second) (two : second.Grows third) : first.Grows third :=
  ⟨Nat.le_trans one.scopes two.scopes, Nat.le_trans one.arrays two.arrays,
    Nat.le_trans one.objects two.objects, Nat.le_trans one.functions two.functions⟩

/-- A node that exists goes on to exist. -/
theorem Grows.has (grows : first.Grows second) (has : first.Has node) : second.Has node := by
  cases node with
  | scope id => exact Nat.lt_of_lt_of_le has grows.scopes
  | array id => exact Nat.lt_of_lt_of_le has grows.arrays
  | object id => exact Nat.lt_of_lt_of_le has grows.objects
  | function id => exact Nat.lt_of_lt_of_le has grows.functions

/-- Only a node that exists leads anywhere. -/
theorem Leads.has {store : Store} (leads : store.Leads node other) : store.Has node := by
  cases leads with
  | parent lies =>
    unfold Scopes.parent? at lies
    obtain ⟨scope, found, _⟩ := Option.map_eq_some_iff.mp lies
    exact (Array.getElem?_eq_some_iff.mp found).1
  | binding found _ => exact Scopes.lt_of_local? found
  | element member _ => exact lt_of_mem_elements (Array.mem_toList_iff.mpr member)
  | property found _ => exact lt_of_mem_properties (Table.mem_entries_iff.mpr found)
  | captured found => exact (Array.getElem?_eq_some_iff.mp found).1
  | receiver found => exact (Array.getElem?_eq_some_iff.mp found).1

end Store

end Script
