import Script.Scope

/-!
# What operations do to scopes

One lemma for each operation and each thing that can be asked about scopes: how many there are,
what a scope's parent is, and what a name is bound to in one scope. Lookup through several scopes
comes down to the last of these.
-/

namespace Script.Scopes

variable {α : Type} {scopes : Scopes α} {scope other owner : ScopeId} {name n : String}
  {value : α} {constant : Bool}

/-- The parent of a scope, if there is such a scope. -/
def parent? (scopes : Scopes α) (scope : ScopeId) : Option (Option ScopeId) :=
  (scopes[scope]?).map (·.parent)

/-! ## Declarations -/

@[simp]
theorem size_define : (scopes.define scope name value constant).size = scopes.size :=
  Array.size_modify

theorem getElem?_define :
    (scopes.define scope name value constant)[other]? =
      if scope = other then
        (scopes[other]?).map fun scope =>
          { scope with bindings := scope.bindings.insert name ⟨value, constant⟩ }
      else scopes[other]? := by
  unfold define
  rw [Array.getElem?_modify]

@[simp]
theorem parent?_define :
    (scopes.define scope name value constant).parent? other = scopes.parent? other := by
  unfold parent?
  rw [getElem?_define]
  split
  · cases scopes[other]? <;> rfl
  · rfl

theorem local?_define_self (inside : scope < scopes.size) :
    (scopes.define scope name value constant).local? scope name = some ⟨value, constant⟩ := by
  unfold local?
  rw [getElem?_define, if_pos rfl, Array.getElem?_eq_getElem inside]
  exact Table.get?_insert_self ..

/-- Other names and other scopes are as before. -/
theorem local?_define_of_ne (different : ¬ (other = scope ∧ n = name)) :
    (scopes.define scope name value constant).local? other n = scopes.local? other n := by
  unfold local?
  rw [getElem?_define]
  split
  · rename_i same
    have otherName : n ≠ name := fun sameName => different ⟨same.symm, sameName⟩
    cases scopes[other]? with
    | none => rfl
    | some s => exact Table.get?_insert_of_ne _ _ otherName
  · rfl

/-! ## New scopes -/

@[simp]
theorem size_child : (scopes.child scope).size = scopes.size + 1 := Array.size_push ..

theorem getElem?_child_of_lt (inside : other < scopes.size) :
    (scopes.child scope)[other]? = scopes[other]? := by
  unfold child
  rw [Array.getElem?_push, if_neg (Nat.ne_of_lt inside)]

theorem getElem?_child_self :
    (scopes.child scope)[scopes.size]? = some { parent := some scope } := by
  unfold child
  rw [Array.getElem?_push, if_pos rfl]

theorem parent?_child_self : (scopes.child scope).parent? scopes.size = some (some scope) := by
  unfold parent?
  rw [getElem?_child_self]
  rfl

theorem local?_child_self : (scopes.child scope).local? scopes.size n = none := by
  unfold local?
  rw [getElem?_child_self]
  rfl

theorem parent?_child_of_lt (inside : other < scopes.size) :
    (scopes.child scope).parent? other = scopes.parent? other := by
  unfold parent?
  rw [getElem?_child_of_lt inside]

theorem local?_child_of_lt (inside : other < scopes.size) :
    (scopes.child scope).local? other n = scopes.local? other n := by
  unfold local?
  rw [getElem?_child_of_lt inside]

/-! ## Lookup -/

/-- Only a scope that exists binds a name. -/
theorem lt_of_local? {binding : Binding α} (found : scopes.local? scope name = some binding) :
    scope < scopes.size := by
  unfold local? at found
  apply Nat.lt_of_not_le
  intro outside
  rw [Array.getElem?_eq_none outside] at found
  cases found

/-- A name belongs to the scope itself if that binds it, else to the scope it lies in. -/
theorem owner?_eq (scopes : Scopes α) (scope : ScopeId) (name : String) :
    scopes.owner? scope name =
      if (scopes.local? scope name).isSome then some scope
      else
        match scopes.parent? scope with
        | some (some parent) => if parent < scope then scopes.owner? parent name else none
        | _ => none := by
  rw [owner?]
  unfold local? parent?
  cases found : scopes[scope]? with
  | none => rfl
  | some s =>
    cases parent : s.parent with
    | none => simp [Table.contains, parent]
    | some outer => simp [Table.contains, parent]

/-- An assignment takes place where the name is bound and no constant. -/
theorem local?_of_assignee (found : scopes.assignee scope name = .ok owner) :
    ∃ old, scopes.local? owner name = some ⟨old, false⟩ := by
  unfold assignee at found
  split at found
  · cases found
  · split at found
    · rename_i bound
      cases found
      exact ⟨_, bound⟩
    · cases found
    · cases found

theorem owner?_of_assignee (found : scopes.assignee scope name = .ok owner) :
    scopes.owner? scope name = some owner := by
  unfold assignee at found
  split at found
  · cases found
  · rename_i there
    split at found
    · cases found
      exact there
    · cases found
    · cases found

/-- A name means what it is bound to where it belongs. -/
theorem owner?_of_resolve {binding : Binding α} (found : scopes.resolve scope name = .ok binding) :
    ∃ owner, scopes.owner? scope name = some owner ∧
      scopes.local? owner name = some binding := by
  unfold resolve at found
  split at found
  · rename_i there
    cases found
    exact Option.bind_eq_some_iff.mp there
  · cases found

end Script.Scopes
