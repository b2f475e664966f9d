import Script.Proofs.Eval.Comparison
import Script.Proofs.Renaming.Store

/-!
# Steps of two runs that differ in names

The two runs are compared from related stores: both succeed with results as wanted and related
stores, or both fail with related faults and the same lines printed. Worlds grow on the way, since
scopes are opened. What reads and writes arrays and objects goes alike because related stores have
the same contents (`Renaming.faithful`); the other steps are those in which names take part.
-/

namespace Script

open Run

variable {r : Renaming} {w : World}

namespace Renaming

/-- How two runs compare of which the second has other names. -/
def comparison (r : Renaming) : Comparison World where
  Grows w w' := w <+: w'
  Stores := Store.Relates r
  Fails fault store fault' store' := Fault.Relates r fault fault' ∧ store'.output = store.output
  Excuses _ := False
  refl := List.prefix_refl
  trans grows more := grows.trans more
  fails related _ := ⟨.same, related.output⟩

theorem compares_newFunction {function function' : Callable}
    (relatedToo : function.Relates r w function') :
    Compares r.comparison w same (newFunction function) (newFunction function') := by
  refine compares_modifyGet fun store store' related => ⟨?_, { related with
    functionCount := ?_
    function := ?_ }⟩
  · exact congrArg Value.function related.functionCount
  · show (store'.functions.push function').size = (store.functions.push function).size
    rw [Array.size_push, Array.size_push, related.functionCount]
  · intro id callable found
    -- the new functions have the same number, since there were as many before
    rw [Array.getElem?_push] at found ⊢
    rw [related.functionCount]
    split at found
    · rename_i last
      cases found
      exact ⟨function', by rw [if_pos last], relatedToo⟩
    · rename_i earlier
      rw [if_neg earlier]
      exact related.function found

/-- Names apart, related stores are the same for all that is done to them. -/
theorem faithful (r : Renaming) :
    r.comparison.Faithful fun w function function' => function.Relates r w function' where
  contents := Store.Relates.sameContents
  arrays related _ := { related with arrays := rfl }
  objects related _ := { related with objects := rfl }
  prints related line := { related with
    output := congrArg (Array.push · line) related.output }
  functions := by
    intro w store store' related id
    cases found : store.functions[id]? with
    | none =>
      have outside : store.functions.size ≤ id := Array.getElem?_eq_none_iff.mp found
      rw [Array.getElem?_eq_none (related.functionCount ▸ outside)]
      exact .none
    | some function =>
      obtain ⟨function', found', relatedToo⟩ := related.function found
      rw [found']
      exact .some relatedToo
  later grows related := related.mono grows
  builtins _ _ _ := .builtin
  newFunction := compares_newFunction

/-! ## Names -/

section

variable {scope : ScopeId} {inner : Bool} {name : String}

/-- Both runs fail, each with a fault about the name as it is called there. -/
theorem compares_faults {α : Type} {wanted : World → α → α → Prop} {fault fault' : Fault}
    (related : Fault.Relates r fault fault') :
    Compares r.comparison w wanted (throw fault) (throw fault') :=
  fun _ _ stores => .error ⟨related, stores.output⟩

theorem compares_lookup (side : w[scope]? = some inner) (fresh : inner = true → name ≠ r.new) :
    Compares r.comparison w same (lookup scope name) (lookup scope (r.change inner name)) := by
  refine compares_get_bind fun store store' related => ?_
  rcases Scopes.resolve_relates related.scopes related.anchored side fresh with
    ⟨binding, found, found'⟩ | ⟨missing, missing'⟩
  · rw [found, found']
    exact compares_pure rfl
  · rw [missing, missing']
    exact compares_faults (Fault.relates_undefined inner name)

theorem compares_define (side : w[scope]? = some inner) (fresh : inner = true → name ≠ r.new)
    (value : Value) (constant : Bool) :
    Compares r.comparison w same (define scope name value constant)
      (define scope (r.change inner name) value constant) :=
  compares_modify fun _ _ related => { related with
    scopes := related.scopes.define side fresh value constant
    anchored := related.anchored.define value constant }

theorem compares_assign (side : w[scope]? = some inner) (fresh : inner = true → name ≠ r.new)
    (value : Value) :
    Compares r.comparison w same (assign scope name value)
      (assign scope (r.change inner name) value) := by
  refine compares_get_bind fun store store' related => ?_
  rcases Scopes.assignee_relates related.scopes related.anchored side fresh with
    ⟨owner, sideOwner, found, found', inside, sameName, freshThere⟩ |
    ⟨fault, fault', refused, refused', faults⟩
  · rw [found, found', ← sameName]
    exact compares_define inside freshThere value false
  · rw [refused, refused']
    exact compares_faults faults

/-- What goes on in a scope, which stays on its side. -/
theorem compares_in {α β : Type} {goal : World → β → β → Prop} (side : w[scope]? = some inner)
    {first first' : Run α} {next next' : α → Run β}
    (head : Compares r.comparison w same first first')
    (tail : ∀ w' value, w'[scope]? = some inner →
      Compares r.comparison w' goal (next value) (next' value)) :
    Compares r.comparison w goal (first >>= next) (first' >>= next') :=
  compares_then head fun w' value grows => tail w' value (side_mono grows side)

/-! ## Scopes -/

/-- A scope that was opened on one side in both runs. -/
def OpenedIn (inner : Bool) : World → ScopeId → ScopeId → Prop :=
  fun w opened opened' => opened' = opened ∧ w[opened]? = some inner

/-- A scope opened in another one lies on its side. -/
theorem compares_openScope (side : w[scope]? = some inner) :
    Compares r.comparison w (OpenedIn inner) (openScope scope) (openScope scope) := by
  intro store store' related
  have size := related.scopes.size
  have grows : w <+: w ++ [inner] := List.prefix_append w _
  refine .ok grows ⟨?_, ?_⟩ ?_
  · show store'.scopes.size = store.scopes.size
    rw [size, related.scopes.size']
  · show (w ++ [inner])[store.scopes.size]? = some inner
    rw [size, List.getElem?_append_right (Nat.le_refl _), Nat.sub_self]
    rfl
  · exact {
      scopes := related.scopes.child (by
        cases inner with
        | false => exact .inl side
        | true => exact .inr rfl)
      anchored := related.anchored.child size side
      arrays := related.arrays
      objects := related.objects
      output := related.output
      functionCount := related.functionCount
      function := fun found => by
        obtain ⟨callable', found', sameToo⟩ := related.function found
        exact ⟨callable', found', sameToo.mono grows⟩ }

theorem bindParameters_eq (frame : ScopeId) (entries : List (String × Value)) :
    ∀ store, bindParameters frame entries store =
      .ok ⟨⟩ { store with scopes := store.scopes.bindAll frame entries } := by
  induction entries with
  | nil => exact fun _ => rfl
  | cons entry rest ih =>
    intro store
    exact ih { store with scopes := store.scopes.define frame entry.1 entry.2 false }

theorem enter_eq (scope : ScopeId) (entries : List (String × Value)) (store : Store) :
    enter scope entries store = .ok store.scopes.size
      { store with scopes := (store.scopes.child scope).bindAll store.scopes.size entries } := by
  show EStateM.bind (bindParameters store.scopes.size entries) _
    { store with scopes := store.scopes.child scope } = _
  unfold EStateM.bind
  rw [bindParameters_eq]
  rfl

/-- A call opens a scope on the side of its procedure and binds the parameters there. -/
theorem compares_enter (side : w[scope]? = some inner) {names : List String}
    (fresh : r.Fresh inner names) (arguments : List Value) :
    Compares r.comparison w (OpenedIn inner) (enter scope (names.zip arguments))
      (enter scope ((names.map (r.change inner)).zip arguments)) := by
  refine compares_bind (compares_openScope side) ?_
  rintro w₁ _ frame _ ⟨rfl, sideFrame⟩
  have binds : Compares r.comparison w₁ same (bindParameters frame (names.zip arguments))
      (bindParameters frame ((names.map (r.change inner)).zip arguments)) := by
    intro store store' related
    rw [bindParameters_eq, bindParameters_eq]
    exact .ok (List.prefix_refl w₁) rfl { related with
      scopes := related.scopes.bindAll sideFrame arguments fresh
      anchored := fun i inside => (related.anchored i inside).bindAll }
  exact compares_in sideFrame binds fun w₂ _ sideFrame => compares_pure ⟨rfl, sideFrame⟩

/-- A call of a renamed procedure opens a scope that lies inside and, having an argument for each
parameter, binds the old name in the one run and the new name in the other. -/
theorem compares_enter_renamed (scope : ScopeId) {names : List String} (old : r.old ∈ names)
    (new : r.new ∉ names) {arguments : List Value} (count : arguments.length = names.length) :
    Compares r.comparison w (OpenedIn true) (enter scope (names.zip arguments))
      (enter scope ((names.map r.apply).zip arguments)) := by
  intro store store' related
  have size := related.scopes.size
  have size' := related.scopes.size'
  have grows : w <+: w ++ [true] := List.prefix_append w _
  have inside : (w ++ [true])[w.length]? = some true := by
    rw [List.getElem?_append_right (Nat.le_refl _), Nat.sub_self]
    rfl
  have opened : Scopes.Relates r (w ++ [true]) (store.scopes.child scope)
      (store'.scopes.child scope) := related.scopes.child (.inr rfl)
  rw [enter_eq, enter_eq, size, size']
  refine .ok grows ⟨rfl, inside⟩ { related with
    scopes := opened.bindAll inside arguments fun _ => new
    anchored := ?_
    function := ?_ }
  · intro i sideHere
    rcases Scopes.side_append sideHere with ⟨before, sideOld⟩ | ⟨rfl, _⟩
    · exact ((related.anchored i sideOld).child before size).bindAll
    -- the scope of the call is anchored by itself: it binds the old name as a parameter
    · refine .inl (Scopes.bound_of_mem arguments old count ?_)
      rw [Scopes.size_child, size]
      exact Nat.lt_succ_self _
  · intro id function found
    obtain ⟨function', found', relatedToo⟩ := related.function found
    exact ⟨function', found', relatedToo.mono grows⟩

end

end Renaming

end Script
