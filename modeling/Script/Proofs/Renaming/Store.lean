import Script.Proofs.Renaming.Tree
import Script.Proofs.Scope
import Script.Proofs.Value.Contents
import Script.Run

/-!
# Stores of two runs that differ in names

Two runs of which the second has renamed procedures go hand in hand: they make the same arrays,
objects and functions with the same numbers, and open the same scopes. A *world* says of each scope
whether it lies inside a renamed procedure; there the bindings have other names (`Scopes.Relates`).

A scope inside a renamed procedure either binds the old name, as the scope of a call does, or lies
in another one inside (`Scopes.Anchored`). So the old name is never looked up further out, where it
was not renamed, and both runs find every name in the same scope (`owner?_relates`).
-/

namespace Script

/-- Whether each scope lies inside a renamed procedure. -/
abbrev World := List Bool

variable {r : Renaming} {w : World}

/-! ## Faults -/

/-- Two faults are the same, or they speak of the old name and of the new one. -/
inductive Fault.Relates (r : Renaming) : Fault → Fault → Prop
  | same {fault} : Fault.Relates r fault fault
  | undefined : Fault.Relates r (.name (.undefined r.old)) (.name (.undefined r.new))
  | constant : Fault.Relates r (.name (.constant r.old)) (.name (.constant r.new))

theorem Fault.relates_undefined (inner : Bool) (name : String) :
    Fault.Relates r (.name (.undefined name)) (.name (.undefined (r.change inner name))) := by
  by_cases old : name = r.old
  · subst old
    cases inner with
    | false => exact .same
    | true =>
      rw [Renaming.change_true, Renaming.apply, if_pos rfl]
      exact .undefined
  · rw [Renaming.change_of_ne old]
    exact .same

theorem Fault.relates_constant (inner : Bool) (name : String) :
    Fault.Relates r (.name (.constant name)) (.name (.constant (r.change inner name))) := by
  by_cases old : name = r.old
  · subst old
    cases inner with
    | false => exact .same
    | true =>
      rw [Renaming.change_true, Renaming.apply, if_pos rfl]
      exact .constant
  · rw [Renaming.change_of_ne old]
    exact .same

/-! ## Scopes -/

namespace Scopes

/-- Scopes of two runs: the same but for names inside renamed procedures. A scope outside lies in
scopes outside only. -/
structure Relates (r : Renaming) (w : World) (scopes scopes' : Scopes Value) : Prop where
  size : scopes.size = w.length
  size' : scopes'.size = w.length
  parent : ∀ i, scopes'.parent? i = scopes.parent? i
  binding : ∀ {i inner name}, w[i]? = some inner → (inner = true → name ≠ r.new) →
    scopes'.local? i (r.change inner name) = scopes.local? i name
  outer : ∀ {i parent}, w[i]? = some false → scopes.parent? i = some (some parent) →
    parent < i → w[parent]? = some false

/-- A scope binds the old name or lies in a scope inside a renamed procedure. -/
def AnchoredAt (r : Renaming) (w : World) (scopes : Scopes Value) (i : ScopeId) : Prop :=
  (scopes.local? i r.old).isSome ∨
    ∃ parent, parent < i ∧ scopes.parent? i = some (some parent) ∧ w[parent]? = some true

/-- All scopes inside renamed procedures are anchored. -/
def Anchored (r : Renaming) (w : World) (scopes : Scopes Value) : Prop :=
  ∀ i, w[i]? = some true → scopes.AnchoredAt r w i

variable {scopes scopes' : Scopes Value} {scope : ScopeId} {inner : Bool} {name : String}

/-- Going outward, either the side stays the same or the name is none that changes. -/
theorem change_parent (related : Relates r w scopes scopes') (anchored : Anchored r w scopes)
    (side : w[scope]? = some inner) (fresh : inner = true → name ≠ r.new)
    (unbound : scopes.local? scope name = none) {parent : ScopeId} (outward : parent < scope)
    (lies : scopes.parent? scope = some (some parent)) :
    ∃ outer, w[parent]? = some outer ∧ r.change outer name = r.change inner name ∧
      (outer = true → name ≠ r.new) := by
  cases inner with
  | false =>
    exact ⟨false, related.outer side lies outward, rfl, fun inside => by cases inside⟩
  | true =>
    -- Only a scope that binds the old name can lie in one outside, and there the name sought is
    -- another one, since it is not bound.
    rcases anchored scope side with bound | ⟨other, _, liesIn, inside⟩
    · have different : name ≠ r.old := by
        rintro rfl
        rw [unbound] at bound
        cases bound
      have exists' : parent < w.length :=
        Nat.lt_trans outward (List.getElem?_eq_some_iff.mp side).1
      refine ⟨w[parent], List.getElem?_eq_getElem exists', ?_, fun _ => fresh rfl⟩
      rw [Renaming.change_of_ne different, Renaming.change_of_ne different]
    · cases lies.symm.trans liesIn
      exact ⟨true, inside, rfl, fresh⟩

/-- Both runs find a name in the same scope, where it is called the same. -/
theorem owner?_relates (related : Relates r w scopes scopes') (anchored : Anchored r w scopes) :
    ∀ {scope inner}, w[scope]? = some inner → (inner = true → name ≠ r.new) →
      scopes'.owner? scope (r.change inner name) = scopes.owner? scope name ∧
      ∀ {owner}, scopes.owner? scope name = some owner →
        ∃ side, w[owner]? = some side ∧ r.change side name = r.change inner name ∧
          (side = true → name ≠ r.new) := by
  intro scope
  induction scope using Nat.strongRecOn with
  | ind scope ih =>
    intro inner side fresh
    rw [owner?_eq scopes', owner?_eq scopes, related.binding side fresh, related.parent]
    cases found : scopes.local? scope name with
    | some binding =>
      refine ⟨rfl, ?_⟩
      intro owner same
      cases same
      exact ⟨inner, side, rfl, fresh⟩
    | none =>
      simp only [Option.isSome_none, Bool.false_eq_true, if_false]
      split
      · rename_i parent lies
        split
        · rename_i outward
          obtain ⟨outer, sideOuter, same, freshOuter⟩ :=
            change_parent related anchored side fresh found outward lies
          -- go on with the name as it is called on the side of the parent
          rw [← same]
          exact ih parent outward sideOuter freshOuter
        · exact ⟨rfl, fun none => by cases none⟩
      · exact ⟨rfl, fun none => by cases none⟩

/-- A name means the same in both runs, or nothing in either. -/
theorem resolve_relates (related : Relates r w scopes scopes') (anchored : Anchored r w scopes)
    (side : w[scope]? = some inner) (fresh : inner = true → name ≠ r.new) :
    (∃ binding, scopes.resolve scope name = .ok binding ∧
      scopes'.resolve scope (r.change inner name) = .ok binding) ∨
    (scopes.resolve scope name = .error (.undefined name) ∧
      scopes'.resolve scope (r.change inner name) =
        .error (.undefined (r.change inner name))) := by
  obtain ⟨same, placed⟩ := owner?_relates related anchored side fresh
  unfold resolve
  rw [same]
  cases found : scopes.owner? scope name with
  | none => exact .inr ⟨rfl, rfl⟩
  | some owner =>
    obtain ⟨sideOwner, inside, sameName, freshThere⟩ := placed found
    have there : scopes'.local? owner (r.change inner name) = scopes.local? owner name := by
      rw [← sameName]
      exact related.binding inside freshThere
    simp only [Option.bind_some, there]
    cases scopes.local? owner name with
    | none => exact .inr ⟨rfl, rfl⟩
    | some binding => exact .inl ⟨binding, rfl, rfl⟩

/-- An assignment takes place in the same scope in both runs, or in neither. -/
theorem assignee_relates (related : Relates r w scopes scopes') (anchored : Anchored r w scopes)
    (side : w[scope]? = some inner) (fresh : inner = true → name ≠ r.new) :
    (∃ owner sideOwner, scopes.assignee scope name = .ok owner ∧
      scopes'.assignee scope (r.change inner name) = .ok owner ∧ w[owner]? = some sideOwner ∧
      r.change sideOwner name = r.change inner name ∧ (sideOwner = true → name ≠ r.new)) ∨
    (∃ fault fault', scopes.assignee scope name = .error fault ∧
      scopes'.assignee scope (r.change inner name) = .error fault' ∧
      Fault.Relates r (.name fault) (.name fault')) := by
  obtain ⟨same, placed⟩ := owner?_relates related anchored side fresh
  unfold assignee
  rw [same]
  cases found : scopes.owner? scope name with
  | none => exact .inr ⟨_, _, rfl, rfl, Fault.relates_undefined inner name⟩
  | some owner =>
    obtain ⟨sideOwner, inside, sameName, freshThere⟩ := placed found
    have there : scopes'.local? owner (r.change inner name) = scopes.local? owner name := by
      rw [← sameName]
      exact related.binding inside freshThere
    simp only [there]
    cases scopes.local? owner name with
    | none => exact .inr ⟨_, _, rfl, rfl, Fault.relates_undefined inner name⟩
    | some binding =>
      obtain ⟨value, constant⟩ := binding
      cases constant with
      | false => exact .inl ⟨owner, sideOwner, rfl, rfl, inside, sameName, freshThere⟩
      | true => exact .inr ⟨_, _, rfl, rfl, Fault.relates_constant inner name⟩

/-! ### Operations -/

/-- Both runs declare a name, each under its own spelling. -/
theorem Relates.define (related : Relates r w scopes scopes') (side : w[scope]? = some inner)
    (fresh : inner = true → name ≠ r.new) (value : Value) (constant : Bool) :
    Relates r w (scopes.define scope name value constant)
      (scopes'.define scope (r.change inner name) value constant) where
  size := size_define.trans related.size
  size' := size_define.trans related.size'
  parent := by
    intro i
    rw [parent?_define, parent?_define]
    exact related.parent i
  binding := by
    intro i innerHere other sideHere freshHere
    have inside : scope < w.length := (List.getElem?_eq_some_iff.mp side).1
    by_cases here : i = scope ∧ other = name
    · obtain ⟨rfl, rfl⟩ := here
      cases side.symm.trans sideHere
      rw [local?_define_self (related.size' ▸ inside), local?_define_self (related.size ▸ inside)]
    · rw [local?_define_of_ne here, local?_define_of_ne, related.binding sideHere freshHere]
      -- no two names of a scope are called the same in the second run
      rintro ⟨rfl, same⟩
      cases side.symm.trans sideHere
      exact here ⟨rfl, Renaming.change_inj freshHere fresh same⟩
  outer := by
    intro i parent sideHere lies outward
    rw [parent?_define] at lies
    exact related.outer sideHere lies outward

/-- A declaration leaves bound what is bound. -/
theorem isSome_local?_define {i : ScopeId} {other : String} {value : Value} {constant : Bool}
    (bound : (scopes.local? i other).isSome) :
    ((scopes.define scope name value constant).local? i other).isSome := by
  by_cases here : i = scope ∧ other = name
  · obtain ⟨rfl, rfl⟩ := here
    obtain ⟨binding, found⟩ := Option.isSome_iff_exists.mp bound
    rw [local?_define_self (lt_of_local? found)]
    rfl
  · rw [local?_define_of_ne here]
    exact bound

theorem AnchoredAt.define {i : ScopeId} (anchored : AnchoredAt r w scopes i) (value : Value)
    (constant : Bool) : AnchoredAt r w (scopes.define scope name value constant) i := by
  unfold AnchoredAt
  rw [parent?_define]
  rcases anchored with bound | lies
  · exact .inl (isSome_local?_define bound)
  · exact .inr lies

theorem Anchored.define (anchored : Anchored r w scopes) (value : Value) (constant : Bool) :
    Anchored r w (scopes.define scope name value constant) :=
  fun i inside => (anchored i inside).define value constant

/-- In a world with one more scope, a scope is an old one or the last. -/
theorem side_append {i : ScopeId} {side : Bool} (found : (w ++ [inner])[i]? = some side) :
    (i < w.length ∧ w[i]? = some side) ∨ (i = w.length ∧ side = inner) := by
  rcases Nat.lt_or_ge i w.length with old | new
  · rw [List.getElem?_append_left old] at found
    exact .inl ⟨old, found⟩
  · have bound := (List.getElem?_eq_some_iff.mp found).1
    rw [List.length_append, List.length_singleton] at bound
    have last : i = w.length := Nat.le_antisymm (Nat.le_of_lt_succ bound) new
    rw [last, List.getElem?_append_right (Nat.le_refl _), Nat.sub_self] at found
    exact .inr ⟨last, (Option.some.inj found).symm⟩

/-- Both runs open a scope, outside or inside. -/
theorem Relates.child (related : Relates r w scopes scopes')
    (side : w[scope]? = some false ∨ inner = true) :
    Relates r (w ++ [inner]) (scopes.child scope) (scopes'.child scope) where
  size := by rw [size_child, related.size, List.length_append, List.length_singleton]
  size' := by rw [size_child, related.size', List.length_append, List.length_singleton]
  parent := by
    intro i
    have sizes : scopes.size = scopes'.size := related.size.trans related.size'.symm
    rcases Nat.lt_trichotomy i scopes.size with old | rfl | beyond
    · rw [parent?_child_of_lt old, parent?_child_of_lt (sizes ▸ old)]
      exact related.parent i
    · rw [parent?_child_self, sizes, parent?_child_self]
    · have outside : ∀ {all : Scopes Value}, all.size = scopes.size →
          (all.child scope).parent? i = none := by
        intro all same
        unfold parent?
        rw [Array.getElem?_eq_none (by rw [size_child, same]; omega)]
        rfl
      rw [outside rfl, outside sizes.symm]
  binding := by
    intro i innerHere other sideHere freshHere
    rcases side_append sideHere with ⟨old, sideOld⟩ | ⟨rfl, _⟩
    · rw [local?_child_of_lt (related.size' ▸ old), local?_child_of_lt (related.size ▸ old)]
      exact related.binding sideOld freshHere
    · rw [← related.size', local?_child_self, related.size', ← related.size, local?_child_self]
  outer := by
    intro i parent sideHere lies outward
    rcases side_append sideHere with ⟨old, sideOld⟩ | ⟨rfl, rfl⟩
    · rw [parent?_child_of_lt (related.size ▸ old)] at lies
      rw [List.getElem?_append_left (Nat.lt_trans outward old)]
      exact related.outer sideOld lies outward
    · rw [← related.size, parent?_child_self] at lies
      cases lies
      rcases side with outside | inside
      · rw [List.getElem?_append_left outward]
        exact outside
      · cases inside

theorem AnchoredAt.child {i : ScopeId} (anchored : AnchoredAt r w scopes i) (old : i < w.length)
    (size : scopes.size = w.length) : AnchoredAt r (w ++ [inner]) (scopes.child scope) i := by
  unfold AnchoredAt
  rw [local?_child_of_lt (size ▸ old), parent?_child_of_lt (size ▸ old)]
  rcases anchored with bound | ⟨parent, outward, lies, there⟩
  · exact .inl bound
  · refine .inr ⟨parent, outward, lies, ?_⟩
    rw [List.getElem?_append_left (Nat.lt_trans outward old)]
    exact there

/-- A scope opened on the side of the one it lies in is anchored there. -/
theorem Anchored.child (anchored : Anchored r w scopes) (size : scopes.size = w.length)
    (side : w[scope]? = some inner) : Anchored r (w ++ [inner]) (scopes.child scope) := by
  intro i inside
  rcases side_append inside with ⟨old, sideOld⟩ | ⟨rfl, rfl⟩
  · exact (anchored i sideOld).child old size
  · have inWorld : scope < w.length := (List.getElem?_eq_some_iff.mp side).1
    refine .inr ⟨scope, inWorld, ?_, ?_⟩
    · rw [← size]
      exact parent?_child_self
    · rw [List.getElem?_append_left inWorld]
      exact side

/-! ### Parameters -/

/-- Names bound one after the other in a scope. -/
def bindAll (scopes : Scopes Value) (scope : ScopeId) : List (String × Value) → Scopes Value
  | [] => scopes
  | (name, value) :: rest => (scopes.define scope name value false).bindAll scope rest

theorem Relates.bindAll (side : w[scope]? = some inner) (arguments : List Value) :
    ∀ {names : List String} {scopes scopes' : Scopes Value}, Relates r w scopes scopes' →
      r.Fresh inner names → Relates r w (scopes.bindAll scope (names.zip arguments))
        (scopes'.bindAll scope ((names.map (r.change inner)).zip arguments)) := by
  induction arguments with
  | nil =>
    intro names scopes scopes' related _
    rw [List.zip_nil_right, List.zip_nil_right]
    exact related
  | cons argument arguments ih =>
    intro names scopes scopes' related fresh
    cases names with
    | nil => exact related
    | cons first rest =>
      have freshFirst : inner = true → first ≠ r.new := fresh.ne List.mem_cons_self
      exact ih (related.define side freshFirst argument false)
        (fresh.mono (List.subset_cons_self first rest))

theorem AnchoredAt.bindAll {i : ScopeId} {entries : List (String × Value)} :
    ∀ {scopes : Scopes Value}, AnchoredAt r w scopes i →
      AnchoredAt r w (scopes.bindAll scope entries) i := by
  induction entries with
  | nil => exact fun anchored => anchored
  | cons entry rest ih => exact fun anchored => ih (anchored.define _ _)

theorem isSome_local?_bindAll {i : ScopeId} {other : String} {entries : List (String × Value)} :
    ∀ {scopes : Scopes Value}, (scopes.local? i other).isSome →
      ((scopes.bindAll scope entries).local? i other).isSome := by
  induction entries with
  | nil => exact fun bound => bound
  | cons entry rest ih => exact fun bound => ih (isSome_local?_define bound)

/-- With an argument for each, all parameters are bound. -/
theorem bound_of_mem (arguments : List Value) : ∀ {names : List String} {scopes : Scopes Value},
    name ∈ names → arguments.length = names.length → scope < scopes.size →
      ((scopes.bindAll scope (names.zip arguments)).local? scope name).isSome := by
  induction arguments with
  | nil =>
    intro names scopes member count _
    rw [List.length_eq_zero_iff.mp count.symm] at member
    cases member
  | cons argument arguments ih =>
    intro names scopes member count inside
    cases names with
    | nil => cases member
    | cons first rest =>
      -- a parameter stays bound whatever is bound behind it
      rcases List.mem_cons.mp member with rfl | later
      · have bound : ((scopes.define scope name argument false).local? scope name).isSome := by
          rw [local?_define_self inside]
          rfl
        show (((scopes.define scope name argument false).bindAll scope
          (rest.zip arguments)).local? scope name).isSome
        exact isSome_local?_bindAll bound
      · exact ih later (Nat.succ.inj count) (by rwa [size_define])

end Scopes

/-! ## Functions -/

/-- Functions of two runs: built-in ones are the same, and procedures have related bodies. -/
inductive Callable.Relates (r : Renaming) (w : World) : Callable → Callable → Prop
  | builtin {name action} : Callable.Relates r w (.builtin name action) (.builtin name action)
  /-- A procedure whose parameters are those of the side it was declared on. -/
  | procedure {name parameters body body' scope inner} : w[scope]? = some inner →
      r.Fresh inner parameters → BlockRelates r inner body body' →
      Callable.Relates r w (.procedure ⟨name, parameters, body, scope⟩)
        (.procedure ⟨name, parameters.map (r.change inner), body', scope⟩)
  /-- A procedure that is renamed itself. -/
  | renamed {name parameters body body' scope} : r.old ∈ parameters → r.new ∉ parameters →
      BlockRelates r true body body' →
      Callable.Relates r w (.procedure ⟨name, parameters, body, scope⟩)
        (.procedure ⟨name, parameters.map r.apply, body', scope⟩)

/-- The side of a scope stays when worlds grow. -/
theorem side_mono {w' : World} (grows : w <+: w') {scope : ScopeId} {inner : Bool}
    (side : w[scope]? = some inner) : w'[scope]? = some inner := by
  obtain ⟨more, rfl⟩ := grows
  rw [List.getElem?_append_left (List.getElem?_eq_some_iff.mp side).1]
  exact side

theorem Callable.Relates.mono {w' : World} (grows : w <+: w') {function function' : Callable}
    (related : function.Relates r w function') : function.Relates r w' function' := by
  cases related with
  | builtin => exact .builtin
  | procedure side fresh body => exact .procedure (side_mono grows side) fresh body
  | renamed old new body => exact .renamed old new body

/-! ## Stores -/

namespace Store

/-- Stores of two runs: the same arrays, objects and lines, and related scopes and functions. -/
structure Relates (r : Renaming) (w : World) (store store' : Store) : Prop where
  scopes : store.scopes.Relates r w store'.scopes
  anchored : store.scopes.Anchored r w
  arrays : store'.arrays = store.arrays
  objects : store'.objects = store.objects
  output : store'.output = store.output
  functionCount : store'.functions.size = store.functions.size
  function : ∀ {id : FunctionId} {callable : Callable}, store.functions[id]? = some callable →
    ∃ callable', store'.functions[id]? = some callable' ∧ callable.Relates r w callable'

variable {store store' : Store}

/-- Procedures keep their names, so functions have the same texts. -/
theorem Relates.functionText (related : store.Relates r w store') (id : FunctionId) :
    store'.functionText id = store.functionText id := by
  unfold Store.functionText
  cases found : store.functions[id]? with
  | none =>
    have outside : store.functions.size ≤ id := Array.getElem?_eq_none_iff.mp found
    rw [Array.getElem?_eq_none (related.functionCount ▸ outside)]
  | some callable =>
    obtain ⟨callable', found', same⟩ := related.function found
    rw [found']
    cases same <;> rfl

theorem Relates.sameContents (related : store.Relates r w store') : store.SameContents store' :=
  ⟨related.arrays, related.objects, related.functionText⟩

end Store

end Script
