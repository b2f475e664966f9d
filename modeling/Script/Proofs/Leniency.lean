import Script.Proofs.Eval.Rewriting
import Script.Proofs.Scope

/-!
# A run that checks less than another

Some faults are only checks: a run that does not have them goes on as a run that does not make them.
A `Leniency` says how a second run checks less than a first one. It may declare variables where the
first one declares constants, and it need not have certain faults of the first. The stores of the
two runs then differ in the flags of bindings, and in those of the declarations inside procedures
(`Store.Eases`); all that is looked up is the same.

* `Scopes.Eases.resolve`: a name has the same value in both runs.
* `Scopes.Eases.assignee`: an assignment takes place in the same scope, fails with the same fault,
  or fails in the first run with a fault that the second need not have.
* `Leniency.stepwise`: so each step of a program with other flags ends as that of the program.
-/

namespace Script

/-! ## Scopes without flags -/

namespace Scopes

variable {α : Type}

/-- A scope in which nothing is constant. -/
def unflag (scope : Scope α) : Scope α :=
  ⟨scope.parent, scope.bindings.map fun binding => ⟨binding.value, false⟩⟩

/-- Scopes in which nothing is constant. -/
def unflagged (scopes : Scopes α) : Scopes α := scopes.map unflag

theorem getElem?_unflagged (scopes : Scopes α) (scope : ScopeId) :
    scopes.unflagged[scope]? = (scopes[scope]?).map unflag :=
  Array.getElem?_map

theorem parent?_unflagged (scopes : Scopes α) (scope : ScopeId) :
    scopes.unflagged.parent? scope = scopes.parent? scope := by
  unfold parent?
  rw [getElem?_unflagged, Option.map_map]
  rfl

theorem local?_unflagged (scopes : Scopes α) (scope : ScopeId) (name : String) :
    scopes.unflagged.local? scope name =
      (scopes.local? scope name).map fun binding => ⟨binding.value, false⟩ := by
  unfold local?
  rw [getElem?_unflagged]
  cases scopes[scope]? with
  | none => rfl
  | some s => exact Table.get?_map _ _ _

/-- Flags do not matter to where a name belongs. -/
theorem owner?_unflagged (scopes : Scopes α) (scope : ScopeId) (name : String) :
    scopes.unflagged.owner? scope name = scopes.owner? scope name := by
  induction scope using Nat.strongRecOn with
  | ind scope ih =>
    rw [owner?_eq, owner?_eq scopes, local?_unflagged, parent?_unflagged, Option.isSome_map]
    split
    · rfl
    · split
      · split
        · rename_i outward
          exact ih _ outward
        · rfl
      · rfl

theorem unflagged_define (scopes : Scopes α) (scope : ScopeId) (name : String) (value : α)
    (constant : Bool) : (scopes.define scope name value constant).unflagged =
      scopes.unflagged.define scope name value false := by
  apply Array.ext_getElem?
  intro i
  rw [getElem?_unflagged, getElem?_define, getElem?_define, getElem?_unflagged]
  split
  · cases scopes[i]? with
    | none => rfl
    | some s =>
      simp only [Option.map_some, unflag, Table.map_insert]
  · rfl

theorem unflagged_child (scopes : Scopes α) (scope : ScopeId) :
    (scopes.child scope).unflagged = scopes.unflagged.child scope :=
  Array.map_push

end Scopes

/-! ## Leniency -/

/-- How a second run checks less than a first one. -/
structure Leniency where
  /-- What becomes of the flag of a declaration. -/
  declares : Bool → Bool
  /-- Which flag a binding may have in the second run, by that in the first. -/
  Allows : Bool → Bool → Prop
  /-- The faults of the first run that the second need not have. -/
  Excuses : Fault → Prop
  allows_declares : ∀ constant, Allows constant (declares constant)
  allows_self : ∀ constant, Allows constant constant
  /-- What can be assigned to in the first run can be assigned to in the second. -/
  allows_false : ∀ {constant}, Allows false constant → constant = false
  excuses_constant : Allows true false → ∀ name, Excuses (.name (.constant name))

variable {leniency : Leniency}

namespace Scopes

/-- Scopes of two runs of which the second checks less: they differ in flags only. -/
structure Eases (leniency : Leniency) (scopes other : Scopes Value) : Prop where
  unflagged : other.unflagged = scopes.unflagged
  flags : ∀ {scope name binding binding'}, scopes.local? scope name = some binding →
    other.local? scope name = some binding' →
    leniency.Allows binding.constant binding'.constant

namespace Eases

variable {scopes other : Scopes Value}

theorem size (eases : Eases leniency scopes other) : other.size = scopes.size := by
  have same := congrArg Array.size eases.unflagged
  unfold Scopes.unflagged at same
  rwa [Array.size_map, Array.size_map] at same

theorem owner? (eases : Eases leniency scopes other) (scope : ScopeId) (name : String) :
    other.owner? scope name = scopes.owner? scope name := by
  rw [← owner?_unflagged other, ← owner?_unflagged scopes, eases.unflagged]

/-- A name is bound to the same value in the same scopes. -/
theorem local? (eases : Eases leniency scopes other) (scope : ScopeId) (name : String) :
    (other.local? scope name = none ∧ scopes.local? scope name = none) ∨
      ∃ value constant constant', scopes.local? scope name = some ⟨value, constant⟩ ∧
        other.local? scope name = some ⟨value, constant'⟩ ∧
        leniency.Allows constant constant' := by
  have same := congrArg (Scopes.local? · scope name) eases.unflagged
  simp only [local?_unflagged] at same
  have flags := @eases.flags scope name
  cases found : scopes.local? scope name with
  | none =>
    rw [found] at same
    exact .inl ⟨Option.map_eq_none_iff.mp same, rfl⟩
  | some binding =>
    rw [found] at same flags
    obtain ⟨binding', found', values⟩ := Option.map_eq_some_iff.mp same
    have allowed := flags rfl found'
    obtain ⟨value, constant⟩ := binding
    obtain ⟨value', constant'⟩ := binding'
    cases values
    exact .inr ⟨value, constant, constant', rfl, found', allowed⟩

/-- A name has the same value in both runs, or none in either. -/
theorem resolve (eases : Eases leniency scopes other) (scope : ScopeId) (name : String) :
    (∃ binding binding', scopes.resolve scope name = .ok binding ∧
      other.resolve scope name = .ok binding' ∧ binding'.value = binding.value) ∨
    ∃ fault, scopes.resolve scope name = .error fault ∧
      other.resolve scope name = .error fault := by
  unfold Scopes.resolve
  rw [eases.owner?]
  cases scopes.owner? scope name with
  | none => exact .inr ⟨_, rfl, rfl⟩
  | some owner =>
    simp only [Option.bind_some]
    rcases eases.local? owner name with ⟨missing', missing⟩ | ⟨value, _, _, found, found', _⟩
    · rw [missing', missing]
      exact .inr ⟨_, rfl, rfl⟩
    · rw [found, found']
      exact .inl ⟨_, _, rfl, rfl, rfl⟩

/-- An assignment takes place in the same scope, or fails in both runs with the same fault, unless
the second run does not take a constant for one. -/
theorem assignee (eases : Eases leniency scopes other) (scope : ScopeId) (name : String) :
    (∃ owner, scopes.assignee scope name = .ok owner ∧ other.assignee scope name = .ok owner) ∨
    (∃ fault, scopes.assignee scope name = .error fault ∧
      other.assignee scope name = .error fault) ∨
    (scopes.assignee scope name = .error (.constant name) ∧
      leniency.Excuses (.name (.constant name))) := by
  unfold Scopes.assignee
  rw [eases.owner?]
  cases scopes.owner? scope name with
  | none => exact .inr (.inl ⟨_, rfl, rfl⟩)
  | some owner =>
    rcases eases.local? owner name with
      ⟨missing', missing⟩ | ⟨value, constant, constant', found, found', allowed⟩
    · simp only [missing', missing]
      exact .inr (.inl ⟨_, rfl, rfl⟩)
    · simp only [found, found']
      cases constant with
      | false =>
        cases leniency.allows_false allowed
        exact .inl ⟨owner, rfl, rfl⟩
      | true =>
        cases constant' with
        | false => exact .inr (.inr ⟨rfl, leniency.excuses_constant allowed name⟩)
        | true => exact .inr (.inl ⟨_, rfl, rfl⟩)

theorem define (eases : Eases leniency scopes other) (scope : ScopeId) (name : String)
    (value : Value) {constant constant' : Bool} (allowed : leniency.Allows constant constant') :
    Eases leniency (scopes.define scope name value constant)
      (other.define scope name value constant') where
  unflagged := by rw [unflagged_define, unflagged_define, eases.unflagged]
  flags := by
    intro i n binding binding' found found'
    by_cases here : i = scope ∧ n = name
    · obtain ⟨rfl, rfl⟩ := here
      have inside := lt_of_local? found
      have inside' := lt_of_local? found'
      rw [size_define] at inside inside'
      rw [local?_define_self inside] at found
      rw [local?_define_self inside'] at found'
      cases found
      cases found'
      exact allowed
    · rw [local?_define_of_ne here] at found found'
      exact eases.flags found found'

theorem child (eases : Eases leniency scopes other) (scope : ScopeId) :
    Eases leniency (scopes.child scope) (other.child scope) where
  unflagged := by rw [unflagged_child, unflagged_child, eases.unflagged]
  flags := by
    intro i n binding binding' found found'
    have inside := lt_of_local? found
    rw [size_child] at inside
    by_cases old : i < scopes.size
    · rw [local?_child_of_lt old] at found
      rw [local?_child_of_lt (eases.size ▸ old)] at found'
      exact eases.flags found found'
    · -- the new scope binds nothing
      have new : i = scopes.size :=
        Nat.le_antisymm (Nat.le_of_lt_succ inside) (Nat.le_of_not_lt old)
      rw [new, local?_child_self] at found
      cases found

end Eases

theorem Eases.refl (scopes : Scopes Value) : Eases leniency scopes scopes where
  unflagged := rfl
  flags := by
    intro i n binding binding' found found'
    rw [found] at found'
    cases found'
    exact leniency.allows_self _

end Scopes

namespace Store

/-- Stores of two runs of which the second checks less: they differ in the flags of bindings, and of
declarations inside procedures. -/
structure Eases (leniency : Leniency) (store other : Store) : Prop where
  scopes : store.scopes.Eases leniency other.scopes
  arrays : other.arrays = store.arrays
  objects : other.objects = store.objects
  functions : other.functions = store.functions.map (Callable.reflag leniency.declares)
  output : other.output = store.output

theorem Eases.sameContents {store other : Store} (eases : store.Eases leniency other) :
    store.SameContents other where
  arrays := eases.arrays
  objects := eases.objects
  texts := by
    intro id
    unfold functionText
    rw [eases.functions, Array.getElem?_map]
    cases store.functions[id]? with
    | none => rfl
    | some callable => cases callable <;> rfl

end Store

/-! ## Steps -/

namespace Leniency

open Run

/-- The second run ends as the first one does, unless that has a fault which is excused. -/
def comparison (leniency : Leniency) : Comparison Unit :=
  .ofStores (Store.Eases leniency) leniency.Excuses

theorem compares_lookup (scope : ScopeId) (name : String) :
    Compares leniency.comparison () same (lookup scope name) (lookup scope name) := by
  refine compares_get_bind fun store store' eases => ?_
  rcases eases.scopes.resolve scope name with
    ⟨binding, binding', found, found', values⟩ | ⟨fault, missing, missing'⟩
  · rw [found, found']
    exact compares_pure values
  · rw [missing, missing']
    exact compares_throw _

/-- The second run may declare a variable where the first one declares a constant. -/
theorem compares_define (scope : ScopeId) (name : String) (value : Value)
    {constant constant' : Bool} (allowed : leniency.Allows constant constant') :
    Compares leniency.comparison () same (define scope name value constant)
      (define scope name value constant') :=
  compares_modify fun _ _ eases => { eases with
    scopes := eases.scopes.define scope name value allowed }

theorem compares_assign (scope : ScopeId) (name : String) (value : Value) :
    Compares leniency.comparison () same (assign scope name value) (assign scope name value) := by
  refine compares_get_bind fun store store' eases => ?_
  rcases eases.scopes.assignee scope name with
    ⟨owner, found, found'⟩ | ⟨fault, refused, refused'⟩ | ⟨refused, excuses⟩
  · rw [found, found']
    exact compares_define owner name value (leniency.allows_self _)
  · rw [refused, refused']
    exact compares_throw _
  · -- the only place where the second run may go on and the first one may not
    rw [refused]
    exact compares_excused excuses _

theorem compares_openScope (parent : ScopeId) :
    Compares leniency.comparison () same (openScope parent) (openScope parent) :=
  compares_modifyGet fun _ _ eases => ⟨eases.scopes.size, { eases with
    scopes := eases.scopes.child parent }⟩

/-- A new function has the same number in both runs. -/
theorem compares_newFunction (function : Callable) :
    Compares leniency.comparison () same (newFunction function)
      (newFunction (function.reflag leniency.declares)) := by
  refine compares_modifyGet fun store store' eases => ⟨?_, { eases with functions := ?_ }⟩
  · show Value.function store'.functions.size = .function store.functions.size
    rw [eases.functions, Array.size_map]
  · show store'.functions.push _ = (store.functions.push function).map _
    rw [eases.functions, Array.map_push]

/-- With other flags every step ends as it does in the first run. -/
theorem stepwise (leniency : Leniency) :
    leniency.comparison.Stepwise { flag := leniency.declares } where
  contents := Store.Eases.sameContents
  arrays eases _ := { eases with arrays := rfl }
  objects eases _ := { eases with objects := rfl }
  prints eases line := { eases with
    output := congrArg (Array.push · line) eases.output }
  functions := by
    intro _ store store' eases id
    rw [eases.functions, Array.getElem?_map]
    cases store.functions[id]? with
    | none => exact .none
    | some function => exact .some (Rewriting.callable_flag _ function).symm
  later _ related := related
  builtins _ _ _ := rfl
  newFunction := by
    rintro _ function _ rfl
    rw [Rewriting.callable_flag]
    exact compares_newFunction function
  lookup _ := compares_lookup
  define _ scope name value _ := compares_define scope name value (leniency.allows_self _)
  declare _ scope name value _ := compares_define scope name value (leniency.allows_declares _)
  assign _ := compares_assign
  openScope _ := compares_openScope

end Leniency

end Script
