import Mathlib.Logic.Relation
import Script.Proofs.Scope

/-!
# Scopes after any history

A `History` is any sequence of operations on scopes that have grown from one root, failed ones
included. What a name means after it is said here without tables: by the latest definition of the
name in a scope (`flag?`), by the latest operation that acted on its binding (`Latest`), and by the
innermost scope around a given one that defines it (`Nearest`).

* `owner?_eq_some_iff`: the walk outward ends at the nearest scope that defines a name.
* `local?_eq_some_iff`: a scope binds a name to what the latest act gave it, with the flag of the
  latest definition.
* `lookup_finds_nearest_definition`: what every operation answers and what it changes.
-/

namespace Script.Scopes

variable {α : Type}

/-! ## Operations -/

/-- What can be asked about a name in a scope. -/
inductive Question where
  | get
  | resolve
  | hasLocal

/-- What can be done with scopes. -/
inductive Operation (α : Type) where
  | child (scope : ScopeId)
  | define (scope : ScopeId) (name : String) (value : α) (constant : Bool)
  | assign (scope : ScopeId) (name : String) (value : α)
  | ask (question : Question) (scope : ScopeId) (name : String)

/-- What an operation answers. -/
inductive Answer (α : Type) where
  | created (scope : ScopeId)
  | done
  | value (found : α)
  | binding (found : Binding α)
  | truth (holds : Bool)
deriving DecidableEq

theorem map_eq_ok_iff {ε β γ : Type} {f : β → γ} {result : Except ε β} {y : γ} :
    result.map f = .ok y ↔ ∃ x, result = .ok x ∧ y = f x := by
  cases result with
  | ok x => exact ⟨fun same => ⟨x, rfl, (Except.ok.inj same).symm⟩,
      fun ⟨_, given, same⟩ => by cases given; exact congrArg Except.ok same.symm⟩
  | error fault => exact ⟨nofun, nofun⟩

theorem map_eq_error_iff {ε β γ : Type} {f : β → γ} {result : Except ε β} {fault : ε} :
    result.map f = .error fault ↔ result = .error fault := by
  cases result with
  | ok x => exact ⟨nofun, nofun⟩
  | error other => exact ⟨fun same => congrArg Except.error (Except.error.inj same),
      fun same => congrArg Except.error (Except.error.inj same)⟩

/-- The answer to a question. -/
def Question.answer (scopes : Scopes α) (scope : ScopeId) (name : String) :
    Question → Except NameFault (Answer α)
  | get => (scopes.resolve scope name).map fun found => .value found.value
  | resolve => (scopes.resolve scope name).map .binding
  | hasLocal => .ok (.truth (scopes.local? scope name).isSome)

namespace Operation

/-- The scope that an operation is done on. -/
def scope : Operation α → ScopeId
  | child scope => scope
  | define scope _ _ _ => scope
  | assign scope _ _ => scope
  | ask _ scope _ => scope

/-- How many scopes there are behind an operation. -/
def grow (count : Nat) : Operation α → Nat
  | child _ => count + 1
  | _ => count

/-- What an operation answers, and the scopes behind it. -/
def run (scopes : Scopes α) : Operation α → Except NameFault (Answer α) × Scopes α
  | child scope => (.ok (.created scopes.size), scopes.child scope)
  | define scope name value constant => (.ok .done, scopes.define scope name value constant)
  | assign scope name value =>
    match scopes.assign scope name value with
    | .ok after => (.ok .done, after)
    | .error fault => (.error fault, scopes)
  | ask question scope name => (question.answer scopes scope name, scopes)

end Operation

/-- Operations one after the other, from one root on, each on a scope that there is. -/
inductive History (α : Type) : (count : Nat) → Type where
  | root : History α 1
  | next {count : Nat} (past : History α count) (operation : Operation α)
      (inside : operation.scope < count) : History α (operation.grow count)

namespace History

/-- The scopes behind a history. -/
def scopes : {count : Nat} → History α count → Scopes α
  | _, root => .root
  | _, next past operation _ => (operation.run past.scopes).2

/-! ## What a history says -/

/-- The scope that a scope was made in. -/
def parent? : {count : Nat} → History α count → ScopeId → Option ScopeId
  | _, root, _ => none
  | _, @next _ count past operation _, scope =>
    match operation with
    | .child outer => if scope = count then some outer else past.parent? scope
    | _ => past.parent? scope

/-- Whether the latest definition of a name in a scope made it a constant, if there was one. -/
def flag? : {count : Nat} → History α count → ScopeId → String → Option Bool
  | _, root, _, _ => none
  | _, next past operation _, scope, name =>
    match operation with
    | .define place key _ constant =>
      if scope = place ∧ name = key then some constant else past.flag? scope name
    | _ => past.flag? scope name

variable {count : Nat}

/-- A scope was made in another one. -/
def LiesIn (history : History α count) (inner outer : ScopeId) : Prop :=
  history.parent? inner = some outer

/-- A scope is another one or lies in it, at any depth. -/
def Within (history : History α count) : ScopeId → ScopeId → Prop :=
  Relation.ReflTransGen history.LiesIn

/-- Of the scopes around a scope, itself among them, that define a name, one lies within all. -/
structure Nearest (history : History α count) (scope : ScopeId) (name : String)
    (owner : ScopeId) : Prop where
  around : history.Within scope owner
  defines : (history.flag? owner name).isSome
  innermost : ∀ other, history.Within scope other → (history.flag? other name).isSome →
    history.Within owner other

/-- An operation gives the binding of a name in a scope a value: it defines the name there, or
assigns to it where that scope is the nearest that defines it, and not as a constant. -/
inductive Acts (past : History α count) : Operation α → ScopeId → String → α → Prop
  | define {scope name value constant} :
      Acts past (.define scope name value constant) scope name value
  | assign {scope name value owner} : past.Nearest scope name owner →
      past.flag? owner name = some false → Acts past (.assign scope name value) owner name value

/-- The latest operation that acted on the binding of a name in a scope gave it this value. -/
def Latest : {count : Nat} → History α count → ScopeId → String → α → Prop
  | _, root, _, _, _ => False
  | _, next past operation _, scope, name, value =>
    past.Acts operation scope name value ∨
      (∀ other, ¬ past.Acts operation scope name other) ∧ past.Latest scope name value

/-! ## Scopes lie in older ones -/

/-- An assignment is a definition in the scope that binds the name, or fails. -/
theorem run_assign (scopes : Scopes α) (scope : ScopeId) (name : String) (value : α) :
    (Operation.assign scope name value).run scopes =
      match scopes.assignee scope name with
      | .ok owner => (.ok .done, scopes.define owner name value false)
      | .error fault => (.error fault, scopes) := by
  simp only [Operation.run, Scopes.assign]
  cases scopes.assignee scope name with
  | ok owner => rfl
  | error fault => rfl

/-- How many scopes there are is known from the operations alone. -/
theorem size_run (scopes : Scopes α) (operation : Operation α) :
    (operation.run scopes).2.size = operation.grow scopes.size := by
  cases operation with
  | child scope => exact size_child
  | define scope name value constant => exact size_define
  | assign scope name value =>
    rw [run_assign]
    cases scopes.assignee scope name with
    | ok owner => exact size_define
    | error fault => rfl
  | ask question scope name => rfl

@[simp]
theorem size_scopes (history : History α count) : history.scopes.size = count := by
  induction history with
  | root => rfl
  | next past operation inside ih =>
    show (operation.run past.scopes).2.size = _
    rw [size_run, ih]

/-- No operation moves a scope. -/
theorem parent?_run (scopes : Scopes α) (operation : Operation α) {scope : ScopeId}
    (old : scope < scopes.size) :
    (operation.run scopes).2.parent? scope = scopes.parent? scope := by
  cases operation with
  | child outer => exact parent?_child_of_lt old
  | define place name value constant => exact parent?_define
  | assign place name value =>
    rw [run_assign]
    cases scopes.assignee place name with
    | ok owner => exact parent?_define
    | error fault => rfl
  | ask question place name => rfl

/-- Scopes lie in those that they were made in. -/
theorem parent?_scopes (history : History α count) {scope : ScopeId} (inside : scope < count) :
    history.scopes.parent? scope = some (history.parent? scope) := by
  induction history with
  | root =>
    obtain rfl : scope = 0 := Nat.lt_one_iff.mp inside
    rfl
  | @next count past operation within ih =>
    have size := past.size_scopes
    show (operation.run past.scopes).2.parent? scope = _
    by_cases old : scope < count
    · rw [parent?_run _ _ (by rwa [size]), ih old]
      cases operation with
      | child outer =>
        show _ = some (if scope = count then _ else _)
        rw [if_neg (Nat.ne_of_lt old)]
      | define place name value constant => rfl
      | assign place name value => rfl
      | ask question place name => rfl
    · cases operation with
      | child outer =>
        obtain rfl : scope = count :=
          Nat.le_antisymm (Nat.le_of_lt_succ inside) (Nat.not_lt.mp old)
        have made : (past.scopes.child outer).parent? past.scopes.size = some (some outer) :=
          parent?_child_self
        rw [size] at made
        show (past.scopes.child outer).parent? scope = some (if scope = scope then _ else _)
        rw [made, if_pos rfl]
      | define place name value constant => exact absurd inside old
      | assign place name value => exact absurd inside old
      | ask question place name => exact absurd inside old

/-- A scope lies in an older one. -/
theorem LiesIn.lt {history : History α count} {inner outer : ScopeId}
    (lies : history.LiesIn inner outer) : outer < inner ∧ inner < count := by
  unfold LiesIn at lies
  induction history with
  | root => cases lies
  | @next count past operation inside ih =>
    cases operation with
    | child scope =>
      simp only [parent?] at lies
      split at lies
      · rename_i here
        cases lies
        exact ⟨here ▸ inside, here ▸ Nat.lt_succ_self _⟩
      · obtain ⟨older, there⟩ := ih lies
        exact ⟨older, Nat.lt_succ_of_lt there⟩
    | define scope name value constant => exact ih lies
    | assign scope name value => exact ih lies
    | ask question scope name => exact ih lies

theorem Within.le {history : History α count} {inner outer : ScopeId}
    (within : history.Within inner outer) : outer ≤ inner := by
  induction within with
  | refl => exact Nat.le_refl _
  | tail _ lies ih => exact Nat.le_trans (Nat.le_of_lt lies.lt.1) ih

/-- No scope lies in itself, however far outward one goes. -/
theorem not_transGen_liesIn (history : History α count) (scope : ScopeId) :
    ¬ Relation.TransGen history.LiesIn scope scope := by
  intro cycle
  obtain ⟨outer, lies, rest⟩ := Relation.TransGen.head'_iff.mp cycle
  exact absurd (Within.le rest) (Nat.not_le.mpr lies.lt.1)

/-- Only the root lies in no other scope. -/
theorem eq_zero_of_parent? {history : History α count} {scope : ScopeId} (inside : scope < count)
    (outermost : history.parent? scope = none) : scope = 0 := by
  induction history with
  | root => exact Nat.lt_one_iff.mp inside
  | @next count past operation within ih =>
    cases operation with
    | child outer =>
      simp only [parent?] at outermost
      split at outermost
      · cases outermost
      · rename_i older
        exact ih (Nat.lt_of_le_of_ne (Nat.le_of_lt_succ inside) older) outermost
    | define place name value constant => exact ih inside outermost
    | assign place name value => exact ih inside outermost
    | ask question place name => exact ih inside outermost

/-- From every scope the walk outward ends at the root. -/
theorem within_root (history : History α count) {scope : ScopeId} (inside : scope < count) :
    history.Within scope 0 := by
  induction scope using Nat.strongRecOn with
  | ind scope ih =>
    cases lies : history.parent? scope with
    | none =>
      rw [eq_zero_of_parent? inside lies]
      exact .refl
    | some outer =>
      have older := LiesIn.lt lies
      exact .head lies (ih outer older.1 (Nat.lt_trans older.1 inside))

/-! ## The nearest definition -/

section Nearest

variable {history : History α count} {scope outer owner other : ScopeId} {name : String}

theorem Nearest.unique (first : history.Nearest scope name owner)
    (second : history.Nearest scope name other) : owner = other :=
  Nat.le_antisymm (second.innermost _ first.around first.defines).le
    (first.innermost _ second.around second.defines).le

/-- A scope that defines a name is nearest to itself. -/
theorem nearest_self (defines : (history.flag? scope name).isSome) :
    history.Nearest scope name scope :=
  ⟨.refl, defines, fun _ around _ => around⟩

/-- From a scope that does not define a name the walk goes on in the scope around it. -/
theorem nearest_outer_iff (absent : history.flag? scope name = none)
    (lies : history.LiesIn scope outer) :
    history.Nearest scope name owner ↔ history.Nearest outer name owner := by
  -- a scope around this one that defines the name lies around the outer one
  have skip : ∀ {other}, history.Within scope other → (history.flag? other name).isSome →
      history.Within outer other := by
    intro other around defines
    rcases around.cases_head with rfl | ⟨next, first, rest⟩
    · rw [absent] at defines
      cases defines
    · cases lies.symm.trans first
      exact rest
  constructor
  · rintro ⟨around, defines, innermost⟩
    exact ⟨skip around defines, defines, fun other outside => innermost other (.head lies outside)⟩
  · rintro ⟨around, defines, innermost⟩
    exact ⟨.head lies around, defines,
      fun other outside found => innermost other (skip outside found) found⟩

/-- Where the outermost scope has no name, no scope around it has. -/
theorem not_nearest_of_outermost (absent : history.flag? scope name = none)
    (outermost : history.parent? scope = none) : ¬ history.Nearest scope name owner := by
  rintro ⟨around, defines, -⟩
  rcases around.cases_head with rfl | ⟨next, first, rest⟩
  · rw [absent] at defines
    cases defines
  · cases outermost.symm.trans first

end Nearest

/-! ## What scopes hold -/

theorem local?_child {scopes : Scopes α} (outer scope : ScopeId) (name : String) :
    (scopes.child outer).local? scope name = scopes.local? scope name := by
  rcases Nat.lt_trichotomy scope scopes.size with old | rfl | outside
  · exact local?_child_of_lt old
  · rw [local?_child_self]
    unfold local?
    rw [Array.getElem?_eq_none (Nat.le_refl _)]
    rfl
  · unfold local?
    rw [Array.getElem?_eq_none (Nat.le_of_lt outside),
      Array.getElem?_eq_none (by rw [size_child]; exact outside)]

theorem local?_root (scope : ScopeId) (name : String) :
    (root : History α 1).scopes.local? scope name = none := by
  show Scopes.local? #[{}] scope name = none
  unfold local?
  rcases Nat.eq_zero_or_pos scope with rfl | outside
  · rfl
  · rw [Array.getElem?_eq_none outside]
    rfl

/-- A scope binds a name with the flag of its latest definition there. -/
theorem flag?_eq (history : History α count) (scope : ScopeId) (name : String) :
    history.flag? scope name = (history.scopes.local? scope name).map (·.constant) := by
  induction history with
  | root =>
    rw [local?_root]
    rfl
  | @next count past operation inside ih =>
    have size := past.size_scopes
    show _ = ((operation.run past.scopes).2.local? scope name).map _
    cases operation with
    | child outer =>
      show past.flag? scope name = ((past.scopes.child outer).local? scope name).map _
      rw [local?_child, ih]
    | define place key value constant =>
      show (if scope = place ∧ name = key then some constant else past.flag? scope name) =
        ((past.scopes.define place key value constant).local? scope name).map _
      split
      · rename_i same
        obtain ⟨rfl, rfl⟩ := same
        rw [local?_define_self (by rwa [size])]
        rfl
      · rename_i different
        rw [local?_define_of_ne different, ih]
    | assign place key value =>
      rw [run_assign]
      show past.flag? scope name = _
      cases found : past.scopes.assignee place key with
      | error fault => exact ih
      | ok owner =>
        show _ = ((past.scopes.define owner key value false).local? scope name).map _
        obtain ⟨old, bound⟩ := local?_of_assignee found
        by_cases same : scope = owner ∧ name = key
        · -- only what is no constant is assigned to, and it stays none
          obtain ⟨rfl, rfl⟩ := same
          rw [local?_define_self (lt_of_local? bound), ih, bound]
          rfl
        · rw [local?_define_of_ne same, ih]
    | ask question place key => exact ih

section

variable {history : History α count} {scope owner : ScopeId} {name : String}

theorem isSome_flag? : (history.flag? scope name).isSome =
    (history.scopes.local? scope name).isSome := by
  rw [flag?_eq, Option.isSome_map]

/-- The walk outward ends at the nearest scope that defines a name. -/
theorem owner?_eq_some_iff (inside : scope < count) :
    history.scopes.owner? scope name = some owner ↔ history.Nearest scope name owner := by
  induction scope using Nat.strongRecOn with
  | ind scope ih =>
    rw [owner?_eq, parent?_scopes history inside, ← isSome_flag?]
    cases defined : history.flag? scope name with
    | some constant =>
      have here : history.Nearest scope name scope := nearest_self (by rw [defined]; rfl)
      rw [Option.isSome_some, if_pos rfl, Option.some_inj]
      exact ⟨fun same => same ▸ here, fun nearest => here.unique nearest⟩
    | none =>
      rw [Option.isSome_none, if_neg Bool.false_ne_true]
      cases lies : history.parent? scope with
      | none =>
        refine ⟨fun found => ?_, fun nearest => ?_⟩
        · cases found
        · exact absurd nearest (not_nearest_of_outermost defined lies)
      | some outer =>
        have older := LiesIn.lt lies
        show (if outer < scope then _ else _) = _ ↔ _
        rw [if_pos older.1, nearest_outer_iff defined lies]
        exact ih outer older.1 (Nat.lt_trans older.1 inside)

theorem owner?_eq_none_iff (inside : scope < count) :
    history.scopes.owner? scope name = none ↔ ¬ ∃ owner, history.Nearest scope name owner := by
  rw [Option.eq_none_iff_forall_ne_some, not_exists]
  exact forall_congr' fun owner => not_congr (owner?_eq_some_iff inside)

/-- The scope that binds a name has a binding of it. -/
theorem Nearest.bound (nearest : history.Nearest scope name owner) :
    ∃ binding, history.scopes.local? owner name = some binding := by
  rw [← Option.isSome_iff_exists, ← isSome_flag?]
  exact nearest.defines

/-- An assignment takes place in the nearest scope that defines the name, if it is no constant. -/
theorem assignee_eq_ok_iff (inside : scope < count) :
    history.scopes.assignee scope name = .ok owner ↔
      history.Nearest scope name owner ∧ history.flag? owner name = some false := by
  rw [flag?_eq]
  constructor
  · intro found
    obtain ⟨old, bound⟩ := local?_of_assignee found
    exact ⟨(owner?_eq_some_iff inside).mp (owner?_of_assignee found), by rw [bound]; rfl⟩
  · rintro ⟨nearest, free⟩
    obtain ⟨⟨value, constant⟩, bound⟩ := nearest.bound
    rw [bound] at free
    cases free
    unfold assignee
    rw [(owner?_eq_some_iff inside).mpr nearest]
    simp only [bound]

/-- An assignment fails if nothing defines the name, or if it is a constant. -/
theorem assignee_eq_error_iff (inside : scope < count) {fault : NameFault} :
    history.scopes.assignee scope name = .error fault ↔
      (fault = .undefined name ∧ ¬ ∃ owner, history.Nearest scope name owner) ∨
      fault = .constant name ∧
        ∃ owner, history.Nearest scope name owner ∧ history.flag? owner name = some true := by
  cases found : history.scopes.owner? scope name with
  | none =>
    have absent := (owner?_eq_none_iff inside).mp found
    unfold assignee
    rw [found]
    constructor
    · intro failed
      cases failed
      exact .inl ⟨rfl, absent⟩
    · rintro (⟨rfl, -⟩ | ⟨-, owner, nearest, -⟩)
      · rfl
      · exact absurd ⟨owner, nearest⟩ absent
  | some owner =>
    have nearest := (owner?_eq_some_iff inside).mp found
    obtain ⟨⟨value, constant⟩, bound⟩ := nearest.bound
    have flag : history.flag? owner name = some constant := by
      rw [flag?_eq, bound]
      rfl
    unfold assignee
    simp only [found, bound]
    cases constant with
    | true =>
      constructor
      · intro failed
        cases failed
        exact .inr ⟨rfl, owner, nearest, flag⟩
      · rintro (⟨-, absent⟩ | ⟨rfl, -⟩)
        · exact absurd ⟨owner, nearest⟩ absent
        · rfl
    | false =>
      constructor
      · intro failed
        cases failed
      · rintro (⟨-, absent⟩ | ⟨-, other, nearestOther, constant⟩)
        · exact absurd ⟨owner, nearest⟩ absent
        · cases nearest.unique nearestOther
          cases flag.symm.trans constant

/-! ## What operations do to bindings -/

variable {operation : Operation α} {value : α}

/-- The binding that an operation acts on has the value that the act gives it. -/
theorem local?_of_acts (inside : operation.scope < count)
    (acts : history.Acts operation scope name value) :
    ((operation.run history.scopes).2.local? scope name).map (·.value) = some value := by
  cases acts with
  | @define _ _ _ constant =>
    have there : scope < history.scopes.size := by rwa [size_scopes]
    show ((history.scopes.define scope name value constant).local? scope name).map _ = _
    rw [local?_define_self there]
    rfl
  | @assign place _ _ _ nearest free =>
    have there : place < count := inside
    obtain ⟨binding, bound⟩ := nearest.bound
    rw [run_assign, (assignee_eq_ok_iff there).mpr ⟨nearest, free⟩]
    show ((history.scopes.define scope name value false).local? scope name).map _ = _
    rw [local?_define_self (lt_of_local? bound)]
    rfl

/-- All other bindings are as before. -/
theorem local?_of_not_acts (inside : operation.scope < count)
    (none : ∀ value, ¬ history.Acts operation scope name value) :
    (operation.run history.scopes).2.local? scope name = history.scopes.local? scope name := by
  cases operation with
  | child outer => exact local?_child ..
  | define place key given constant =>
    refine local?_define_of_ne ?_
    rintro ⟨rfl, rfl⟩
    exact none given .define
  | assign place key given =>
    rw [run_assign]
    cases found : history.scopes.assignee place key with
    | error fault => rfl
    | ok owner =>
      obtain ⟨nearest, free⟩ := (assignee_eq_ok_iff inside).mp found
      refine local?_define_of_ne ?_
      rintro ⟨rfl, rfl⟩
      exact none given (.assign nearest free)
  | ask question place key => rfl

theorem Acts.unique {other : α} (first : history.Acts operation scope name value)
    (second : history.Acts operation scope name other) : value = other := by
  cases first with
  | define =>
    cases second
    rfl
  | assign =>
    cases second
    rfl

/-- A scope binds a name to the value of the latest act on it. -/
theorem latest_iff : history.Latest scope name value ↔
    (history.scopes.local? scope name).map (·.value) = some value := by
  induction history with
  | root =>
    rw [local?_root]
    exact ⟨False.elim, nofun⟩
  | @next count past operation inside ih =>
    show _ ∨ _ ↔ ((operation.run past.scopes).2.local? scope name).map _ = _
    by_cases acts : ∃ given, past.Acts operation scope name given
    · obtain ⟨given, act⟩ := acts
      rw [local?_of_acts inside act, Option.some_inj]
      constructor
      · rintro (other | ⟨none, -⟩)
        · exact act.unique other
        · exact absurd act (none given)
      · rintro rfl
        exact .inl act
    · have none := not_exists.mp acts
      rw [local?_of_not_acts inside none, ← ih]
      exact ⟨fun latest => (latest.resolve_left (none value)).2,
        fun earlier => .inr ⟨none, earlier⟩⟩

/-- A scope binds a name to what the latest act gave it, with the flag of the latest definition. -/
theorem local?_eq_some_iff {binding : Binding α} :
    history.scopes.local? scope name = some binding ↔
      history.Latest scope name binding.value ∧
        history.flag? scope name = some binding.constant := by
  rw [latest_iff, flag?_eq]
  constructor
  · intro bound
    rw [bound]
    exact ⟨rfl, rfl⟩
  · rintro ⟨latest, flag⟩
    obtain ⟨found, bound, same⟩ := Option.map_eq_some_iff.mp latest
    rw [bound] at flag ⊢
    obtain ⟨value, constant⟩ := found
    cases same
    cases flag
    rfl

/-! ## What is seen from a scope -/

/-- A name is looked up in the nearest scope that has it, and has the latest value there. -/
theorem resolve_eq_ok_iff (inside : scope < count) {binding : Binding α} :
    history.scopes.resolve scope name = .ok binding ↔
      ∃ owner, history.Nearest scope name owner ∧ history.Latest owner name binding.value ∧
        history.flag? owner name = some binding.constant := by
  constructor
  · intro found
    obtain ⟨owner, there, bound⟩ := owner?_of_resolve found
    exact ⟨owner, (owner?_eq_some_iff inside).mp there, local?_eq_some_iff.mp bound⟩
  · rintro ⟨owner, nearest, latest⟩
    unfold resolve
    rw [(owner?_eq_some_iff inside).mpr nearest, Option.bind_some, local?_eq_some_iff.mpr latest]

theorem resolve_eq_error_iff (inside : scope < count) {fault : NameFault} :
    history.scopes.resolve scope name = .error fault ↔
      fault = .undefined name ∧ ¬ ∃ owner, history.Nearest scope name owner := by
  rw [← owner?_eq_none_iff inside]
  unfold resolve
  cases found : history.scopes.owner? scope name with
  | none =>
    constructor
    · intro failed
      cases failed
      exact ⟨rfl, rfl⟩
    · rintro ⟨rfl, -⟩
      rfl
  | some owner =>
    obtain ⟨binding, bound⟩ := ((owner?_eq_some_iff inside).mp found).bound
    rw [Option.bind_some, bound]
    exact ⟨nofun, nofun⟩

/-- What is seen from a scope depends on the scopes around it only. -/
theorem owner?_congr {others : Scopes α} (inside : scope < count)
    (same : ∀ around, history.Within scope around →
      others.local? around name = history.scopes.local? around name ∧
        others.parent? around = history.scopes.parent? around) :
    others.owner? scope name = history.scopes.owner? scope name := by
  induction scope using Nat.strongRecOn with
  | ind scope ih =>
    obtain ⟨bindings, parents⟩ := same scope .refl
    rw [owner?_eq others, owner?_eq history.scopes, bindings, parents,
      parent?_scopes history inside]
    cases lies : history.parent? scope with
    | none => rfl
    | some outer =>
      have older := LiesIn.lt lies
      show (if _ then _ else if outer < scope then _ else _) =
        if _ then _ else if outer < scope then _ else _
      rw [ih outer older.1 (Nat.lt_trans older.1 inside)
        fun around outside => same around (.head lies outside)]

/-- An operation that acts on no scope around a given one is not noticed there. -/
theorem resolve_run (done : operation.scope < count) (inside : scope < count)
    (unrelated : ∀ owner key given, history.Acts operation owner key given →
      ¬ history.Within scope owner) :
    (operation.run history.scopes).2.resolve scope name = history.scopes.resolve scope name := by
  have bindings : ∀ around, history.Within scope around →
      (operation.run history.scopes).2.local? around name =
        history.scopes.local? around name := fun around within =>
    local?_of_not_acts done fun given act => unrelated around name given act within
  have owners : (operation.run history.scopes).2.owner? scope name =
      history.scopes.owner? scope name := by
    refine owner?_congr inside fun around within => ⟨bindings around within, parent?_run _ _ ?_⟩
    rw [size_scopes]
    exact Nat.lt_of_le_of_lt within.le inside
  unfold resolve
  rw [owners]
  cases found : history.scopes.owner? scope name with
  | none => rfl
  | some owner =>
    have nearest := (owner?_eq_some_iff inside).mp found
    rw [Option.bind_some, Option.bind_some, bindings owner nearest.around]

end

/-! ## Every operation -/

/-- What an operation answers behind a history. -/
def answer (history : History α count) (operation : Operation α) : Except NameFault (Answer α) :=
  (operation.run history.scopes).1

/-- The scopes behind a history and one more operation. -/
def after (history : History α count) (operation : Operation α) : Scopes α :=
  (operation.run history.scopes).2

/-- All answers to operations on a name in a scope go by the nearest scope that defines it. -/
structure AnswersByNearest (history : History α count) (scope : ScopeId) (name : String) :
    Prop where
  /-- A name has the value of the latest act on its binding in the nearest scope. -/
  get : ∀ found, history.answer (.ask .get scope name) = .ok found ↔
    ∃ owner value, history.Nearest scope name owner ∧ history.Latest owner name value ∧
      found = .value value
  get_fails : ∀ fault, history.answer (.ask .get scope name) = .error fault ↔
    fault = .undefined name ∧ ¬ ∃ owner, history.Nearest scope name owner
  resolve : ∀ found, history.answer (.ask .resolve scope name) = .ok found ↔
    ∃ owner value constant, history.Nearest scope name owner ∧ history.Latest owner name value ∧
      history.flag? owner name = some constant ∧ found = .binding ⟨value, constant⟩
  resolve_fails : ∀ fault, history.answer (.ask .resolve scope name) = .error fault ↔
    fault = .undefined name ∧ ¬ ∃ owner, history.Nearest scope name owner
  hasLocal : history.answer (.ask .hasLocal scope name) =
    .ok (.truth (history.flag? scope name).isSome)
  define : ∀ value constant, history.answer (.define scope name value constant) = .ok .done
  assign : ∀ value found, history.answer (.assign scope name value) = .ok found ↔
    found = .done ∧
      ∃ owner, history.Nearest scope name owner ∧ history.flag? owner name = some false
  /-- Only a name that nothing defines, or whose latest definition in the nearest scope was a
  constant one, cannot be assigned to. -/
  assign_fails : ∀ value fault, history.answer (.assign scope name value) = .error fault ↔
    (fault = .undefined name ∧ ¬ ∃ owner, history.Nearest scope name owner) ∨
    fault = .constant name ∧
      ∃ owner, history.Nearest scope name owner ∧ history.flag? owner name = some true

/-- An operation changes the binding that it acts on and nothing else. -/
structure ChangesByActing (history : History α count) (operation : Operation α) : Prop where
  /-- A failed operation changes nothing. -/
  failed : ∀ fault, history.answer operation = .error fault →
    history.after operation = history.scopes
  /-- A definition binds the name in its own scope. -/
  define : ∀ scope name value constant, operation = .define scope name value constant →
    (history.after operation).local? scope name = some ⟨value, constant⟩
  /-- An assignment changes the value of the binding it acts on and keeps its flag. -/
  assign : ∀ scope name value owner, operation = .assign scope name value →
    history.Acts operation owner name value →
    ∃ old constant, history.scopes.local? owner name = some ⟨old, constant⟩ ∧
      (history.after operation).local? owner name = some ⟨value, constant⟩
  /-- A new scope lies in the one it was made in and binds nothing. -/
  child : ∀ scope, operation = .child scope → history.answer operation = .ok (.created count) ∧
    (history.after operation).parent? count = some (some scope) ∧
    ∀ name, (history.after operation).local? count name = none
  /-- Bindings that are not acted on stay as they are. -/
  bindings : ∀ scope name, (∀ value, ¬ history.Acts operation scope name value) →
    (history.after operation).local? scope name = history.scopes.local? scope name
  parents : ∀ scope < count,
    (history.after operation).parent? scope = history.scopes.parent? scope
  /-- From a scope that neither is acted on nor lies in one that is, all names look as before. -/
  unseen : ∀ scope < count,
    (∀ owner name value, history.Acts operation owner name value →
      ¬ history.Within scope owner) →
    ∀ name, (history.after operation).resolve scope name = history.scopes.resolve scope name

section

variable (history : History α count)

/-- All that is asked of a name is answered by its nearest scope. -/
theorem answersByNearest {scope : ScopeId} (inside : scope < count) (name : String) :
    history.AnswersByNearest scope name where
  get found := by
    show Except.map _ (history.scopes.resolve scope name) = _ ↔ _
    rw [map_eq_ok_iff]
    constructor
    · rintro ⟨binding, resolved, rfl⟩
      obtain ⟨owner, nearest, latest, -⟩ := (resolve_eq_ok_iff inside).mp resolved
      exact ⟨owner, _, nearest, latest, rfl⟩
    · rintro ⟨owner, value, nearest, latest, rfl⟩
      obtain ⟨constant, flag⟩ := Option.isSome_iff_exists.mp nearest.defines
      exact ⟨⟨value, constant⟩, (resolve_eq_ok_iff inside).mpr ⟨owner, nearest, latest, flag⟩, rfl⟩
  get_fails fault := by
    show Except.map _ (history.scopes.resolve scope name) = _ ↔ _
    rw [map_eq_error_iff, resolve_eq_error_iff inside]
  resolve found := by
    show Except.map _ (history.scopes.resolve scope name) = _ ↔ _
    rw [map_eq_ok_iff]
    constructor
    · rintro ⟨⟨value, constant⟩, resolved, rfl⟩
      obtain ⟨owner, nearest, latest, flag⟩ := (resolve_eq_ok_iff inside).mp resolved
      exact ⟨owner, value, constant, nearest, latest, flag, rfl⟩
    · rintro ⟨owner, value, constant, nearest, latest, flag, rfl⟩
      exact ⟨⟨value, constant⟩, (resolve_eq_ok_iff inside).mpr ⟨owner, nearest, latest, flag⟩, rfl⟩
  resolve_fails fault := by
    show Except.map _ (history.scopes.resolve scope name) = _ ↔ _
    rw [map_eq_error_iff, resolve_eq_error_iff inside]
  hasLocal := by
    rw [isSome_flag?]
    rfl
  define value constant := rfl
  assign value found := by
    simp only [← assignee_eq_ok_iff inside]
    unfold answer
    rw [run_assign]
    cases history.scopes.assignee scope name with
    | ok owner =>
      exact ⟨fun same => ⟨(Except.ok.inj same).symm, owner, rfl⟩, fun ⟨same, _⟩ => same ▸ rfl⟩
    | error fault => exact ⟨nofun, nofun⟩
  assign_fails value fault := by
    rw [← assignee_eq_error_iff inside]
    unfold answer
    rw [run_assign]
    cases history.scopes.assignee scope name with
    | ok owner => exact ⟨nofun, nofun⟩
    | error fault => exact ⟨fun same => by cases same; rfl, fun same => by cases same; rfl⟩

/-- An operation that fails changes nothing. -/
theorem after_of_error {operation : Operation α} {fault : NameFault}
    (failed : history.answer operation = .error fault) :
    history.after operation = history.scopes := by
  unfold answer at failed
  unfold after
  cases operation with
  | child scope => cases failed
  | define scope name value constant => cases failed
  | assign scope name value =>
    rw [run_assign] at failed ⊢
    cases found : history.scopes.assignee scope name with
    | ok owner =>
      rw [found] at failed
      cases failed
    | error fault => rfl
  | ask question scope name => rfl

/-- An operation changes the bindings that it acts on, and no others. -/
theorem changesByActing {operation : Operation α} (inside : operation.scope < count) :
    history.ChangesByActing operation where
  failed fault := history.after_of_error
  define := by
    rintro scope name value constant rfl
    exact local?_define_self (by rwa [size_scopes])
  assign := by
    rintro scope name value owner rfl acts
    cases acts with
    | assign nearest free =>
      have found := (assignee_eq_ok_iff inside).mpr ⟨nearest, free⟩
      obtain ⟨old, bound⟩ := local?_of_assignee found
      refine ⟨old, false, bound, ?_⟩
      have changed : history.after (.assign scope name value) =
          history.scopes.define owner name value false := by
        unfold after
        rw [run_assign, show history.scopes.assignee scope name = .ok owner from found]
      rw [changed]
      exact local?_define_self (lt_of_local? bound)
  child := by
    rintro scope rfl
    have size := history.size_scopes
    have made : (history.scopes.child scope).parent? history.scopes.size = some (some scope) :=
      parent?_child_self
    refine ⟨?_, ?_, fun name => ?_⟩
    · show Except.ok (Answer.created history.scopes.size) = _
      rw [size]
    · rwa [size] at made
    · have empty : (history.scopes.child scope).local? history.scopes.size name = none :=
        local?_child_self
      rwa [size] at empty
  bindings scope name := local?_of_not_acts inside
  parents scope old := parent?_run _ _ (by rwa [size_scopes])
  unseen scope there unrelated name := resolve_run inside there unrelated

end

end History

/-- Scopes give every name its nearest definition, after any history of operations on scopes that
have grown from one root. No scope lies in itself, and the walk outward ends at the root. What is
asked about a name, and whether it can be assigned to, goes by the innermost scope around that
defines it, by the latest act on its binding there and by the flag of its latest definition there.
An operation changes the binding that it acts on and nothing else, and it is noticed in that scope
and in those within it only. -/
theorem lookup_finds_nearest_definition {count : Nat} (history : History α count) :
    (∀ name, (NameFault.undefined name).message = "Undefined variable: " ++ name ∧
      (NameFault.constant name).message = "Cannot assign to constant variable: " ++ name) ∧
    (∀ scope, ¬ Relation.TransGen history.LiesIn scope scope) ∧
    (∀ scope < count, history.Within scope 0 ∧
      history.scopes.parent? scope = some (history.parent? scope)) ∧
    (∀ scope < count, ∀ name, history.AnswersByNearest scope name) ∧
    ∀ operation : Operation α, operation.scope < count → history.ChangesByActing operation :=
  ⟨fun _ => ⟨rfl, rfl⟩,
    history.not_transGen_liesIn,
    fun _ inside => ⟨history.within_root inside, history.parent?_scopes inside⟩,
    fun _ inside name => history.answersByNearest inside name,
    fun _ inside => history.changesByActing inside⟩

/-- A constant `x` in the root; then two scopes, one in the other, and an `x` in the middle one,
which an assignment from the inner one reaches. -/
def shadowed : History Nat 3 :=
  .next (.next (.next (.next (.next .root (.define 0 "x" 1 true) (by decide)) (.child 0)
    (by decide))
    (.child 1) (by decide)) (.define 1 "x" 2 false) (by decide)) (.assign 2 "x" 5) (by decide)

/-- The inner scope sees the assigned value, the root its own constant, which cannot be assigned to;
and a further assignment from the inner scope is not noticed in the root. -/
theorem shadowed_lookup :
    shadowed.answer (.ask .get 2 "x") = .ok (.value 5) ∧
    (∃ owner, shadowed.Nearest 2 "x" owner ∧ shadowed.Latest owner "x" 5) ∧
    shadowed.answer (.assign 0 "x" 7) = .error (.constant "x") ∧
    (shadowed.after (.assign 2 "x" 9)).resolve 0 "x" = .ok ⟨1, true⟩ := by
  obtain ⟨-, -, -, answers, changes⟩ := lookup_finds_nearest_definition shadowed
  have middle : shadowed.Nearest 2 "x" 1 :=
    (History.owner?_eq_some_iff (by decide)).mp (by decide +kernel)
  have assigned : shadowed.scopes.local? 1 "x" = some ⟨5, false⟩ := by decide +kernel
  have latest := (History.local?_eq_some_iff.mp assigned).1
  have root : shadowed.Nearest 0 "x" 0 := History.nearest_self rfl
  have defined : shadowed.scopes.local? 0 "x" = some ⟨1, true⟩ := by decide +kernel
  refine ⟨((answers 2 (by decide) "x").get _).mpr ⟨1, 5, middle, latest, rfl⟩,
    ⟨1, middle, latest⟩, ((answers 0 (by decide) "x").assign_fails 7 _).mpr
      (.inr ⟨rfl, 0, root, rfl⟩), ?_⟩
  rw [(changes (.assign 2 "x" 9) (by decide)).unseen 0 (by decide) ?_]
  · exact (History.resolve_eq_ok_iff (by decide)).mpr
      ⟨0, root, History.local?_eq_some_iff.mp defined⟩
  · intro owner name value acts within
    cases acts with
    | assign nearest _ =>
      cases middle.unique nearest
      exact absurd within.le (by decide)

end Script.Scopes
