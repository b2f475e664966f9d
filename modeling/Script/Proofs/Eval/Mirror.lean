import Script.Proofs.Eval.Rewriting

/-!
# What running does not see

Running does not depend on where the text of a procedure stands, nor on what was printed before. A
`Mirror` moves the procedures of a store and puts lines before its output, and a computation goes in
the other store as it does in the first: the same result or fault, and then the other store of the
store there was.

* `Mirror.stepwise`: each step of a program at other positions goes as that of the program.
* `Mirror.outcome_eq`: so what comes of a run in the other store is what comes of it in the first.
-/

namespace Script

/-- A procedure without positions. -/
def Procedure.erase (procedure : Procedure) : Procedure :=
  { procedure with body := eraseBlock procedure.body }

/-- A function without positions. -/
def Callable.erase : Callable → Callable
  | .procedure target => .procedure target.erase
  | .builtin name action => .builtin name action

theorem Callable.erase_relocate (shift : Position → Position) (callable : Callable) :
    (callable.relocate shift).erase = callable.erase := by
  cases callable with
  | procedure target =>
    unfold Callable.relocate Callable.erase Procedure.relocate Procedure.erase
    simp only [eraseBlock_relocate]
  | builtin name action => rfl

/-- Other positions for procedures, and lines that were printed before. -/
structure Mirror where
  shift : Position → Position
  printed : Array String

namespace Mirror

variable (mirror : Mirror)

/-- The other store. -/
def store (store : Store) : Store :=
  { store with
    functions := store.functions.map (Callable.relocate mirror.shift)
    output := mirror.printed ++ store.output }

/-- The other result, which is the same but for the store. -/
def outcome {α : Type} : EStateM.Result Fault Store α → EStateM.Result Fault Store α
  | .ok value after => .ok value (mirror.store after)
  | .error fault after => .error fault (mirror.store after)

/-! ## Steps -/

/-- The store of the one run and the other store of the other. -/
def comparison : Comparison Unit :=
  .ofStores (fun store other => other = mirror.store store) fun _ => False

theorem scopes_store (store : Store) : (mirror.store store).scopes = store.scopes := rfl

theorem sameContents_store (store : Store) : store.SameContents (mirror.store store) where
  arrays := rfl
  objects := rfl
  texts := by
    intro id
    show (mirror.store store).functionText id = store.functionText id
    simp only [Store.functionText, Mirror.store, Array.getElem?_map]
    cases store.functions[id]? with
    | none => rfl
    | some function => cases function <;> rfl

open Run

/-- What does not see the difference goes in the other store as it does in the store. -/
theorem compares_of_outcome {α : Type} {run other : Run α}
    (outcome : ∀ store, other (mirror.store store) = mirror.outcome (run store)) :
    Compares mirror.comparison () same run other := by
  rintro store _ rfl
  rw [outcome]
  cases run store with
  | ok value after => exact .ok (mirror.comparison.refl ()) rfl rfl
  | error fault after => exact .error ⟨rfl, rfl⟩

/-- Every step at other positions goes as it does in the first run. -/
theorem stepwise : mirror.comparison.Stepwise { shift := mirror.shift } where
  contents := by
    rintro _ store _ rfl
    exact mirror.sameContents_store store
  arrays := by
    rintro _ store _ rfl arrays
    rfl
  objects := by
    rintro _ store _ rfl objects
    rfl
  -- a line is printed behind those that were printed before
  prints := by
    rintro _ store _ rfl line
    simp [comparison, Comparison.ofStores, Mirror.store]
  functions := by
    rintro _ store _ rfl id
    simp only [Mirror.store, Array.getElem?_map]
    cases store.functions[id]? with
    | none => exact .none
    | some function => exact .some (Rewriting.callable_shift _ function).symm
  later _ related := related
  builtins _ _ _ := rfl
  newFunction := by
    rintro _ function _ rfl
    rw [Rewriting.callable_shift]
    refine compares_modifyGet ?_
    rintro store _ rfl
    constructor
    · exact congrArg Value.function Array.size_map
    · simp [comparison, Comparison.ofStores, Mirror.store]
  lookup _ scope name := by
    refine compares_get_bind ?_
    rintro store _ rfl
    rw [mirror.scopes_store]
    cases store.scopes.resolve scope name with
    | ok binding => exact compares_pure rfl
    | error fault => exact compares_throw _
  define _ scope name value constant := mirror.compares_of_outcome fun _ => rfl
  declare _ scope name value constant := mirror.compares_of_outcome fun _ => rfl
  assign _ scope name value := by
    refine compares_get_bind ?_
    rintro store _ rfl
    rw [mirror.scopes_store]
    cases store.scopes.assignee scope name with
    | ok owner => exact mirror.compares_of_outcome fun _ => rfl
    | error fault => exact compares_throw _
  openScope _ scope := mirror.compares_of_outcome fun _ => rfl

/-- What comes of a computation in the other store is the other outcome. -/
theorem outcome_eq {α : Type} {run other : Run α}
    (compares : Compares mirror.comparison () same run other) (store : Store) :
    other (mirror.store store) = mirror.outcome (run store) := by
  have ends := compares store _ rfl
  generalize run store = result at ends ⊢
  generalize other (mirror.store store) = result' at ends ⊢
  cases ends with
  | ok _ values stores =>
    cases values
    cases stores
    rfl
  | error fails =>
    obtain ⟨rfl, rfl⟩ := fails
    rfl
  | excused excuses => exact excuses.elim

end Mirror

end Script
