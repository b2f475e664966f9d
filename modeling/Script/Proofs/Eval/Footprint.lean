import Script.Proofs.Eval.Confinement
import Script.Proofs.Eval.Scoping

/-!
# What running touches

A statement or an expression that runs in a scope works on what can be reached from that scope: the
scopes around it, what its names are bound to, and so on through arrays, objects, the scopes that
procedures were declared in and the arrays of methods. Calls jump to other scopes and assignments
rewire the store on the way, but they can use only what could be reached, and what is new.

* `running_touches_only_reachable`: however a run ends, all else is as it was.
-/

namespace Script

open Run Bounds

/-- The value that a signal carries. -/
def Signal.value? : Signal → Option Value
  | .normal value => some value
  | .returned value => some value
  | .broke => none
  | .continued => none

/-- What a computation gives, unless it fails. -/
def Run.result? {α : Type} (run : Run α) (store : Store) : Option α :=
  match run store with
  | .ok value _ => some value
  | .error _ _ => none

/-- Of two stores, the second comes of a run that starts at a node of the first and gives a value,
or none. The run has changed nothing but what it could reach and what is new. -/
structure Store.Confined (start : Node) (before after : Store) (result : Option Value) : Prop where
  /-- What could not be reached is as it was. -/
  unchanged : ∀ node, before.Has node → ¬ before.Reaches start node → before.Same after node
  /-- What can be reached could be reached before, or is new. -/
  reached : ∀ node, (after.Reaches start node ∨ ∃ value reference, result = some value ∧
      value.node? = some reference ∧ after.Reaches reference node) →
    before.Reaches start node ∨ (¬ before.Has node ∧ after.Has node)
  /-- The variables around a procedure that only it leads to are as they were, if the procedure
  could not be reached. -/
  secret : ∀ {function procedure}, before.functions[function]? = some (.procedure procedure) →
    before.Has (.scope procedure.scope) →
    (before.Reaches start (.scope procedure.scope) → before.Reaches start (.function function)) →
    ¬ before.Reaches start (.function function) →
    ∀ name, after.scopes.local? procedure.scope name = before.scopes.local? procedure.scope name

variable {store after : Store} {start node : Node}

/-! ## Reachable nodes as bounds -/

/-- Use what can be reached from a node; any fault may occur. -/
def Bounds.reachable (store : Store) (start : Node) : Bounds where
  origin := store
  base := store.Reaches start
  allowed := fun _ => True
  ordinary := fun _ _ => trivial
  callable := .inl trivial

theorem Bounds.held_reachable (store : Store) (start : Node) :
    (reachable store start).Held store where
  grown := .refl store
  closed := by
    rintro node other (reaches | ⟨isNew, has⟩) leads
    · exact .inl (reaches.tail leads)
    · exact absurd has isNew
  frame := fun node _ _ => .refl store node
  blameless := fun _ _ _ _ => trivial

/-- Nothing leads out of the bounds, in however many steps. -/
theorem Bounds.Held.reaches {bounds : Bounds} (held : bounds.Held after)
    (within : bounds.Within after start) (reaches : after.Reaches start node) :
    bounds.Within after node := by
  induction reaches with
  | refl => exact within
  | tail _ leads ih => exact held.closed ih leads

/-- A store that keeps the bounds comes of a run that touched nothing else. -/
theorem Store.confined_of_held (held : (reachable store start).Held after) {result : Option Value}
    (knows : ∀ value, result = some value → (reachable store start).Knows after value) :
    store.Confined start after result := by
  have unchanged : ∀ node, store.Has node → ¬ store.Reaches start node → store.Same after node :=
    held.frame
  refine ⟨unchanged, ?_, ?_⟩
  · rintro node (fromStart | ⟨value, reference, given, refers, fromValue⟩)
    · exact held.reaches (.inl .refl) fromStart
    · exact held.reaches (knows value given reference refers) fromValue
  · intro function procedure _ has through hidden name
    have same : after.scopes[procedure.scope]? = store.scopes[procedure.scope]? :=
      unchanged (.scope procedure.scope) has fun reaches => hidden (through reaches)
    unfold Scopes.local?
    rw [same]

/-- A computation that keeps the bounds is confined to them, whether it gives a result or fails. -/
theorem Run.confined_of_upholds {α : Type} {run : Run α} {wanted : Store → α → Prop}
    (upholds : Upholds (reachable store start) store wanted run) (value? : α → Option Value)
    (knows : ∀ after result value, wanted after result → value? result = some value →
      (reachable store start).Knows after value) :
    store.Confined start (run.final store) ((run.result? store).bind value?) := by
  have ends := upholds store (.refl store) (held_reachable store start)
  unfold Run.final Run.result?
  cases ran : run store with
  | ok result after =>
    rw [ran] at ends
    obtain ⟨held, _, holds⟩ := ends
    exact Store.confined_of_held held fun value given => knows after result value holds given
  | error fault after =>
    rw [ran] at ends
    refine Store.confined_of_held ends.1 ?_
    intro value given
    cases given

/-! ## The main result -/

/-- From every store and in every scope, statements and expressions touch only what can be reached
from the scope, and lead to nothing else but what is new. -/
theorem running_touches_only_reachable (limits : Limits) (scope : ScopeId) (store : Store) :
    (∀ s : Stmt,
      let run := s.exec (invoke limits.rounds limits.depth) limits.rounds scope
      store.Confined (.scope scope) (run.final store) ((run.result? store).bind Signal.value?)) ∧
    (∀ e : Expr,
      let run := e.eval (invoke limits.rounds limits.depth) scope
      store.Confined (.scope scope) (run.final store) (run.result? store)) := by
  have calls : CallsUphold (reachable store (.scope scope)) (invoke limits.rounds limits.depth) :=
    invoke_upholds limits.rounds limits.depth
  have within : (reachable store (.scope scope)).Within store (.scope scope) := .inl .refl
  refine ⟨?_, ?_⟩
  · intro s
    refine Run.confined_of_upholds
      (s.exec_upholds calls limits.rounds (fun _ _ => trivial) within) Signal.value? ?_
    intro after signal value fits carries
    cases signal with
    | normal known =>
      cases carries
      exact fits
    | returned known =>
      cases carries
      exact fits.1
    | broke => cases carries
    | continued => cases carries
  · intro e
    have confined := Run.confined_of_upholds (e.eval_upholds calls (fun _ _ => trivial) within)
      some fun after known value knows given => by
        cases given
        exact knows
    rwa [Option.bind_fun_some] at confined

end Script
