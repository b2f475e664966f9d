import Script.Proofs.Eval.Scoping
import Script.Proofs.Session.Faults

/-!
# Nothing leads astray

If every reference in a store leads to something that exists, then so it is in every store that
running any statements leads to, whether they were compiled or not. The bounds of such a run are
what exists at its beginning (`Bounds.present`); any fault may occur.

* `Store.whole_execBlock`: a block leaves no reference to what does not exist.
-/

namespace Script

open Run Bounds

variable {origin world store : Store}

/-- Everything that exists may be used, and any fault may occur. -/
def Bounds.present (store : Store) : Bounds where
  origin := store
  base := store.Has
  allowed := fun _ => True
  ordinary := fun _ _ => trivial
  callable := .inl trivial

theorem Store.Whole.held (whole : store.Whole) : (present store).Held store where
  grown := .refl store
  closed := fun _ leads => .inl (whole _ _ leads)
  -- nothing that exists is out of bounds, so there is no frame to keep
  frame := fun _ has missing => absurd has missing
  blameless := fun _ _ _ _ => trivial

namespace Bounds

/-- What may be used exists. -/
theorem has_of_within {node : Node} (held : (present origin).Held store)
    (within : (present origin).Within world node) (grows : world.Grows store) : store.Has node := by
  rcases within with old | ⟨_, has⟩
  · exact held.grown.has old
  · exact grows.has has

/-- What exists may be used. -/
theorem within_of_has {node : Node} (has : store.Has node) :
    (present origin).Within store node := by
  by_cases old : origin.Has node
  · exact .inl old
  · exact .inr ⟨old, has⟩

theorem Held.whole (held : (present origin).Held store) : store.Whole := by
  intro node other leads
  exact has_of_within held (held.closed (within_of_has leads.has) leads) (.refl store)

end Bounds

/-- What keeps the bounds ends within them, by a result or by a fault. -/
theorem Run.held_final {α : Type} {bounds : Bounds} {wanted : Store → α → Prop} {run : Run α}
    (upholds : Upholds bounds store wanted run) (held : bounds.Held store) :
    bounds.Held (run.final store) := by
  have ends := upholds store (.refl store) held
  unfold final
  cases ran : run store with
  | ok value after =>
    rw [ran] at ends
    exact ends.1
  | error fault after =>
    rw [ran] at ends
    exact ends.1

/-- Statements leave no reference to what does not exist, however they end. -/
theorem Store.whole_execBlock (whole : store.Whole) {scope : ScopeId}
    (has : store.Has (.scope scope)) (rounds depth : Nat) (body : List Stmt) :
    ((execBlock (invoke rounds depth) rounds scope .zero body).final store).Whole := by
  have knows : (present store).Knows store .zero := knows_of_none rfl
  have upholds := execBlock_upholds (invoke_upholds rounds depth) rounds body knows
    (fun _ _ => trivial) (.inl has)
  exact (held_final upholds whole.held).whole

end Script
