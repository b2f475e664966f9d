import Mathlib
import Script.Proofs.Eval.Scoping

/-!
# Loops through arrays

A loop through an array is a list of *visits*, one for each round: the store in which the round
starts, and the element that it finds there. `Through.Runs` says which visits a loop makes and how
it ends, for an array that may change on the way: each round is for the element at its index as the
array then is, and the loop ends where no such element is left, or with the first round that does
not pass.

* `Through.exists_runs`: every loop runs so, by induction on the rounds that it may still make, and
  `Through.Runs.unique`: in one way only.
* `Through.Runs.visitsInOrder`: an array that no round changes is visited from its first to its last
  element.
* `Through.Runs.keepsApart`: what is assigned to the variable of one round is not seen from the
  scope of another one.
* `through_visits_each_element`: all of it, for a statement.
-/

namespace Script

open Run

/-! ## Scopes that lie in others -/

namespace Scopes

variable {α : Type} {scopes : Scopes α} {inner outer scope first second : ScopeId} {n : String}

/-- The walk outward goes from a scope to another one. -/
def Outward (scopes : Scopes α) (inner outer : ScopeId) : Prop :=
  scopes.parent? inner = some (some outer) ∧ outer < inner

/-- A scope is another one or lies in it, at any depth. -/
def Within (scopes : Scopes α) : ScopeId → ScopeId → Prop := Relation.ReflTransGen scopes.Outward

theorem Within.le (within : scopes.Within inner outer) : outer ≤ inner := by
  induction within with
  | refl => exact Nat.le_refl _
  | tail _ step ih => exact Nat.le_trans (Nat.le_of_lt step.2) ih

/-- From one scope the walk outward has one way only. -/
theorem Within.total (one : scopes.Within scope first) (other : scopes.Within scope second) :
    scopes.Within first second ∨ scopes.Within second first := by
  refine Relation.ReflTransGen.total_of_right_unique ?_ one other
  intro place next another step anotherStep
  cases step.1.symm.trans anotherStep.1
  rfl

/-- No scope lies in two scopes that are made in the same one. -/
theorem not_within_both (firstLies : scopes.Outward first outer)
    (secondLies : scopes.Outward second outer) (different : first ≠ second)
    (within : scopes.Within scope first) : ¬ scopes.Within scope second := by
  -- one of the two would lie in the other, so the scope around both would too
  have skip : ∀ {one other}, scopes.Outward one outer → scopes.Outward other outer →
      one ≠ other → ¬ scopes.Within one other := by
    intro one other lies otherLies apart nested
    rcases nested.cases_head with same | ⟨next, step, rest⟩
    · exact apart same
    · cases step.1.symm.trans lies.1
      exact absurd (Within.le rest) (Nat.not_le.mpr otherLies.2)
  intro both
  rcases within.total both with nested | nested
  · exact skip firstLies secondLies different nested
  · exact skip secondLies firstLies different.symm nested

/-- A binding is not seen from scopes that do not lie in its scope. -/
theorem owner?_define_of_not_within {name : String} {value : α} {constant : Bool}
    (apart : ¬ scopes.Within scope outer) :
    (scopes.define outer name value constant).owner? scope n = scopes.owner? scope n := by
  induction scope using Nat.strongRecOn with
  | ind scope ih =>
    have elsewhere : scope ≠ outer := by
      rintro rfl
      exact apart .refl
    rw [owner?_eq, owner?_eq scopes, parent?_define,
      local?_define_of_ne fun both => elsewhere both.1]
    cases lies : scopes.parent? scope with
    | none => rfl
    | some found =>
      cases found with
      | none => rfl
      | some next =>
        by_cases less : next < scope
        · have rest := ih next less fun within => apart (.head ⟨lies, less⟩ within)
          simp only [if_pos less, rest]
        · simp only [if_neg less]

theorem within_of_owner? {owner : ScopeId} (found : scopes.owner? scope n = some owner) :
    scopes.Within scope owner := by
  induction scope using Nat.strongRecOn with
  | ind scope ih =>
    rw [owner?_eq] at found
    split at found
    · cases found
      exact .refl
    · split at found
      · rename_i next lies
        split at found
        · rename_i less
          exact .head ⟨lies, less⟩ (ih next less found)
        · cases found
      · cases found

/-- A definition changes no name as seen from scopes that do not lie in its own. -/
theorem resolve_define_of_not_within {name : String} {value : α} {constant : Bool}
    (apart : ¬ scopes.Within scope outer) :
    (scopes.define outer name value constant).resolve scope n = scopes.resolve scope n := by
  unfold resolve
  rw [owner?_define_of_not_within apart]
  cases found : scopes.owner? scope n with
  | none => rfl
  | some owner =>
    have elsewhere : owner ≠ outer := by
      rintro rfl
      exact apart (within_of_owner? found)
    simp only [Option.bind_some]
    rw [local?_define_of_ne fun both => elsewhere both.1]

end Scopes

/-! ## Rounds -/

/-- Whether a loop goes on behind a round that ends so. -/
def Signal.passes : Signal → Bool
  | .normal _ | .continued => true
  | .broke | .returned _ => false

/-- How a computation of a signal ends. -/
abbrev Outcome := EStateM.Result Fault Store Signal

/-- The store in which a computation ends. -/
def Outcome.store : Outcome → Store
  | .ok _ store | .error _ store => store

/-- One round of a loop: the store in which it starts, and the element that it is for. -/
structure Visit where
  before : Store
  element : Value

/-- The scope of a round is the next one to be made. -/
def Visit.scope (visit : Visit) : ScopeId := visit.before.scopes.size

/-- A loop through an array: the scope that it stands in, the name that it declares, and its
body. -/
structure Through where
  limits : Limits
  scope : ScopeId
  name : String
  constant : Bool
  body : List Stmt

namespace Through

variable (loop : Through) (array : ArrayId)

/-- The store in which the body of a round starts: there is one more scope. -/
def entered (visit : Visit) : Store :=
  { visit.before with
    scopes := (visit.before.scopes.child loop.scope).define visit.scope loop.name visit.element
      loop.constant }

/-- The body, in the scope of a round. -/
def round (visit : Visit) : Run Signal :=
  execBlock (invoke loop.limits.rounds loop.limits.depth) loop.limits.rounds visit.scope .zero
    loop.body

/-- How a round ends. -/
def outcome (visit : Visit) : Outcome := loop.round visit (loop.entered visit)

/-- The store in which a round ends, by a signal or by a fault. -/
def after (visit : Visit) : Store := (loop.round visit).final (loop.entered visit)

/-- The loop goes on behind a round. -/
def Passes (visit : Visit) : Prop :=
  ∃ signal, signal.passes = true ∧ loop.outcome visit = .ok signal (loop.after visit)

/-- How a loop ends with a round that does not pass. -/
inductive Stops : Outcome → Outcome → Prop
  | broke {after} : Stops (.ok .broke after) (.ok (.normal .zero) after)
  | returned {value after} : Stops (.ok (.returned value) after) (.ok (.returned value) after)
  | failed {fault after} : Stops (.error fault after) (.error fault after)

/-- The rounds of a loop from an index on, and how it ends. Each round is for the element at its
index, as the array is when the round starts. -/
inductive Runs : Nat → Store → List Visit → Outcome → Prop
  /-- No element is left. -/
  | exhausted {index store} : index < loop.limits.rounds → (store.elements array).size ≤ index →
      Runs index store [] (.ok (.normal .zero) store)
  | stops {index store element result} : index < loop.limits.rounds →
      (store.elements array)[index]? = some element → Stops (loop.outcome ⟨store, element⟩) result →
      Runs index store [⟨store, element⟩] result
  | passes {index store element visits result} : index < loop.limits.rounds →
      (store.elements array)[index]? = some element → loop.Passes ⟨store, element⟩ →
      Runs (index + 1) (loop.after ⟨store, element⟩) visits result →
      Runs index store (⟨store, element⟩ :: visits) result
  /-- The loop has made as many rounds as it may. -/
  | bounded {store} : Runs loop.limits.rounds store [] (.error .loopRounds store)

/-- The scope of a round is new, lies in that of the loop, and binds the name of the loop only. -/
structure Opens (visit : Visit) : Prop where
  parent : (loop.entered visit).scopes.parent? visit.scope = some (some loop.scope)
  binds : ∀ n, (loop.entered visit).scopes.local? visit.scope n =
    if n = loop.name then some ⟨visit.element, loop.constant⟩ else none
  isNew : visit.before.scopes[visit.scope]? = none
  others : ∀ scope, scope ≠ visit.scope →
    (loop.entered visit).scopes[scope]? = visit.before.scopes[scope]?
  rest : { loop.entered visit with scopes := visit.before.scopes } = visit.before

/-- No round changes the array. -/
def Steady (visits : List Visit) : Prop :=
  ∀ visit ∈ visits, (loop.after visit).elements array = visit.before.elements array

/-- The values of a list are visited in order: all of them, or up to the first round that does not
pass. -/
inductive VisitsInOrder (values : List Value) (first : Store) (visits : List Visit) :
    Outcome → Prop
  | all : visits.map (·.element) = values → (∀ visit ∈ visits, loop.Passes visit) →
      VisitsInOrder values first visits
        (.ok (.normal .zero) ((visits.getLast?.map loop.after).getD first))
  | some {passed last result} : visits = passed ++ [last] →
      visits.map (·.element) <+: values → (∀ visit ∈ passed, loop.Passes visit) →
      Stops (loop.outcome last) result → VisitsInOrder values first visits result

/-- The rounds have scopes of their own, which stay where they are, and an assignment to the
variable of one round leaves all arrays as they are, and all that is seen from the scope of another
round or from scopes in it. -/
structure KeepsApart (visits : List Visit) (final : Store) : Prop where
  ordered : visits.Pairwise fun visit other => visit.scope < other.scope
  during : visits.Pairwise fun visit other =>
    (loop.entered other).scopes.parent? visit.scope = some (some loop.scope)
  atEnd : ∀ visit ∈ visits, final.scopes.parent? visit.scope = some (some loop.scope)
  apart : ∀ visit ∈ visits, ∀ other ∈ visits, visit.scope ≠ other.scope →
    ∀ later : Store, later.scopes.parent? visit.scope = some (some loop.scope) →
    later.scopes.parent? other.scope = some (some loop.scope) →
    ∀ place value, later.scopes.assignee place loop.name = .ok visit.scope →
    ∃ changed, Run.assign place loop.name value later = .ok () changed ∧
      { changed with scopes := later.scopes } = later ∧
      ∀ seen n, later.scopes.Within seen other.scope →
        changed.scopes.resolve seen n = later.scopes.resolve seen n

variable {loop array} {index : Nat} {store : Store} {visits : List Visit} {result : Outcome}

/-! ## One round -/

theorem opens (visit : Visit) : loop.Opens visit where
  parent := by
    unfold entered
    simp only [Scopes.parent?_define]
    exact Scopes.parent?_child_self
  binds := by
    intro n
    have inside : visit.scope < (visit.before.scopes.child loop.scope).size := by
      rw [Scopes.size_child]
      exact Nat.lt_succ_self _
    unfold entered
    by_cases same : n = loop.name
    · rw [if_pos same, same]
      exact Scopes.local?_define_self inside
    · rw [if_neg same]
      simp only
      rw [Scopes.local?_define_of_ne fun both => same both.2]
      exact Scopes.local?_child_self
  isNew := Array.getElem?_eq_none (Nat.le_refl _)
  others := by
    intro scope different
    unfold entered
    simp only
    rw [Scopes.getElem?_define, if_neg different.symm]
    unfold Scopes.child
    rw [Array.getElem?_push]
    exact if_neg different
  rest := rfl

theorem after_of_ok {visit : Visit} {signal : Signal} {store : Store}
    (ended : loop.outcome visit = .ok signal store) : loop.after visit = store :=
  final_of_ok ended

theorem store_outcome (visit : Visit) : (loop.outcome visit).store = loop.after visit := by
  cases ended : loop.outcome visit with
  | ok signal store => exact (final_of_ok ended).symm
  | error fault store => exact (final_of_error ended).symm

theorem Stops.unique {outcome other : Outcome} (stopped : Stops outcome result)
    (otherwise : Stops outcome other) : result = other := by
  cases stopped <;> cases otherwise <;> rfl

theorem Stops.store_eq {outcome : Outcome} (stopped : Stops outcome result) :
    result.store = outcome.store := by
  cases stopped <;> rfl

/-- The scopes that there are stay where they are, in a round and behind it. -/
theorem keeps_entered (visit : Visit) :
    Scopes.Keeps (fun _ _ => True) visit.before.scopes (loop.entered visit).scopes := by
  unfold entered
  exact
    { size := by
        rw [Scopes.size_define, Scopes.size_child]
        exact Nat.le_succ _
      parent := by
        intro scope old
        rw [Scopes.parent?_define]
        exact Scopes.parent?_child_of_lt old
      binding := fun _ _ _ free => absurd trivial free }

theorem keeps_round (visit : Visit) :
    Scopes.Keeps (fun _ _ => True) (loop.entered visit).scopes (loop.after visit).scopes :=
  (execBlock_keeps (invoke_keeps loop.limits.rounds loop.limits.depth) loop.limits.rounds
    visit.scope .zero loop.body (loop.entered visit)).1.weaken fun _ _ _ => trivial

/-- The scope of a round is there when its body starts, … -/
theorem scope_lt_entered (visit : Visit) : visit.scope < (loop.entered visit).scopes.size := by
  unfold entered
  rw [Scopes.size_define, Scopes.size_child]
  exact Nat.lt_succ_self _

/-- … and behind it. -/
theorem scope_lt_after (visit : Visit) : visit.scope < (loop.after visit).scopes.size :=
  Nat.lt_of_lt_of_le (scope_lt_entered visit) (keeps_round visit).size

/-! ## All rounds -/

/-- The statements that a loop runs for an element. -/
def step (loop : Through) (element : Value) : Run Signal := do
  let inner ← openScope loop.scope
  define inner loop.name element loop.constant
  execBlock (invoke loop.limits.rounds loop.limits.depth) loop.limits.rounds inner .zero loop.body

theorem step_apply (store : Store) (element : Value) :
    loop.step element store = loop.outcome ⟨store, element⟩ := rfl

/-- A loop makes the rounds that its array has elements for, by induction on the rounds that it
may still make. -/
theorem exists_runs : ∀ (rounds index : Nat) (store : Store), index + rounds = loop.limits.rounds →
    ∃ visits, loop.Runs array index store visits (throughLoop array loop.step rounds index store)
  | 0, index, store, all => by
    cases all
    exact ⟨[], .bounded⟩
  | rounds + 1, index, store, all => by
    have mayRun : index < loop.limits.rounds := by omega
    have read : (get : Run Store) store = .ok store store := rfl
    unfold throughLoop
    rw [bind_of_ok read]
    cases found : (store.elements array)[index]? with
    | none => exact ⟨[], .exhausted mayRun (Array.getElem?_eq_none_iff.mp found)⟩
    | some element =>
      simp only
      cases ended : loop.outcome ⟨store, element⟩ with
      | error fault middle =>
        rw [bind_of_error ((step_apply store element).trans ended)]
        exact ⟨_, .stops mayRun found (ended ▸ .failed)⟩
      | ok signal middle =>
        rw [bind_of_ok ((step_apply store element).trans ended)]
        have follows := after_of_ok ended
        have goesOn : ∀ {visits result}, signal.passes = true →
            loop.Runs array (index + 1) middle visits result →
            loop.Runs array index store (⟨store, element⟩ :: visits) result := by
          intro visits result passes rest
          refine .passes mayRun found ⟨signal, passes, ?_⟩ ?_
          · rw [follows, ended]
          · rw [follows]
            exact rest
        obtain ⟨visits, rest⟩ := exists_runs rounds (index + 1) middle (by omega)
        cases signal with
        | broke => exact ⟨_, .stops mayRun found (ended ▸ .broke)⟩
        | returned value => exact ⟨_, .stops mayRun found (ended ▸ .returned)⟩
        | normal value => exact ⟨_, goesOn rfl rest⟩
        | continued => exact ⟨_, goesOn rfl rest⟩

theorem not_passes_of_stops {visit : Visit} (stopped : Stops (loop.outcome visit) result) :
    ¬ loop.Passes visit := by
  rintro ⟨signal, passes, ended⟩
  rw [ended] at stopped
  cases stopped <;> cases passes

/-- A loop has one way to run. -/
theorem Runs.unique (runs : loop.Runs array index store visits result) {others : List Visit}
    {otherResult : Outcome} (otherwise : loop.Runs array index store others otherResult) :
    others = visits ∧ otherResult = result := by
  induction runs generalizing others otherResult with
  | exhausted mayRun past =>
    cases otherwise with
    | exhausted => exact ⟨rfl, rfl⟩
    | bounded => exact absurd mayRun (Nat.lt_irrefl _)
    | stops _ found | passes _ found =>
      rw [Array.getElem?_eq_none past] at found
      cases found
  | bounded =>
    cases otherwise with
    | bounded => exact ⟨rfl, rfl⟩
    | exhausted mayRun | stops mayRun | passes mayRun => exact absurd mayRun (Nat.lt_irrefl _)
  | stops mayRun found stopped =>
    cases otherwise with
    | bounded => exact absurd mayRun (Nat.lt_irrefl _)
    | exhausted _ past =>
      rw [Array.getElem?_eq_none past] at found
      cases found
    | stops _ alsoFound alsoStopped =>
      cases found.symm.trans alsoFound
      exact ⟨rfl, alsoStopped.unique stopped⟩
    | passes _ alsoFound passed =>
      cases found.symm.trans alsoFound
      exact absurd passed (not_passes_of_stops stopped)
  | passes mayRun found passed _ ih =>
    cases otherwise with
    | bounded => exact absurd mayRun (Nat.lt_irrefl _)
    | exhausted _ past =>
      rw [Array.getElem?_eq_none past] at found
      cases found
    | stops _ alsoFound stopped =>
      cases found.symm.trans alsoFound
      exact absurd passed (not_passes_of_stops stopped)
    | passes _ alsoFound _ rest =>
      cases found.symm.trans alsoFound
      obtain ⟨same, sameResult⟩ := ih rest
      exact ⟨congrArg (_ :: ·) same, sameResult⟩

/-- Round `i` reads element `i`, as it then is. -/
theorem Runs.reads (runs : loop.Runs array index store visits result) {i : Nat} {visit : Visit}
    (isRound : visits[i]? = some visit) :
    (visit.before.elements array)[index + i]? = some visit.element := by
  induction runs generalizing i with
  | exhausted | bounded => cases isRound
  | stops _ found _ =>
    cases i with
    | zero =>
      cases isRound
      exact found
    | succ i => cases isRound
  | passes _ found _ _ ih =>
    cases i with
    | zero =>
      cases isRound
      exact found
    | succ i =>
      have read := ih isRound
      rw [Nat.add_right_comm, Nat.add_assoc] at read
      exact read

theorem VisitsInOrder.cons {values : List Value} {visit : Visit} (passed : loop.Passes visit)
    (rest : loop.VisitsInOrder values (loop.after visit) visits result) (first : Store) :
    loop.VisitsInOrder (visit.element :: values) first (visit :: visits) result := by
  cases rest with
  | all visited passing =>
    have last : (((visit :: visits).getLast?).map loop.after).getD first =
        (visits.getLast?.map loop.after).getD (loop.after visit) := by
      rw [List.getLast?_cons]
      cases visits.getLast? <;> rfl
    rw [← last]
    exact .all (congrArg (visit.element :: ·) visited) (List.forall_mem_cons.mpr ⟨passed, passing⟩)
  | some split visited passing stopped =>
    exact .some (congrArg (visit :: ·) split) (List.cons_prefix_cons.mpr ⟨rfl, visited⟩)
      (List.forall_mem_cons.mpr ⟨passed, passing⟩) stopped

/-- What is left of a list of which one element has been found. -/
theorem drop_of_getElem? {elements : Array Value} {element : Value}
    (found : elements[index]? = some element) :
    elements.toList.drop index = element :: elements.toList.drop (index + 1) := by
  obtain ⟨inside, here⟩ := Array.getElem?_eq_some_iff.mp found
  rw [List.drop_eq_getElem_cons (by exact inside)]
  exact congrArg (· :: _) here

/-- An array that no round changes is visited from an index to its end. -/
theorem Runs.visitsInOrder (runs : loop.Runs array index store visits result)
    (inside : index ≤ (store.elements array).size)
    (short : (store.elements array).size < loop.limits.rounds)
    (steady : loop.Steady array visits) :
    loop.VisitsInOrder ((store.elements array).toList.drop index) store visits result := by
  induction runs with
  | exhausted _ past => exact .all (List.drop_eq_nil_of_le past).symm (List.forall_mem_nil _)
  | bounded => exact absurd short (Nat.not_lt.mpr inside)
  | stops _ found stopped =>
    rw [drop_of_getElem? found]
    exact .some (List.nil_append _).symm (List.cons_prefix_cons.mpr ⟨rfl, List.nil_prefix⟩)
      (List.forall_mem_nil _) stopped
  | passes _ found passed _ ih =>
    obtain ⟨same, others⟩ := List.forall_mem_cons.mp steady
    obtain ⟨less, _⟩ := Array.getElem?_eq_some_iff.mp found
    rw [same] at ih
    rw [drop_of_getElem? found]
    exact (ih less short others).cons passed _

/-- The scopes there are when a loop starts stay where they are, in each round and to its end. -/
theorem Runs.keeps (runs : loop.Runs array index store visits result) :
    Scopes.Keeps (fun _ _ => True) store.scopes result.store.scopes ∧
    ∀ visit ∈ visits, Scopes.Keeps (fun _ _ => True) store.scopes visit.before.scopes := by
  have throughRound : ∀ store element, Scopes.Keeps (fun _ _ => True) store.scopes
      (loop.after ⟨store, element⟩).scopes := fun store element =>
    (keeps_entered ⟨store, element⟩).trans (keeps_round ⟨store, element⟩)
  induction runs with
  | exhausted | bounded => exact ⟨.refl _, List.forall_mem_nil _⟩
  | stops _ _ stopped =>
    rw [stopped.store_eq, store_outcome]
    exact ⟨throughRound _ _, List.forall_mem_singleton.mpr (.refl _)⟩
  | passes _ _ _ _ ih =>
    obtain ⟨toEnd, toRounds⟩ := ih
    refine ⟨(throughRound _ _).trans toEnd, List.forall_mem_cons.mpr ⟨.refl _, ?_⟩⟩
    intro visit later
    exact (throughRound _ _).trans (toRounds visit later)

/-- What is there behind a round stays there, in each further round and to the end. -/
theorem Runs.keeps_after (runs : loop.Runs array index store visits result) :
    (∀ visit ∈ visits,
      Scopes.Keeps (fun _ _ => True) (loop.after visit).scopes result.store.scopes) ∧
    visits.Pairwise fun visit other =>
      Scopes.Keeps (fun _ _ => True) (loop.after visit).scopes other.before.scopes := by
  induction runs with
  | exhausted | bounded => exact ⟨List.forall_mem_nil _, .nil⟩
  | stops _ _ stopped =>
    rw [stopped.store_eq, store_outcome]
    exact ⟨List.forall_mem_singleton.mpr (.refl _), List.pairwise_singleton _ _⟩
  | passes _ _ _ rest ih =>
    obtain ⟨toEnd, toRounds⟩ := ih
    exact ⟨List.forall_mem_cons.mpr ⟨rest.keeps.1, toEnd⟩, .cons rest.keeps.2 toRounds⟩

/-- What the scope of a round lies in does not change. -/
theorem parent_of_keeps {visit : Visit} {later : Scopes Value}
    (keeps : Scopes.Keeps (fun _ _ => True) (loop.after visit).scopes later) :
    later.parent? visit.scope = some (some loop.scope) :=
  calc later.parent? visit.scope
    _ = (loop.after visit).scopes.parent? visit.scope := keeps.parent _ (scope_lt_after visit)
    _ = (loop.entered visit).scopes.parent? visit.scope :=
        (keeps_round visit).parent _ (scope_lt_entered visit)
    _ = some (some loop.scope) := (opens visit).parent

/-- An assignment to the variable of a round is not seen from another round. -/
theorem assign_apart {visit other : Visit} {later : Store} {place : ScopeId}
    (inside : loop.scope < visit.scope) (otherInside : loop.scope < other.scope)
    (different : visit.scope ≠ other.scope)
    (lies : later.scopes.parent? visit.scope = some (some loop.scope))
    (otherLies : later.scopes.parent? other.scope = some (some loop.scope)) (value : Value)
    (owned : later.scopes.assignee place loop.name = .ok visit.scope) :
    ∃ changed, Run.assign place loop.name value later = .ok () changed ∧
      { changed with scopes := later.scopes } = later ∧
      ∀ seen n, later.scopes.Within seen other.scope →
        changed.scopes.resolve seen n = later.scopes.resolve seen n := by
  refine ⟨{ later with scopes := later.scopes.define visit.scope loop.name value false }, ?_, rfl,
    ?_⟩
  · have read : (get : Run Store) later = .ok later later := rfl
    unfold Run.assign
    rw [bind_of_ok read, owned]
    rfl
  · intro seen n within
    exact Scopes.resolve_define_of_not_within
      (Scopes.not_within_both ⟨otherLies, otherInside⟩ ⟨lies, inside⟩ different.symm within)

theorem Runs.keepsApart (runs : loop.Runs array index store visits result)
    (inside : loop.scope < store.scopes.size) : loop.KeepsApart visits result.store where
  ordered := runs.keeps_after.2.imp fun keeps => Nat.lt_of_lt_of_le (scope_lt_after _) keeps.size
  during := runs.keeps_after.2.imp fun keeps => parent_of_keeps (keeps.trans (keeps_entered _))
  atEnd := fun visit isRound => parent_of_keeps (runs.keeps_after.1 visit isRound)
  apart := by
    obtain ⟨_, toRounds⟩ := runs.keeps
    have within : ∀ visit ∈ visits, loop.scope < visit.scope := fun visit isRound =>
      Nat.lt_of_lt_of_le inside (toRounds visit isRound).size
    intro visit isRound other isOther different later lies otherLies place value owned
    exact assign_apart (within visit isRound) (within other isOther) different lies otherLies value
      owned

end Through

/-- A loop through an array makes one round after the other, each for the element that the array
then has at its index, in a new scope that binds nothing but the name of the loop. If no round
changes the array, all of its elements are visited in order, or those up to the first round that
breaks, returns or fails. Assignments to the variable of one round change neither arrays nor what is
seen from the scopes of other rounds. -/
theorem through_visits_each_element (limits : Limits) (scope : ScopeId) (position : Position)
    (name : String) (constant : Bool) (iterable : Expr) (body : List Stmt) (array : ArrayId)
    (store first : Store)
    (evaluated : iterable.eval (invoke limits.rounds limits.depth) scope store =
      .ok (.array array) first) :
    let loop : Through := ⟨limits, scope, name, constant, body⟩
    let result : Outcome := (Stmt.through position name constant iterable body).exec
      (invoke limits.rounds limits.depth) limits.rounds scope store
    ∃ visits : List Visit, loop.Runs array 0 first visits result ∧
      (∀ (i : Nat) (visit : Visit), visits[i]? = some visit →
        (visit.before.elements array)[i]? = some visit.element ∧ loop.Opens visit) ∧
      ((first.elements array).size < limits.rounds → loop.Steady array visits →
        loop.VisitsInOrder (first.elements array).toList first visits result) ∧
      (scope < store.scopes.size → loop.KeepsApart visits result.store) := by
  intro loop result
  have ran : result = throughLoop array loop.step limits.rounds 0 first := by
    show (Stmt.through position name constant iterable body).exec _ _ scope store = _
    rw [Stmt.exec, bind_of_ok evaluated]
    rfl
  obtain ⟨visits, runs⟩ : ∃ visits, loop.Runs array 0 first visits _ :=
    Through.exists_runs limits.rounds 0 first (Nat.zero_add limits.rounds)
  rw [← ran] at runs
  refine ⟨visits, runs, ?_, ?_, ?_⟩
  · intro i visit isRound
    have read := runs.reads isRound
    rw [Nat.zero_add] at read
    exact ⟨read, Through.opens visit⟩
  · exact runs.visitsInOrder (Nat.zero_le _)
  · intro inside
    have kept := Expr.eval_keeps (invoke_keeps limits.rounds limits.depth) scope iterable store
    have grown := kept.1.size
    rw [final_of_ok evaluated] at grown
    exact runs.keepsApart (Nat.lt_of_lt_of_le inside grown)

/-- A loop that goes on behind `false` and ends with `true`. -/
def untilTrue : Through :=
  ⟨⟨0, 4⟩, Store.globalScope, "x", false,
    [.incase default (.identifier default "x") [.leave default] (.block [.proceed default])]⟩

/-- Three values, the second of which is `true`. -/
def trueInside : Expr :=
  .array default [.boolean default false, .boolean default true, .boolean default false]

/-- The store with the array of the three values. -/
def withTrueInside : Store :=
  { Store.initial with arrays := #[#[.boolean false, .boolean true, .boolean false]] }

/-- Of three values the first two are visited. -/
theorem untilTrue_visits_two :
    trueInside.eval (invoke 4 0) Store.globalScope Store.initial = .ok (.array 0) withTrueInside ∧
    ∃ visits result, untilTrue.Runs 0 0 withTrueInside visits result ∧
      visits.map (·.element) = [.boolean false, .boolean true] ∧
      (∀ visit ∈ visits, untilTrue.Opens visit) ∧
      untilTrue.VisitsInOrder [.boolean false, .boolean true, .boolean false] withTrueInside visits
        result ∧
      untilTrue.KeepsApart visits result.store := by
  have evaluated : trueInside.eval (invoke 4 0) Store.globalScope Store.initial =
      .ok (.array 0) withTrueInside := by rfl
  obtain ⟨visits, runs, reads, inOrder, apart⟩ := through_visits_each_element ⟨0, 4⟩
    Store.globalScope default "x" false trueInside untilTrue.body 0 Store.initial withTrueInside
    evaluated
  let one : Visit := ⟨withTrueInside, .boolean false⟩
  let two : Visit := ⟨untilTrue.after one, .boolean true⟩
  have found : (two.before.elements 0)[1]? = some (.boolean true) := by cbv
  have broke : untilTrue.outcome two = .ok .broke (untilTrue.after two) := by cbv
  have continued : untilTrue.outcome one = .ok .continued (untilTrue.after one) := by cbv
  have expected : untilTrue.Runs 0 0 withTrueInside [one, two]
      (.ok (.normal .zero) (untilTrue.after two)) :=
    .passes (by decide) rfl ⟨.continued, rfl, continued⟩ (.stops (by decide) found (broke ▸ .broke))
  obtain ⟨rfl, _⟩ := expected.unique runs
  refine ⟨evaluated, _, _, runs, rfl, ?_, inOrder (by decide) ?_, apart (by decide)⟩
  · intro visit isRound
    obtain ⟨i, found⟩ := List.getElem?_of_mem isRound
    exact (reads i visit found).2
  · exact List.forall_mem_cons.mpr ⟨by cbv, List.forall_mem_singleton.mpr (by cbv)⟩

end Script
