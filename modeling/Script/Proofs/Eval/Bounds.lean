import Script.Eval
import Script.Proofs.Tree.Blame
import Script.Proofs.Value.Reach

/-!
# Bounds on what running does

`Bounds` fix a store to begin with, the nodes that may be used from there, and the faults that may
occur. Everything that is new may be used too (`Within`). A store keeps the bounds (`Held`) if
nothing leads out of them, whatever lies outside is as it was at the beginning, and no function
inside is to blame for a fault that may not occur.

`Run.Upholds` says of a computation that it keeps the bounds, however it ends. What is assumed of
scopes and values holds in some earlier store, the *world*: stores only grow, so it goes on to hold
(`Within.mono`). One lemma for each step that evaluation is made of.
-/

namespace Script

/-- A beginning, the nodes that may be used, and the faults that may occur. -/
structure Bounds where
  origin : Store
  base : Node → Prop
  allowed : Fault → Prop
  /-- No bound on the values of a program can be kept without running it. -/
  ordinary : ∀ fault : Fault, fault.isOrdinary = true → allowed fault
  /-- A function that does not exist cannot be called. -/
  callable : allowed (.notCallable .function) ∨ ∀ node, base node → origin.Has node

variable {bounds : Bounds} {world store after : Store} {node other : Node}

namespace Bounds

/-- A node may be used: it could be at the beginning, or it is new. -/
def Within (bounds : Bounds) (store : Store) (node : Node) : Prop :=
  bounds.base node ∨ (¬ bounds.origin.Has node ∧ store.Has node)

/-- A value refers to nothing but what may be used. -/
def Knows (bounds : Bounds) (store : Store) (value : Value) : Prop :=
  ∀ node, value.node? = some node → bounds.Within store node

/-- A function may be called. -/
def Permits (bounds : Bounds) (store : Store) : Callable → Prop
  | .procedure procedure =>
    bounds.Within store (.scope procedure.scope) ∧ ∀ fault ∈ procedure.blame, bounds.allowed fault
  | .builtin _ .console => True
  | .builtin _ (.method _ array) => bounds.Within store (.array array)

/-- A store keeps the bounds. -/
structure Held (bounds : Bounds) (store : Store) : Prop where
  grown : bounds.origin.Grows store
  closed : ∀ {node other}, bounds.Within store node → store.Leads node other →
    bounds.Within store other
  frame : ∀ node, bounds.origin.Has node → ¬ bounds.base node → bounds.origin.Same store node
  blameless : ∀ {id procedure}, bounds.Within store (.function id) →
    store.functions[id]? = some (.procedure procedure) →
    ∀ fault ∈ procedure.blame, bounds.allowed fault

/-! ## Growing stores -/

/-- What may be used may still be used when the store has grown, and the same holds of values and
functions. -/
theorem Within.mono (within : bounds.Within store node) (grows : store.Grows after) :
    bounds.Within after node := by
  rcases within with base | ⟨isNew, has⟩
  · exact .inl base
  · exact .inr ⟨isNew, grows.has has⟩

/-- What may be used later and exists already may be used already. -/
theorem Within.of_has (within : bounds.Within after node) (has : store.Has node) :
    bounds.Within store node := by
  rcases within with base | ⟨isNew, _⟩
  · exact .inl base
  · exact .inr ⟨isNew, has⟩

theorem Knows.mono {value : Value} (knows : bounds.Knows store value) (grows : store.Grows after) :
    bounds.Knows after value :=
  fun node refers => (knows node refers).mono grows

theorem Permits.mono {function : Callable} (permits : bounds.Permits store function)
    (grows : store.Grows after) : bounds.Permits after function := by
  cases function with
  | procedure procedure => exact ⟨permits.1.mono grows, permits.2⟩
  | builtin name action =>
    cases action with
    | console => trivial
    | method method array => exact Within.mono permits grows

/-- A value that refers to nothing is known. -/
theorem knows_of_none {value : Value} (plain : value.node? = none) : bounds.Knows store value := by
  intro node refers
  rw [plain] at refers
  cases refers

/-- One step keeps the bounds if it grows the store, if all that leads somewhere did so before or
leads to what may be used, and if it changes nothing else. -/
theorem Held.step (held : bounds.Held store) (grows : store.Grows after)
    (leads : ∀ {node other}, bounds.Within after node → after.Leads node other →
      store.Leads node other ∨ bounds.Within after other)
    (same : ∀ node, store.Has node → ¬ bounds.Within store node → store.Same after node)
    (blameless : ∀ {id : FunctionId} {procedure : Procedure},
      after.functions[id]? = some (.procedure procedure) →
      store.functions[id]? = some (.procedure procedure) ∨
        ∀ fault ∈ procedure.blame, bounds.allowed fault) : bounds.Held after where
  grown := held.grown.trans grows
  closed := by
    intro node other within leadsOn
    rcases leads within leadsOn with before | known
    · exact (held.closed (within.of_has before.has) before).mono grows
    · exact known
  frame := by
    intro node has outside
    have notWithin : ¬ bounds.Within store node := by
      rintro (base | ⟨isNew, _⟩)
      · exact outside base
      · exact isNew has
    exact (held.frame node has outside).trans (same node (held.grown.has has) notWithin)
  blameless := by
    intro id procedure within found
    rcases blameless found with before | known
    · have has : store.Has (.function id) := (Array.getElem?_eq_some_iff.mp before).1
      exact held.blameless (within.of_has has) before
    · exact known

end Bounds

/-! ## Computations -/

namespace Run

open Bounds

variable {α β : Type} {wanted : Store → α → Prop} {goal : Store → β → Prop}

/-- What comes of a computation that began in a store: the bounds are kept and the result is as
wanted, or the fault is allowed. -/
def Ends (bounds : Bounds) (store : Store) (wanted : Store → α → Prop) :
    EStateM.Result Fault Store α → Prop
  | .ok value after => bounds.Held after ∧ store.Grows after ∧ wanted after value
  | .error fault after => bounds.Held after ∧ bounds.allowed fault

/-- From every store that a world grows to, a computation keeps the bounds. -/
def Upholds (bounds : Bounds) (world : Store) (wanted : Store → α → Prop) (run : Run α) : Prop :=
  ∀ store, world.Grows store → bounds.Held store → Ends bounds store wanted (run store)

/-- Any result will do. -/
def anything : Store → α → Prop := fun _ _ => True

/-- The result is a known value. -/
def known (bounds : Bounds) : Store → Value → Prop := bounds.Knows

theorem upholds_pure {value : α} (holds : ∀ store, world.Grows store → wanted store value) :
    Upholds bounds world wanted (pure value) := by
  intro store grows held
  exact ⟨held, .refl store, holds store grows⟩

theorem upholds_plain {value : Value} (plain : value.node? = none) :
    Upholds bounds world (known bounds) (pure value) :=
  upholds_pure fun _ _ => knows_of_none plain

theorem upholds_throw {fault : Fault} (allowed : bounds.allowed fault) :
    Upholds bounds world wanted (throw fault) := by
  intro store _ held
  exact ⟨held, allowed⟩

/-- What goes on starts in the store the first computation leaves, which is its world. -/
theorem upholds_bind {first : Run α} {next : α → Run β} (head : Upholds bounds world wanted first)
    (tail : ∀ later value, world.Grows later → wanted later value →
      Upholds bounds later goal (next value)) :
    Upholds bounds world goal (first >>= next) := by
  intro store grows held
  have ends := head store grows held
  show Ends bounds store goal (EStateM.bind first next store)
  unfold EStateM.bind
  cases ran : first store with
  | ok value middle =>
    rw [ran] at ends
    obtain ⟨heldThere, grown, holds⟩ := ends
    have rest := tail middle value (grows.trans grown) holds middle (.refl middle) heldThere
    show Ends bounds store goal (next value middle)
    cases ranOn : next value middle with
    | ok result last =>
      rw [ranOn] at rest
      exact ⟨rest.1, grown.trans rest.2.1, rest.2.2⟩
    | error fault last =>
      rw [ranOn] at rest
      exact rest
  | error fault middle =>
    rw [ran] at ends
    exact ends

/-- What goes on with the store as it is. -/
theorem upholds_get_bind {next : Store → Run α}
    (tail : ∀ store, world.Grows store → bounds.Held store →
      Upholds bounds store wanted (next store)) :
    Upholds bounds world wanted (get >>= next) := by
  intro store grows held
  exact tail store grows held store (.refl store) held

theorem upholds_weaken {more : Store → α → Prop} {run : Run α}
    (upholds : Upholds bounds world wanted run)
    (weaker : ∀ store value, world.Grows store → wanted store value → more store value) :
    Upholds bounds world more run := by
  intro store grows held
  have ends := upholds store grows held
  cases ran : run store with
  | ok value last =>
    rw [ran] at ends
    exact ⟨ends.1, ends.2.1, weaker last value (grows.trans ends.2.1) ends.2.2⟩
  | error fault last =>
    rw [ran] at ends
    exact ends

theorem upholds_lift {result : Except Fault α} (value : ∀ found, result = .ok found →
      ∀ store, world.Grows store → wanted store found)
    (fault : ∀ found, result = .error found → bounds.allowed found) :
    Upholds bounds world wanted (lift result) := by
  cases result with
  | ok found => exact upholds_pure (value found rfl)
  | error found => exact upholds_throw (fault found rfl)

/-- A change of the store that keeps the bounds. -/
theorem upholds_modify {change : Store → Store}
    (step : ∀ store, world.Grows store → bounds.Held store →
      bounds.Held (change store) ∧ store.Grows (change store)) :
    Upholds bounds world anything (modify change : Run PUnit) := by
  intro store grows held
  obtain ⟨heldThere, grown⟩ := step store grows held
  exact ⟨heldThere, grown, trivial⟩

theorem upholds_modifyGet {change : Store → α × Store}
    (step : ∀ store, world.Grows store → bounds.Held store →
      bounds.Held (change store).2 ∧ store.Grows (change store).2 ∧
        wanted (change store).2 (change store).1) :
    Upholds bounds world wanted (modifyGet change : Run α) := by
  intro store grows held
  exact step store grows held

/-! ## Scopes -/

section

variable {scope : ScopeId} {name : String} {value : Value} {constant : Bool}

/-- A name that is found from a scope within the bounds is bound within them. -/
theorem within_owner (held : bounds.Held store) :
    ∀ {scope owner}, bounds.Within store (.scope scope) →
      store.scopes.owner? scope name = some owner → bounds.Within store (.scope owner) := by
  intro scope
  -- on the number of the scope, since a parent has a smaller one
  induction scope using Nat.strongRecOn with
  | ind scope ih =>
    intro owner within found
    rw [Scopes.owner?_eq] at found
    split at found
    · cases found
      exact within
    · split at found
      · rename_i parent lies
        split at found
        · rename_i outward
          exact ih parent outward (held.closed within (.parent lies)) found
        · cases found
      · cases found

/-- The scope in which a name is found lies around the one it is looked up from, so it may be used,
and so may what it is bound to there. -/
theorem upholds_lookup (within : bounds.Within world (.scope scope)) :
    Upholds bounds world (known bounds) (lookup scope name) := by
  unfold lookup
  refine upholds_get_bind ?_
  intro store grows held
  split
  · rename_i binding found
    obtain ⟨owner, owned, bound⟩ := Scopes.owner?_of_resolve found
    have withinOwner := within_owner held (within.mono grows) owned
    refine upholds_pure ?_
    intro later grown node refers
    exact (held.closed withinOwner (.binding bound refers)).mono grown
  · exact upholds_throw (bounds.ordinary (.name _) rfl)

/-- A declaration leads from its scope to its value, and changes nothing else. -/
theorem held_define (held : bounds.Held store) (within : bounds.Within store (.scope scope))
    (knows : bounds.Knows store value) :
    bounds.Held { store with scopes := store.scopes.define scope name value constant } ∧
      store.Grows { store with scopes := store.scopes.define scope name value constant } := by
  have grows : store.Grows
      { store with scopes := store.scopes.define scope name value constant } :=
    { Store.Grows.refl store with scopes := Nat.le_of_eq Scopes.size_define.symm }
  refine ⟨held.step grows ?_ ?_ fun found => .inl found, grows⟩
  · intro node other withinNode leads
    cases leads with
    | parent lies => exact .inl (.parent (Scopes.parent?_define.symm.trans lies))
    | @binding other n binding _ found refers =>
      -- the binding is the new one, or it was there before
      by_cases same : other = scope ∧ n = name
      · obtain ⟨rfl, rfl⟩ := same
        have size : other < store.scopes.size := by
          rw [← Scopes.size_define]
          exact Scopes.lt_of_local? found
        rw [Scopes.local?_define_self size] at found
        cases found
        exact .inr ((knows _ refers).mono grows)
      · rw [Scopes.local?_define_of_ne same] at found
        exact .inl (.binding found refers)
    | element member refers => exact .inl (.element member refers)
    | property found refers => exact .inl (.property found refers)
    | captured found => exact .inl (.captured found)
    | receiver found => exact .inl (.receiver found)
  · intro node _ outside
    cases node with
    | scope id =>
      have different : scope ≠ id := fun same => outside (same ▸ within)
      show (store.scopes.define scope name value constant)[id]? = store.scopes[id]?
      rw [Scopes.getElem?_define, if_neg different]
    | array id => rfl
    | object id => rfl
    | function id => rfl

theorem upholds_define (within : bounds.Within world (.scope scope))
    (knows : bounds.Knows world value) :
    Upholds bounds world anything (define scope name value constant) := by
  refine upholds_modify ?_
  intro store grows held
  exact held_define held (within.mono grows) (knows.mono grows)

/-- An assignment binds the name anew in the scope where it is found. -/
theorem upholds_assign (within : bounds.Within world (.scope scope))
    (knows : bounds.Knows world value) :
    Upholds bounds world anything (assign scope name value) := by
  unfold assign
  refine upholds_get_bind ?_
  intro store grows held
  split
  · rename_i owner found
    have withinOwner :=
      within_owner held (within.mono grows) (Scopes.owner?_of_assignee found)
    exact upholds_define withinOwner (knows.mono grows)
  · exact upholds_throw (bounds.ordinary (.name _) rfl)

/-- A new scope may be used, and leads to the one it lies in only. -/
theorem upholds_openScope (within : bounds.Within world (.scope scope)) :
    Upholds bounds world (fun later opened => bounds.Within later (.scope opened))
      (openScope scope) := by
  refine upholds_modifyGet ?_
  intro store grows held
  have grown : store.Grows { store with scopes := store.scopes.child scope } :=
    { Store.Grows.refl store with scopes := by rw [Scopes.size_child]; exact Nat.le_succ _ }
  refine ⟨held.step grown ?_ ?_ fun found => .inl found, grown, .inr ⟨?_, ?_⟩⟩
  · intro node other _ leads
    cases leads with
    | @parent id parent lies =>
      -- the new scope, or one that was there before
      by_cases last : id = store.scopes.size
      · subst last
        rw [Scopes.parent?_child_self] at lies
        cases lies
        exact .inr ((within.mono grows).mono grown)
      · have inside : id < store.scopes.size := by
          have has : id < (store.scopes.child scope).size := Store.Leads.has (.parent lies)
          rw [Scopes.size_child] at has
          exact Nat.lt_of_le_of_ne (Nat.le_of_lt_succ has) last
        rw [Scopes.parent?_child_of_lt inside] at lies
        exact .inl (.parent lies)
    | @binding id n binding _ found refers =>
      by_cases last : id = store.scopes.size
      · subst last
        rw [Scopes.local?_child_self] at found
        cases found
      · have inside : id < store.scopes.size := by
          have has := Scopes.lt_of_local? found
          rw [Scopes.size_child] at has
          exact Nat.lt_of_le_of_ne (Nat.le_of_lt_succ has) last
        rw [Scopes.local?_child_of_lt inside] at found
        exact .inl (.binding found refers)
    | element member refers => exact .inl (.element member refers)
    | property found refers => exact .inl (.property found refers)
    | captured found => exact .inl (.captured found)
    | receiver found => exact .inl (.receiver found)
  · intro node has _
    cases node with
    | scope id => exact Scopes.getElem?_child_of_lt has
    | array id => rfl
    | object id => rfl
    | function id => rfl
  · intro has
    exact Nat.lt_irrefl _ (Nat.lt_of_lt_of_le has held.grown.scopes)
  · show store.scopes.size < (store.scopes.child scope).size
    rw [Scopes.size_child]
    exact Nat.lt_succ_self _

theorem upholds_bindParameters {entries : List (String × Value)} :
    ∀ {world : Store}, bounds.Within world (.scope scope) →
      (∀ entry ∈ entries, bounds.Knows world entry.2) →
      Upholds bounds world anything (bindParameters scope entries) := by
  induction entries with
  | nil => exact fun _ _ => upholds_pure fun _ _ => trivial
  | cons entry rest ih =>
    intro world within knows
    unfold bindParameters
    refine upholds_bind (upholds_define within (knows entry List.mem_cons_self)) ?_
    intro later _ grows _
    exact ih (within.mono grows) fun other member =>
      (knows other (List.mem_cons_of_mem _ member)).mono grows

end

/-! ## New arrays, objects and functions -/

theorem elements_push (store : Store) (elements : Array Value) (id : ArrayId) :
    Store.elements { store with arrays := store.arrays.push elements } id =
      if id = store.arrays.size then elements else store.elements id := by
  unfold Store.elements
  rw [Array.getElem?_push]
  split <;> rfl

theorem properties_push (store : Store) (table : Table Value) (id : ObjectId) :
    Store.properties { store with objects := store.objects.push table } id =
      if id = store.objects.size then table else store.properties id := by
  unfold Store.properties
  rw [Array.getElem?_push]
  split <;> rfl

theorem getElem?_push_of_lt {γ : Type} {array : Array γ} {item : γ} {id : Nat}
    (inside : id < array.size) : (array.push item)[id]? = array[id]? := by
  rw [Array.getElem?_push, if_neg (Nat.ne_of_lt inside)]

/-- A new array may be used, and leads to its values only. -/
theorem upholds_newArray {values : List Value}
    (knows : ∀ value ∈ values, bounds.Knows world value) :
    Upholds bounds world (known bounds) (newArray values) := by
  refine upholds_modifyGet ?_
  intro store grows held
  have grown : store.Grows { store with arrays := store.arrays.push values.toArray } :=
    { Store.Grows.refl store with arrays := by simp }
  refine ⟨held.step grown ?_ ?_ fun found => .inl found, grown, ?_⟩
  · intro node other _ leads
    cases leads with
    | parent lies => exact .inl (.parent lies)
    | binding found refers => exact .inl (.binding found refers)
    | @element id value _ member refers =>
      rw [elements_push] at member
      split at member
      · exact .inr (((knows value (by simpa using member)) _ refers).mono (grows.trans grown))
      · exact .inl (.element member refers)
    | property found refers => exact .inl (.property found refers)
    | captured found => exact .inl (.captured found)
    | receiver found => exact .inl (.receiver found)
  · intro node has _
    cases node with
    | scope id => rfl
    | array id => exact getElem?_push_of_lt has
    | object id => rfl
    | function id => rfl
  · intro node refers
    cases refers
    refine .inr ⟨fun has => ?_, ?_⟩
    · exact Nat.lt_irrefl _ (Nat.lt_of_lt_of_le has held.grown.arrays)
    · show store.arrays.size < (store.arrays.push values.toArray).size
      rw [Array.size_push]
      exact Nat.lt_succ_self _

/-- A table made from a list holds nothing but entries of that list. -/
theorem mem_of_get?_ofList {α : Type} {entries : List (String × α)} {key : String} {value : α}
    (found : (Table.ofList entries).get? key = some value) : (key, value) ∈ entries := by
  -- for every table to begin with, since the entries go in one after the other
  have general : ∀ (entries : List (String × α)) (table : Table α),
      (entries.foldl (fun table entry => table.insert entry.1 entry.2) table).get? key =
        some value → (key, value) ∈ entries ∨ table.get? key = some value := by
    intro entries
    induction entries with
    | nil => exact fun table found => .inr found
    | cons entry rest ih =>
      intro table found
      rcases ih _ found with later | here
      · exact .inl (List.mem_cons_of_mem _ later)
      · by_cases same : key = entry.1
        · subst same
          rw [Table.get?_insert_self] at here
          cases here
          exact .inl List.mem_cons_self
        · rw [Table.get?_insert_of_ne _ _ same] at here
          exact .inr here
  rcases general entries .empty found with member | none
  · exact member
  · cases none

theorem upholds_newObject {entries : List (String × Value)}
    (knows : ∀ entry ∈ entries, bounds.Knows world entry.2) :
    Upholds bounds world (known bounds) (newObject entries) := by
  refine upholds_modifyGet ?_
  intro store grows held
  have grown : store.Grows { store with objects := store.objects.push (.ofList entries) } :=
    { Store.Grows.refl store with objects := by simp }
  refine ⟨held.step grown ?_ ?_ fun found => .inl found, grown, ?_⟩
  · intro node other _ leads
    cases leads with
    | parent lies => exact .inl (.parent lies)
    | binding found refers => exact .inl (.binding found refers)
    | element member refers => exact .inl (.element member refers)
    | @property id key value _ found refers =>
      rw [properties_push] at found
      split at found
      · have member := mem_of_get?_ofList found
        exact .inr ((knows (key, value) member _ refers).mono (grows.trans grown))
      · exact .inl (.property found refers)
    | captured found => exact .inl (.captured found)
    | receiver found => exact .inl (.receiver found)
  · intro node has _
    cases node with
    | scope id => rfl
    | array id => rfl
    | object id => exact getElem?_push_of_lt has
    | function id => rfl
  · intro node refers
    cases refers
    refine .inr ⟨fun has => ?_, ?_⟩
    · exact Nat.lt_irrefl _ (Nat.lt_of_lt_of_le has held.grown.objects)
    · show store.objects.size < (store.objects.push (.ofList entries)).size
      rw [Array.size_push]
      exact Nat.lt_succ_self _

/-- A new function may be used, and leads to the scope it was made in, or to the array it belongs
to. -/
theorem upholds_newFunction {function : Callable} (permits : bounds.Permits world function) :
    Upholds bounds world (known bounds) (newFunction function) := by
  refine upholds_modifyGet ?_
  intro store grows held
  have grown : store.Grows { store with functions := store.functions.push function } :=
    { Store.Grows.refl store with functions := by simp }
  have permitsThere := permits.mono (grows.trans grown)
  -- a function found in the new store is an old one or the one that was made
  have made : ∀ {id : FunctionId} {found : Callable},
      (store.functions.push function)[id]? = some found →
      store.functions[id]? = some found ∨ found = function := by
    intro id found there
    rw [Array.getElem?_push] at there
    split at there
    · exact .inr (Option.some.inj there).symm
    · exact .inl there
  refine ⟨held.step grown ?_ ?_ ?_, grown, ?_⟩
  · intro node other _ leads
    cases leads with
    | parent lies => exact .inl (.parent lies)
    | binding found refers => exact .inl (.binding found refers)
    | element member refers => exact .inl (.element member refers)
    | property found refers => exact .inl (.property found refers)
    | captured found =>
      rcases made found with before | rfl
      · exact .inl (.captured before)
      · exact .inr permitsThere.1
    | receiver found =>
      rcases made found with before | rfl
      · exact .inl (.receiver before)
      · exact .inr permitsThere
  · intro node has _
    cases node with
    | scope id => rfl
    | array id => rfl
    | object id => rfl
    | function id => exact getElem?_push_of_lt has
  · intro id procedure found
    rcases made found with before | rfl
    · exact .inl before
    · exact .inr permitsThere.2
  · intro node refers
    cases refers
    refine .inr ⟨fun has => ?_, ?_⟩
    · exact Nat.lt_irrefl _ (Nat.lt_of_lt_of_le has held.grown.functions)
    · show store.functions.size < (store.functions.push function).size
      rw [Array.size_push]
      exact Nat.lt_succ_self _

/-! ## Members -/

theorem upholds_updateElements {array : ArrayId} {change : Array Value → Array Value}
    (within : bounds.Within world (.array array))
    (keeps : ∀ elements : Array Value, ∀ value ∈ change elements,
      value ∈ elements ∨ bounds.Knows world value) :
    Upholds bounds world anything (updateElements array change) := by
  refine upholds_modify ?_
  intro store grows held
  have grown : store.Grows { store with arrays := store.arrays.modify array change } :=
    { Store.Grows.refl store with arrays := by simp }
  refine ⟨held.step grown ?_ ?_ fun found => .inl found, grown⟩
  · intro node other _ leads
    cases leads with
    | parent lies => exact .inl (.parent lies)
    | binding found refers => exact .inl (.binding found refers)
    | @element id value _ member refers =>
      -- an element of the array that is changed, or of another one
      have old : value ∈ store.elements id ∨ bounds.Knows world value := by
        unfold Store.elements at member ⊢
        rw [Array.getElem?_modify] at member
        split at member
        · cases found : store.arrays[id]? with
          | none => simp [found] at member
          | some elements =>
            simp only [found, Option.map_some, Option.getD_some] at member
            exact keeps elements value member
        · exact .inl member
      rcases old with before | knows
      · exact .inl (.element before refers)
      · exact .inr ((knows _ refers).mono (grows.trans grown))
    | property found refers => exact .inl (.property found refers)
    | captured found => exact .inl (.captured found)
    | receiver found => exact .inl (.receiver found)
  · intro node _ outside
    cases node with
    | scope id => rfl
    | array id =>
      have different : array ≠ id := fun same => outside (same ▸ within.mono grows)
      show (store.arrays.modify array change)[id]? = store.arrays[id]?
      rw [Array.getElem?_modify, if_neg different]
    | object id => rfl
    | function id => rfl

theorem upholds_lengthOf (array : ArrayId) :
    Upholds bounds world (known bounds) (lengthOf array) :=
  upholds_get_bind fun _ _ _ => upholds_plain rfl

/-- The faults of a key that is too long come of values. -/
theorem ordinary_of_index? {key : String} {fault : Fault}
    (refused : Key.index? key = .error fault) : fault.isOrdinary = true := by
  unfold Key.index? at refused
  simp only at refused
  split at refused
  · split at refused
    · cases refused
      rfl
    · split at refused <;> cases refused
  · cases refused

theorem upholds_index (key : String) :
    Upholds bounds world anything (lift (Key.index? key)) :=
  upholds_lift (fun _ _ _ _ => trivial)
    fun _ refused => bounds.ordinary _ (ordinary_of_index? refused)

theorem upholds_readElement {array : ArrayId} (within : bounds.Within world (.array array))
    (key : String) : Upholds bounds world (known bounds) (readElement array key) := by
  unfold readElement
  refine upholds_bind (upholds_index key) ?_
  intro later index grows _
  refine upholds_get_bind ?_
  intro store grown held
  refine upholds_pure ?_
  intro last more node refers
  have withinHere := within.mono (grows.trans grown)
  -- the element is one of the array's, or null, which refers to nothing
  cases found : index.bind ((store.elements array)[·]?) with
  | none =>
    rw [found] at refers
    cases refers
  | some value =>
    rw [found, Option.getD_some] at refers
    obtain ⟨number, _, there⟩ := Option.bind_eq_some_iff.mp found
    exact (held.closed withinHere (.element (Array.mem_of_getElem? there) refers)).mono more

theorem upholds_readProperty {object : ObjectId} (within : bounds.Within world (.object object))
    (key : String) : Upholds bounds world (known bounds) (readProperty object key) := by
  unfold readProperty
  refine upholds_get_bind ?_
  intro store grows held
  refine upholds_pure ?_
  intro last more node refers
  cases found : (store.properties object).get? key with
  | none =>
    rw [found] at refers
    cases refers
  | some value =>
    rw [found, Option.getD_some] at refers
    exact (held.closed (within.mono grows) (.property found refers)).mono more

/-- The method of an array is a new function that belongs to it. -/
theorem upholds_readMember {target : Value} (knows : bounds.Knows world target)
    (property : String) : Upholds bounds world (known bounds) (readMember target property) := by
  unfold readMember
  split
  · split
    · exact upholds_lengthOf _
    · split
      · exact upholds_newFunction (knows _ rfl)
      · exact upholds_readElement (knows _ rfl) _
  · exact upholds_readProperty (knows _ rfl) _
  · exact upholds_throw (bounds.ordinary _ rfl)

theorem upholds_readComputed {target : Value} (knows : bounds.Knows world target) (key : String) :
    Upholds bounds world (known bounds) (readComputed target key) := by
  unfold readComputed
  split
  · exact upholds_readElement (knows _ rfl) _
  · exact upholds_readProperty (knows _ rfl) _
  · exact upholds_throw (bounds.ordinary _ rfl)

/-- A write adds nothing but the value and nulls. -/
theorem mem_writeAt {elements : Array Value} {index : Nat} {value other : Value}
    (member : other ∈ writeAt elements index value) :
    other ∈ elements ∨ other = .null ∨ other = value := by
  unfold writeAt at member
  split at member
  · rename_i inside
    rw [Array.setIfInBounds_def, dif_pos inside] at member
    rcases Array.mem_or_eq_of_mem_set member with old | same
    · exact .inl old
    · exact .inr (.inr same)
  · rw [Array.mem_push, Array.mem_append, Array.mem_replicate] at member
    rcases member with (old | padding) | same
    · exact .inl old
    · exact .inr (.inl padding.2)
    · exact .inr (.inr same)

theorem upholds_writeElement {array : ArrayId} {value : Value}
    (within : bounds.Within world (.array array)) (knows : bounds.Knows world value)
    (key : String) : Upholds bounds world anything (writeElement array key value) := by
  unfold writeElement
  refine upholds_bind (upholds_index key) ?_
  intro later index grows _
  split
  · exact upholds_throw (bounds.ordinary _ rfl)
  · refine upholds_get_bind ?_
    intro store grown _
    split
    · exact upholds_throw (bounds.ordinary _ rfl)
    · refine upholds_updateElements (within.mono (grows.trans grown)) ?_
      intro elements other member
      rcases mem_writeAt member with old | rfl | rfl
      · exact .inl old
      · exact .inr (knows_of_none rfl)
      · exact .inr (knows.mono (grows.trans grown))

/-- A write to an object leads from it to the value, and changes no other object. -/
theorem upholds_writeProperty {object : ObjectId} {value : Value}
    (within : bounds.Within world (.object object)) (knows : bounds.Knows world value)
    (key : String) : Upholds bounds world anything (writeProperty object key value) := by
  refine upholds_modify ?_
  intro store grows held
  have grown : store.Grows
      { store with objects := store.objects.modify object (·.insert key value) } :=
    { Store.Grows.refl store with objects := by simp }
  refine ⟨held.step grown ?_ ?_ fun found => .inl found, grown⟩
  · intro node other _ leads
    cases leads with
    | parent lies => exact .inl (.parent lies)
    | binding found refers => exact .inl (.binding found refers)
    | element member refers => exact .inl (.element member refers)
    | @property id k v _ found refers =>
      -- a property of the object that is written to, or of another one
      have old : (store.properties id).get? k = some v ∨ v = value := by
        unfold Store.properties at found ⊢
        rw [Array.getElem?_modify] at found
        split at found
        · cases there : store.objects[id]? with
          | none =>
            rw [there] at found
            cases found
          | some table =>
            simp only [there, Option.map_some, Option.getD_some] at found ⊢
            by_cases same : k = key
            · subst same
              rw [Table.get?_insert_self] at found
              exact .inr (Option.some.inj found).symm
            · rw [Table.get?_insert_of_ne _ _ same] at found
              exact .inl found
        · exact .inl found
      rcases old with before | rfl
      · exact .inl (.property before refers)
      · exact .inr ((knows _ refers).mono (grows.trans grown))
    | captured found => exact .inl (.captured found)
    | receiver found => exact .inl (.receiver found)
  · intro node _ outside
    cases node with
    | scope id => rfl
    | array id => rfl
    | object id =>
      have different : object ≠ id := fun same => outside (same ▸ within.mono grows)
      show (store.objects.modify object (·.insert key value))[id]? = store.objects[id]?
      rw [Array.getElem?_modify, if_neg different]
    | function id => rfl

theorem upholds_writeMember {target value : Value} {key : Run String}
    (knowsTarget : bounds.Knows world target) (knows : bounds.Knows world value)
    (keys : Upholds bounds world anything key) :
    Upholds bounds world anything (writeMember target key value) := by
  unfold writeMember
  split
  · refine upholds_bind keys ?_
    intro later text grows _
    exact upholds_writeElement ((knowsTarget _ rfl).mono grows) (knows.mono grows) text
  · refine upholds_bind keys ?_
    intro later text grows _
    exact upholds_writeProperty ((knowsTarget _ rfl).mono grows) (knows.mono grows) text
  · exact upholds_throw (bounds.ordinary _ rfl)

/-! ## Built-in functions -/

/-- What is printed leads nowhere. -/
theorem held_output (held : bounds.Held store) (output : Array String) :
    bounds.Held { store with output } ∧ store.Grows { store with output } := by
  have grows : store.Grows { store with output } := { Store.Grows.refl store with }
  refine ⟨held.step grows ?_ ?_ fun found => .inl found, grows⟩
  · intro node other _ leads
    cases leads with
    | parent lies => exact .inl (.parent lies)
    | binding found refers => exact .inl (.binding found refers)
    | element member refers => exact .inl (.element member refers)
    | property found refers => exact .inl (.property found refers)
    | captured found => exact .inl (.captured found)
    | receiver found => exact .inl (.receiver found)
  · intro node _ _
    cases node <;> rfl

theorem upholds_print (value : Value) : Upholds bounds world anything (print value) :=
  upholds_modify fun _ _ held => held_output held _

/-- What a method takes out of its array is one of the elements, or null. -/
theorem knows_element {array : ArrayId} (held : bounds.Held store)
    (within : bounds.Within store (.array array)) {found : Option Value}
    (member : ∀ value, found = some value → value ∈ store.elements array) :
    bounds.Knows store (found.getD .null) := by
  cases found with
  | none => exact knows_of_none rfl
  | some value =>
    intro node refers
    exact held.closed within (.element (member value rfl) refers)

/-- Methods take elements out of their array or put their arguments in; all other calls of built-in
functions print, or fail for the number of arguments. -/
theorem upholds_builtin {name : String} {action : Builtin} {arguments : List Value}
    (permits : bounds.Permits world (.builtin name action))
    (knows : ∀ value ∈ arguments, bounds.Knows world value) :
    Upholds bounds world (known bounds) (builtin action arguments) := by
  unfold builtin
  split
  · refine upholds_bind (upholds_print _) ?_
    intro later _ _ _
    exact upholds_plain rfl
  · rename_i array value
    refine upholds_bind (upholds_updateElements permits ?_) fun _ _ _ _ => upholds_lengthOf _
    intro elements other member
    rcases Array.mem_push.mp member with old | rfl
    · exact .inl old
    · exact .inr (knows _ List.mem_cons_self)
  · rename_i array value
    refine upholds_bind (upholds_updateElements permits ?_) fun _ _ _ _ => upholds_lengthOf _
    intro elements other member
    rcases Array.mem_append.mp member with first | old
    · rw [Array.mem_singleton.mp first]
      exact .inr (knows _ List.mem_cons_self)
    · exact .inl old
  · rename_i array
    refine upholds_get_bind ?_
    intro store grows held
    have within : bounds.Within store (.array array) := Within.mono permits grows
    have knowsLast : bounds.Knows store ((store.elements array).back?.getD .null) :=
      knows_element held within fun value found => Array.mem_of_back? found
    refine upholds_bind (upholds_updateElements within ?_) ?_
    · intro elements other member
      rw [← Array.mem_toList_iff, Array.toList_pop] at member
      exact .inl (Array.mem_toList_iff.mp (List.dropLast_subset _ member))
    · intro later _ grown _
      exact upholds_pure fun last more => knowsLast.mono (grown.trans more)
  · rename_i array
    refine upholds_get_bind ?_
    intro store grows held
    have within : bounds.Within store (.array array) := Within.mono permits grows
    have knowsFirst : bounds.Knows store ((store.elements array)[0]?.getD .null) :=
      knows_element held within fun value found => Array.mem_of_getElem? found
    refine upholds_bind (upholds_updateElements within ?_) ?_
    · intro elements other member
      obtain ⟨position, _, same⟩ := Array.mem_extract_iff_getElem.mp member
      exact .inl (same ▸ Array.getElem_mem _)
    · intro later _ grown _
      exact upholds_pure fun last more => knowsFirst.mono (grown.trans more)
  · exact upholds_throw (bounds.ordinary _ rfl)

end Run

end Script
