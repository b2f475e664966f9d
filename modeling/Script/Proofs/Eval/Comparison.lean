import Script.Session
import Script.Proofs.Value.Contents

/-!
# Comparing two runs

Two computations are compared from stores that belong together. A `Comparison` says which stores do,
with which faults both may fail, and after which faults of the first run nothing is asked of the
second. What belongs together may depend on what was made on the way, such as scopes: that is a
world, and worlds grow. `Run.Compares` says of two computations that from any such stores they end
alike.

The steps are proved once for every comparison: sequences, loops, and, if stores that belong
together have the same contents (`Comparison.Faithful`), all that reads and writes arrays and
objects and prints. One comparison differs from another in names, scopes and functions only.

* `compares_bind`: what goes on alike behind computations that compare.
* `compares_countingLoop`, `compares_throughLoop`: loops, of which the first may be allowed fewer
  rounds if it is excused from going on.
* `compares_procedure`: calls, of which the first may be allowed to nest less deep.
-/

namespace Script

/-! ## Limits -/

/-- A bound is another one, or it is lower and then a run may be stopped by it. -/
structure Narrower (stop : Prop) (bound wider : Nat) : Prop where
  le : bound ≤ wider
  stops : bound < wider → stop

namespace Narrower

variable {stop : Prop} {bound wider : Nat}

theorem refl (stop : Prop) (bound : Nat) : Narrower stop bound bound :=
  ⟨Nat.le_refl _, fun less => absurd less (Nat.lt_irrefl _)⟩

theorem of_le (le : bound ≤ wider) (stops : stop) : Narrower stop bound wider :=
  ⟨le, fun _ => stops⟩

/-- Where nothing is left of the lower bound, nothing is left of either or the run is stopped. -/
theorem of_zero (narrower : Narrower stop 0 wider) : wider = 0 ∨ stop := by
  cases wider with
  | zero => exact .inl rfl
  | succ wider => exact .inr (narrower.stops (Nat.succ_pos _))

theorem of_succ (narrower : Narrower stop (bound + 1) wider) :
    ∃ less, wider = less + 1 ∧ Narrower stop bound less := by
  obtain ⟨le, stops⟩ := narrower
  cases wider with
  | zero => exact absurd le (Nat.not_succ_le_zero _)
  | succ less =>
    exact ⟨less, rfl, Nat.le_of_succ_le_succ le, fun lower => stops (Nat.succ_lt_succ lower)⟩

end Narrower

/-- Limits that may stop a run earlier than others do, with some faults. -/
structure Limits.Tighter (stops : Fault → Prop) (limits wider : Limits) : Prop where
  depth : Narrower (stops .callDepth) limits.depth wider.depth
  rounds : Narrower (stops .loopRounds) limits.rounds wider.rounds

theorem Limits.Tighter.refl (stops : Fault → Prop) (limits : Limits) :
    limits.Tighter stops limits :=
  ⟨.refl _ _, .refl _ _⟩

/-! ## Comparisons -/

/-- How two runs compare. -/
structure Comparison (World : Type) where
  /-- What was made on the way. -/
  Grows : World → World → Prop
  /-- The stores of the two runs that belong together. -/
  Stores : World → Store → Store → Prop
  /-- The faults that belong together, with the stores that they leave behind. -/
  Fails : Fault → Store → Fault → Store → Prop
  /-- The faults of the first run after which the second may do anything. -/
  Excuses : Fault → Prop
  refl : ∀ w, Grows w w
  trans : ∀ {first second third}, Grows first second → Grows second third → Grows first third
  fails : ∀ {w store other}, Stores w store other → ∀ fault, Fails fault store fault other

/-- Stores that belong together wherever the two runs are, and the same faults. -/
def Comparison.ofStores (Stores : Store → Store → Prop) (Excuses : Fault → Prop) :
    Comparison Unit where
  Grows _ _ := True
  Stores _ := Stores
  Fails fault store found other := found = fault ∧ Stores store other
  Excuses := Excuses
  refl _ := trivial
  trans _ _ := trivial
  fails stores _ := ⟨rfl, stores⟩

variable {World : Type} {c : Comparison World} {w : World}

namespace Run

variable {α β : Type} {wanted : World → α → α → Prop} {goal : World → β → β → Prop}

/-- What comes of two computations that began in a world: results as wanted, in a larger world, or
faults. -/
inductive EndsAlike (c : Comparison World) (w : World) (wanted : World → α → α → Prop) :
    EStateM.Result Fault Store α → EStateM.Result Fault Store α → Prop
  | ok {w' value value' store store'} : c.Grows w w' → wanted w' value value' →
      c.Stores w' store store' → EndsAlike c w wanted (.ok value store) (.ok value' store')
  | error {fault fault' store store'} : c.Fails fault store fault' store' →
      EndsAlike c w wanted (.error fault store) (.error fault' store')
  /-- From here on the second computation may do anything. -/
  | excused {fault store result} : c.Excuses fault →
      EndsAlike c w wanted (.error fault store) result

/-- From all stores that belong together, two computations end alike. -/
def Compares (c : Comparison World) (w : World) (wanted : World → α → α → Prop)
    (run run' : Run α) : Prop :=
  ∀ store store', c.Stores w store store' → EndsAlike c w wanted (run store) (run' store')

/-- The second result is made from the first. -/
def through (f : α → α) : World → α → α → Prop := fun _ value value' => value' = f value

/-- The results are equal. -/
def same : World → α → α → Prop := through id

/-- What began in a larger world may have begun in a smaller one. -/
theorem EndsAlike.mono {w' : World} (grows : c.Grows w w')
    {result result' : EStateM.Result Fault Store α} (ends : EndsAlike c w' wanted result result') :
    EndsAlike c w wanted result result' := by
  cases ends with
  | ok more holds stores => exact .ok (c.trans grows more) holds stores
  | error fails => exact .error fails
  | excused excuses => exact .excused excuses

/-! ## Sequences -/

theorem compares_pure {value value' : α} (holds : wanted w value value') :
    Compares c w wanted (pure value) (pure value') :=
  fun _ _ stores => .ok (c.refl w) holds stores

/-- Both fail with the same fault. -/
theorem compares_throw (fault : Fault) : Compares c w wanted (throw fault) (throw fault) :=
  fun _ _ stores => .error (c.fails stores fault)

theorem compares_excused {fault : Fault} (excuses : c.Excuses fault) (other : Run α) :
    Compares c w wanted (throw fault) other :=
  fun _ _ _ => .excused excuses

/-- What goes on starts in the world that the first computations led to. If they fail, neither goes
on. -/
theorem compares_bind {first first' : Run α} {next next' : α → Run β}
    (head : Compares c w wanted first first')
    (tail : ∀ w' value value', c.Grows w w' → wanted w' value value' →
      Compares c w' goal (next value) (next' value')) :
    Compares c w goal (first >>= next) (first' >>= next') := by
  intro store store' stores
  have ends := head store store' stores
  show EndsAlike c w goal (EStateM.bind first next store) (EStateM.bind first' next' store')
  simp only [EStateM.bind]
  generalize first store = result at ends ⊢
  generalize first' store' = result' at ends ⊢
  cases ends with
  -- both go on, in the world that the first computations led to
  | ok grows holds between => exact (tail _ _ _ grows holds _ _ between).mono grows
  | error fails => exact .error fails
  | excused excuses => exact .excused excuses

/-- What goes on with a result that was changed in the second run. -/
theorem compares_through {f : α → α} {first first' : Run α} {next next' : α → Run β}
    (head : Compares c w (through f) first first')
    (tail : ∀ w' value, c.Grows w w' → Compares c w' goal (next value) (next' (f value))) :
    Compares c w goal (first >>= next) (first' >>= next') := by
  refine compares_bind head ?_
  rintro w' value _ grows rfl
  exact tail w' value grows

/-- What goes on with the same result in both runs. -/
theorem compares_then {first first' : Run α} {next next' : α → Run β}
    (head : Compares c w same first first')
    (tail : ∀ w' value, c.Grows w w' → Compares c w' goal (next value) (next' value)) :
    Compares c w goal (first >>= next) (first' >>= next') :=
  compares_through head tail

/-- What goes on with the stores as they are. -/
theorem compares_get_bind {next next' : Store → Run α}
    (tail : ∀ store store', c.Stores w store store' →
      Compares c w wanted (next store) (next' store')) :
    Compares c w wanted (get >>= next) (get >>= next') :=
  fun store store' stores => tail store store' stores store store' stores

/-- A change that keeps together what belongs together. -/
theorem compares_modifyGet {change change' : Store → α × Store}
    (step : ∀ store store', c.Stores w store store' →
      wanted w (change store).1 (change' store').1 ∧
        c.Stores w (change store).2 (change' store').2) :
    Compares c w wanted (modifyGet change) (modifyGet change') := by
  intro store store' stores
  obtain ⟨holds, after⟩ := step store store' stores
  exact .ok (c.refl w) holds after

theorem compares_modify {change change' : Store → Store}
    (step : ∀ store store', c.Stores w store store' →
      c.Stores w (change store) (change' store')) :
    Compares c w same (modify change : Run PUnit) (modify change') :=
  compares_modifyGet fun store store' stores => ⟨rfl, step store store' stores⟩

theorem compares_lift (result : Except Fault α) :
    Compares c w same (lift result) (lift result) := by
  cases result with
  | ok value => exact compares_pure rfl
  | error fault => exact compares_throw fault

/-! ## Signals and conditions -/

theorem compares_truth (clause : Clause) (value : Value) :
    Compares c w same (truth clause value) (truth clause value) := by
  cases value with
  | boolean b => exact compares_pure rfl
  | _ => exact compares_throw _

theorem compares_callResult (signal : Signal) :
    Compares c w same (callResult signal) (callResult signal) := by
  cases signal with
  | normal value | returned value => exact compares_pure rfl
  | broke | continued => exact compares_throw _

theorem compares_programResult (signal : Signal) :
    Compares c w same (programResult signal) (programResult signal) := by
  cases signal with
  | normal value => exact compares_pure rfl
  | returned | broke | continued => exact compares_throw _

/-! ## Loops -/

section

variable {rounds more : Nat} (narrower : Narrower (c.Excuses .loopRounds) rounds more)

include narrower

/-- The parts of a loop compare in all worlds that it leads to. -/
theorem compares_countingLoop {condition condition' : Run Bool} {body body' : Run Signal}
    {update update' : Run Unit}
    (tests : ∀ w', c.Grows w w' → Compares c w' same condition condition')
    (bodies : ∀ w', c.Grows w w' → Compares c w' same body body')
    (updates : ∀ w', c.Grows w w' → Compares c w' same update update') :
    Compares c w same (countingLoop condition body update rounds)
      (countingLoop condition' body' update' more) := by
  -- the invariant: the loop is in a world that grew from the first one
  suffices loops : ∀ w', c.Grows w w' → Compares c w' same
      (countingLoop condition body update rounds) (countingLoop condition' body' update' more) from
    loops w (c.refl w)
  induction rounds generalizing more with
  | zero =>
    intro w' _
    rcases narrower.of_zero with rfl | stopped
    · exact compares_throw _
    · exact compares_excused stopped _
  | succ rounds ih =>
    obtain ⟨more, rfl, left⟩ := narrower.of_succ
    intro w' grows
    simp only [countingLoop]
    refine compares_then (tests w' grows) fun w₁ holds grows₁ => ?_
    have grown₁ := c.trans grows grows₁
    split
    · refine compares_then (bodies w₁ grown₁) fun w₂ signal grows₂ => ?_
      have grown₂ := c.trans grown₁ grows₂
      have goesOn : Compares c w₂ same
          (update >>= fun _ => countingLoop condition body update rounds)
          (update' >>= fun _ => countingLoop condition' body' update' more) :=
        compares_then (updates w₂ grown₂) fun w₃ _ grows₃ => ih left w₃ (c.trans grown₂ grows₃)
      cases signal with
      | broke | returned => exact compares_pure rfl
      | normal | continued => exact goesOn
    · exact compares_pure rfl

/-- The array of a loop has the same elements in both runs at every round, since the body may change
it. -/
theorem compares_throughLoop {array : ArrayId} {body body' : Value → Run Signal}
    (elements : ∀ {w' store store'}, c.Stores w' store store' →
      store'.elements array = store.elements array)
    (bodies : ∀ w' element, c.Grows w w' → Compares c w' same (body element) (body' element))
    (index : Nat) :
    Compares c w same (throughLoop array body rounds index)
      (throughLoop array body' more index) := by
  -- the invariant is that of the counting loop, at any index
  suffices loops : ∀ w' index, c.Grows w w' → Compares c w' same
      (throughLoop array body rounds index) (throughLoop array body' more index) from
    loops w index (c.refl w)
  induction rounds generalizing more with
  | zero =>
    intro w' index _
    rcases narrower.of_zero with rfl | stopped
    · exact compares_throw _
    · exact compares_excused stopped _
  | succ rounds ih =>
    obtain ⟨more, rfl, left⟩ := narrower.of_succ
    intro w' index grows
    simp only [throughLoop]
    -- both loops read the array as it is, which is the same in both runs
    refine compares_get_bind fun store store' stores => ?_
    rw [elements stores]
    cases (store.elements array)[index]? with
    | none => exact compares_pure rfl
    | some element =>
      refine compares_then (bodies w' element grows) fun w₁ signal grows₁ => ?_
      cases signal with
      | broke | returned => exact compares_pure rfl
      | normal | continued => exact ih left w₁ (index + 1) (c.trans grows grows₁)

end

/-! ## Calls -/

/-- Opens the scope of a call and binds the parameters there. -/
def enter (scope : ScopeId) (entries : List (String × Value)) : Run ScopeId := do
  let frame ← openScope scope
  bindParameters frame entries
  return frame

/-- A call checks the number of arguments and the depth, and enters the scope of the call. -/
theorem invoke_procedure (rounds depth : Nat) (procedure : Procedure) (arguments : List Value) :
    invoke rounds depth (.procedure procedure) arguments =
      if arguments.length ≠ procedure.parameters.length then
        throw (.argumentCount procedure.parameters.length arguments.length)
      else
        match depth with
        | 0 => throw .callDepth
        | depth + 1 =>
          enter procedure.scope (procedure.parameters.zip arguments) >>= fun frame =>
            execBlock (invoke rounds depth) rounds frame .zero procedure.body >>= callResult := by
  unfold invoke enter
  cases depth with
  | zero => rfl
  | succ depth => simp only [bind_assoc, pure_bind]

/-- Calls of two procedures compare if entering their scopes does and, one call deeper, running
their bodies there. -/
theorem compares_procedure {procedure procedure' : Procedure} {arguments : List Value}
    {opened : World → ScopeId → ScopeId → Prop} {rounds more depth deeper : Nat}
    (shallower : Narrower (c.Excuses .callDepth) depth deeper)
    (count : procedure'.parameters.length = procedure.parameters.length)
    (enters : arguments.length = procedure.parameters.length → Compares c w opened
      (enter procedure.scope (procedure.parameters.zip arguments))
      (enter procedure'.scope (procedure'.parameters.zip arguments)))
    (bodies : ∀ less fewer, depth = less + 1 → deeper = fewer + 1 →
      Narrower (c.Excuses .callDepth) less fewer →
      ∀ w' frame frame', opened w' frame frame' → Compares c w' same
        (execBlock (invoke rounds less) rounds frame .zero procedure.body)
        (execBlock (invoke more fewer) more frame' .zero procedure'.body)) :
    Compares c w same (invoke rounds depth (.procedure procedure) arguments)
      (invoke more deeper (.procedure procedure') arguments) := by
  simp only [invoke_procedure, count]
  by_cases fits : arguments.length = procedure.parameters.length
  · rw [if_neg (not_not_intro fits), if_neg (not_not_intro fits)]
    -- the arguments fit, so the limit is what is looked at next
    cases depth with
    | zero =>
      rcases shallower.of_zero with rfl | stopped
      · exact compares_throw _
      · exact compares_excused stopped _
    | succ less =>
      obtain ⟨fewer, rfl, left⟩ := shallower.of_succ
      refine compares_bind (enters fits) fun w₁ frame frame' _ isOpened => ?_
      exact compares_then (bodies less fewer rfl rfl left w₁ frame frame' isOpened)
        fun _ signal _ => compares_callResult signal
  · rw [if_pos fits, if_pos fits]
    exact compares_throw _

end Run

/-! ## Stores with the same contents -/

open Run

/-- Stores that belong together have the same arrays, objects and texts of functions, and still
belong together when the same is done to arrays, objects and output. Functions belong together as
well, and a built-in one with itself. -/
structure Comparison.Faithful (c : Comparison World)
    (Functions : World → Callable → Callable → Prop) : Prop where
  contents : ∀ {w store store'}, c.Stores w store store' → store.SameContents store'
  arrays : ∀ {w store store'}, c.Stores w store store' → ∀ arrays,
    c.Stores w { store with arrays } { store' with arrays }
  objects : ∀ {w store store'}, c.Stores w store store' → ∀ objects,
    c.Stores w { store with objects } { store' with objects }
  prints : ∀ {w store store'}, c.Stores w store store' → ∀ line,
    c.Stores w { store with output := store.output.push line }
      { store' with output := store'.output.push line }
  functions : ∀ {w store store'}, c.Stores w store store' → ∀ id : FunctionId,
    Option.Rel (Functions w) store.functions[id]? store'.functions[id]?
  later : ∀ {w w' function function'}, c.Grows w w' → Functions w function function' →
    Functions w' function function'
  builtins : ∀ w name action, Functions w (.builtin name action) (.builtin name action)
  newFunction : ∀ {w function function'}, Functions w function function' →
    Compares c w same (newFunction function) (newFunction function')

namespace Comparison.Faithful

variable {Functions : World → Callable → Callable → Prop} (faithful : c.Faithful Functions)

include faithful

/-! ### What operators read -/

/-- An operator reads the contents of arrays and objects only, if anything of the store. -/
theorem binary_bind (operator : BinaryOp) (left right : Value) :
    Compares c w same (do lift ((← get).binary operator left right))
      (do lift ((← get).binary operator left right)) := by
  refine compares_get_bind fun store store' stores => ?_
  rw [(faithful.contents stores).binary]
  exact compares_lift _

/-- What goes on with the text of a value. -/
theorem display_bind {α : Type} {wanted : World → α → α → Prop} (value : Value)
    {next next' : String → Run α} (tail : ∀ text, Compares c w wanted (next text) (next' text)) :
    Compares c w wanted (get >>= fun store => next (store.display value))
      (get >>= fun store => next' (store.display value)) := by
  refine compares_get_bind fun store store' stores => ?_
  rw [(faithful.contents stores).display]
  exact tail _

/-! ### New arrays and objects -/

/-- The next number of an array is the same in both runs. -/
theorem newArray (elements : List Value) :
    Compares c w same (newArray elements) (newArray elements) := by
  refine compares_modifyGet fun store store' stores => ?_
  rw [(faithful.contents stores).arrays]
  exact ⟨rfl, faithful.arrays stores _⟩

theorem newObject (properties : List (String × Value)) :
    Compares c w same (newObject properties) (newObject properties) := by
  refine compares_modifyGet fun store store' stores => ?_
  rw [(faithful.contents stores).objects]
  exact ⟨rfl, faithful.objects stores _⟩

/-! ### Functions and members -/

/-- A value is a function in both runs, or in neither. -/
theorem callable (value : Value) :
    Compares c w Functions (Script.callable value) (Script.callable value) := by
  cases value with
  | function id =>
    refine compares_get_bind fun store store' stores => ?_
    have known := faithful.functions stores id
    revert known
    cases store.functions[id]? <;> cases store'.functions[id]?
    case none.none => exact fun _ => compares_throw _
    case some.some => exact fun | .some related => compares_pure related
    all_goals exact fun known => nomatch known
  | _ => exact compares_throw _

theorem lengthOf (array : ArrayId) : Compares c w same (lengthOf array) (lengthOf array) := by
  refine compares_get_bind fun store store' stores => ?_
  rw [(faithful.contents stores).elements]
  exact compares_pure rfl

theorem readElement (array : ArrayId) (key : String) :
    Compares c w same (readElement array key) (readElement array key) := by
  refine compares_then (compares_lift _) fun _ index _ => ?_
  refine compares_get_bind fun store store' stores => ?_
  rw [(faithful.contents stores).elements]
  exact compares_pure rfl

theorem readProperty (object : ObjectId) (key : String) :
    Compares c w same (readProperty object key) (readProperty object key) := by
  refine compares_get_bind fun store store' stores => ?_
  rw [(faithful.contents stores).properties]
  exact compares_pure rfl

/-- A method becomes a function, which belongs together with itself. -/
theorem readMember (target : Value) (property : String) :
    Compares c w same (readMember target property) (readMember target property) := by
  unfold Run.readMember
  split
  · split
    · exact faithful.lengthOf _
    · split
      · exact faithful.newFunction (faithful.builtins _ _ _)
      · exact faithful.readElement _ _
  · exact faithful.readProperty _ _
  · exact compares_throw _

theorem readComputed (target : Value) (key : String) :
    Compares c w same (readComputed target key) (readComputed target key) := by
  cases target with
  | array id => exact faithful.readElement id key
  | object id => exact faithful.readProperty id key
  | _ => exact compares_throw _

/-! ### Writing members -/

theorem updateElements (array : ArrayId) (change : Array Value → Array Value) :
    Compares c w same (updateElements array change) (updateElements array change) := by
  refine compares_modify fun store store' stores => ?_
  rw [(faithful.contents stores).arrays]
  exact faithful.arrays stores _

theorem writeElement (array : ArrayId) (key : String) (value : Value) :
    Compares c w same (writeElement array key value) (writeElement array key value) := by
  refine compares_then (compares_lift _) fun _ index _ => ?_
  cases index with
  | none => exact compares_throw _
  | some index =>
    refine compares_get_bind fun store store' stores => ?_
    rw [(faithful.contents stores).elements]
    split
    · exact compares_throw _
    · exact faithful.updateElements _ _

theorem writeProperty (object : ObjectId) (key : String) (value : Value) :
    Compares c w same (writeProperty object key value) (writeProperty object key value) := by
  refine compares_modify fun store store' stores => ?_
  rw [(faithful.contents stores).objects]
  exact faithful.objects stores _

theorem writeMember {target value : Value} {key key' : Run String}
    (keys : Compares c w same key key') :
    Compares c w same (writeMember target key value) (writeMember target key' value) := by
  cases target with
  | array id => exact compares_then keys fun _ _ _ => faithful.writeElement _ _ _
  | object id => exact compares_then keys fun _ _ _ => faithful.writeProperty _ _ _
  | _ => exact compares_throw _

/-! ### Built-in functions -/

theorem print (value : Value) : Compares c w same (print value) (print value) := by
  refine compares_modify fun store store' stores => ?_
  rw [(faithful.contents stores).display]
  exact faithful.prints stores _

/-- A method does the same in both runs, and a line is printed in both. -/
theorem builtin (action : Builtin) (arguments : List Value) :
    Compares c w same (builtin action arguments) (builtin action arguments) := by
  -- both ways to take an element out read the array before they change it
  have takes : ∀ (w' : World) (array : ArrayId) (change : Array Value → Array Value)
      (taken : Array Value → Value), Compares c w' same
        (do
          let elements := (← get).elements array
          Run.updateElements array change
          return taken elements)
        (do
          let elements := (← get).elements array
          Run.updateElements array change
          return taken elements) := by
    intro w' array change taken
    refine compares_get_bind fun store store' stores => ?_
    rw [(faithful.contents stores).elements]
    exact compares_then (faithful.updateElements _ _) fun _ _ _ => compares_pure rfl
  unfold Run.builtin
  split
  · exact compares_then (faithful.print _) fun _ _ _ => compares_pure rfl
  · exact compares_then (faithful.updateElements _ _) fun _ _ _ => faithful.lengthOf _
  · exact compares_then (faithful.updateElements _ _) fun _ _ _ => faithful.lengthOf _
  · exact takes w _ _ fun elements => elements.back?.getD .null
  · exact takes w _ _ fun elements => elements[0]?.getD .null
  · exact compares_throw _

end Comparison.Faithful

end Script
