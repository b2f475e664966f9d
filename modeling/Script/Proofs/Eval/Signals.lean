import Mathlib
import Script.Proofs.Eval.Confinement

/-!
# Signals reach their targets

A statement ends with a break, a continue or a return only if its text has one that nothing inside
takes. So if every break and continue lies in a loop, and every return in a procedure, none of them
is ever stray. `Stmt.isPlaced` checks this on the text, and the procedures in the store must have
passed the same check: their bodies run too.

* `signals_reach_targets`: both facts, over all statements and over all runs of programs.
-/

namespace Script

open Run Bounds

/-! ## Placed statements -/

mutual

/-- Whether every break and continue lies in a loop and every return in a procedure, for a
statement that itself lies in a loop or not and in a procedure or not. The body of a procedure
lies in no loop around the procedure. -/
def Stmt.isPlaced (inLoop inProcedure : Bool) : Stmt → Bool
  | .returns _ _ => inProcedure
  | .leave _ => inLoop
  | .proceed _ => inLoop
  | .procedure _ _ _ body => blockIsPlaced false true body
  | .incase _ _ body fallback =>
    blockIsPlaced inLoop inProcedure body && fallback.isPlaced inLoop inProcedure
  | .drift _ init _ update body =>
    init.isPlaced true inProcedure && update.isPlaced true inProcedure &&
      blockIsPlaced true inProcedure body
  | .through _ _ _ _ body => blockIsPlaced true inProcedure body
  | _ => true

/-- Whether every break, continue and return of a fallback is placed. -/
def Fallback.isPlaced (inLoop inProcedure : Bool) : Fallback → Bool
  | .nothing => true
  | .block body => blockIsPlaced inLoop inProcedure body
  | .elif _ _ body fallback =>
    blockIsPlaced inLoop inProcedure body && fallback.isPlaced inLoop inProcedure

/-- Whether every break, continue and return of a block is placed. -/
def blockIsPlaced (inLoop inProcedure : Bool) : List Stmt → Bool
  | [] => true
  | first :: rest => first.isPlaced inLoop inProcedure && blockIsPlaced inLoop inProcedure rest

end

/-- A text is free of stray signals if it is to blame for none. -/
def Steady (blame : List Fault) : Prop := ∀ fault ∈ blame, fault.isStray = false

theorem steady_append {first second : List Fault} :
    Steady (first ++ second) ↔ Steady first ∧ Steady second := List.forall_mem_append

theorem steady_nil : Steady [] := fun _ member => by cases member

mutual

/-- Expressions leave no signals. -/
theorem Expr.steady_blame : ∀ e : Expr, Steady e.blame
  | .number _ _ | .string _ _ | .boolean _ _ | .null _ | .nan _ | .identifier _ _ => steady_nil
  | .array _ elements => steady_elementBlame elements
  | .object _ properties => steady_propertyBlame properties
  | .binary _ operator left right => by
    refine steady_append.mpr ⟨?_, steady_append.mpr ⟨left.steady_blame, right.steady_blame⟩⟩
    cases operator <;> simp [BinaryOp.blame, Steady, Fault.isStray]
  | .unary _ operator operand => by
    refine steady_append.mpr ⟨?_, operand.steady_blame⟩
    cases operator <;> simp [UnaryOp.blame, Steady, Fault.isStray]
  | .member _ object _ => object.steady_blame
  | .computed _ object key => steady_append.mpr ⟨object.steady_blame, key.steady_blame⟩
  | .call _ callee arguments =>
    steady_append.mpr ⟨callee.steady_blame, steady_elementBlame arguments⟩
  | .foreign _ _ => by simp [Expr.blame, Steady, Fault.isStray]

theorem steady_elementBlame : ∀ elements : List Expr, Steady (elementBlame elements)
  | [] => steady_nil
  | e :: rest => steady_append.mpr ⟨e.steady_blame, steady_elementBlame rest⟩

theorem steady_propertyBlame :
    ∀ properties : List (String × Expr), Steady (propertyBlame properties)
  | [] => steady_nil
  | (_, e) :: rest => steady_append.mpr ⟨e.steady_blame, steady_propertyBlame rest⟩

end

/-- Some exits are taken by what lies around: breaks and continues by a loop, returns by a call. -/
def Taken (inLoop inProcedure : Bool) (exits : List Exit) : Prop :=
  ∀ exit ∈ exits, if exit = .returns then inProcedure = true else inLoop = true

theorem taken_nil {inLoop inProcedure : Bool} : Taken inLoop inProcedure [] :=
  fun _ member => by cases member

theorem taken_append {inLoop inProcedure : Bool} {first second : List Exit} :
    Taken inLoop inProcedure (first ++ second) ↔
      Taken inLoop inProcedure first ∧ Taken inLoop inProcedure second := List.forall_mem_append

/-- A loop takes breaks and continues. -/
theorem Taken.ofLoop {inLoop inProcedure : Bool} {exits : List Exit}
    (taken : Taken true inProcedure exits) : Taken inLoop inProcedure (Exit.ofLoop exits) := by
  intro exit member
  obtain ⟨inside, rfl⟩ := Exit.mem_ofLoop.mp member
  exact taken .returns inside

/-- What is left when calls take returns, where no loop takes the rest. -/
theorem Taken.steady {exits : List Exit} (taken : Taken false true exits) :
    Steady ((Exit.ofCall exits).map Exit.stray) := by
  intro fault member
  obtain ⟨exit, left, _⟩ := List.mem_map.mp member
  obtain ⟨inside, other⟩ := Exit.mem_ofCall.mp left
  have inLoop := taken exit inside
  rw [if_neg other] at inLoop
  cases inLoop

mutual

/-- What leaves a placed statement is taken by what lies around it, and nothing in it is stray. -/
theorem Stmt.taken_of_isPlaced {inLoop inProcedure : Bool} :
    ∀ s : Stmt, s.isPlaced inLoop inProcedure = true →
      Taken inLoop inProcedure s.exits ∧ Steady s.blame
  | .declare _ _ _ value, _ | .assign _ _ value, _ | .expression value, _ =>
    ⟨taken_nil, value.steady_blame⟩
  | .assignMember _ object _ value, _ =>
    ⟨taken_nil,
      steady_append.mpr ⟨object.steady_blame, value.steady_blame⟩⟩
  | .assignComputed _ object key value, _ =>
    ⟨taken_nil, steady_append.mpr ⟨object.steady_blame,
      steady_append.mpr ⟨key.steady_blame, value.steady_blame⟩⟩⟩
  | .procedure _ _ _ body, placed => by
    obtain ⟨taken, steady⟩ := taken_of_blockIsPlaced body placed
    exact ⟨taken_nil, steady_append.mpr ⟨steady, taken.steady⟩⟩
  | .returns _ value, placed => by
    refine ⟨?_, value.steady_blame⟩
    intro exit member
    rw [List.mem_singleton.mp member]
    exact placed
  | .leave _, placed => by
    refine ⟨?_, steady_nil⟩
    intro exit member
    rw [List.mem_singleton.mp member]
    exact placed
  | .proceed _, placed => by
    refine ⟨?_, steady_nil⟩
    intro exit member
    rw [List.mem_singleton.mp member]
    exact placed
  | .incase _ condition body fallback, placed => by
    obtain ⟨placedBody, placedFallback⟩ := Bool.and_eq_true_iff.mp placed
    obtain ⟨takenBody, steadyBody⟩ := taken_of_blockIsPlaced body placedBody
    obtain ⟨takenFallback, steadyFallback⟩ := fallback.taken_of_isPlaced placedFallback
    exact ⟨taken_append.mpr ⟨takenBody, takenFallback⟩, steady_append.mpr
      ⟨condition.steady_blame, steady_append.mpr ⟨steadyBody, steadyFallback⟩⟩⟩
  | .drift _ init condition update body, placed => by
    obtain ⟨placedHeader, placedBody⟩ := Bool.and_eq_true_iff.mp placed
    obtain ⟨placedInit, placedUpdate⟩ := Bool.and_eq_true_iff.mp placedHeader
    obtain ⟨takenBody, steadyBody⟩ := taken_of_blockIsPlaced body placedBody
    have steadyInit := (init.taken_of_isPlaced placedInit).2
    have steadyUpdate := (update.taken_of_isPlaced placedUpdate).2
    exact ⟨takenBody.ofLoop, steady_append.mpr ⟨steadyInit, steady_append.mpr
      ⟨condition.steady_blame, steady_append.mpr ⟨steadyUpdate, steadyBody⟩⟩⟩⟩
  | .through _ _ _ iterable body, placed => by
    obtain ⟨takenBody, steadyBody⟩ := taken_of_blockIsPlaced body placed
    exact ⟨takenBody.ofLoop, steady_append.mpr ⟨iterable.steady_blame, steadyBody⟩⟩

theorem Fallback.taken_of_isPlaced {inLoop inProcedure : Bool} :
    ∀ fallback : Fallback, fallback.isPlaced inLoop inProcedure = true →
      Taken inLoop inProcedure fallback.exits ∧ Steady fallback.blame
  | .nothing, _ => ⟨taken_nil, steady_nil⟩
  | .block body, placed => taken_of_blockIsPlaced body placed
  | .elif _ condition body fallback, placed => by
    obtain ⟨placedBody, placedFallback⟩ := Bool.and_eq_true_iff.mp placed
    obtain ⟨takenBody, steadyBody⟩ := taken_of_blockIsPlaced body placedBody
    obtain ⟨takenFallback, steadyFallback⟩ := fallback.taken_of_isPlaced placedFallback
    exact ⟨taken_append.mpr ⟨takenBody, takenFallback⟩, steady_append.mpr
      ⟨condition.steady_blame, steady_append.mpr ⟨steadyBody, steadyFallback⟩⟩⟩

theorem taken_of_blockIsPlaced {inLoop inProcedure : Bool} :
    ∀ body : List Stmt, blockIsPlaced inLoop inProcedure body = true →
      Taken inLoop inProcedure (blockExits body) ∧ Steady (blockBlame body)
  | [], _ => ⟨taken_nil, steady_nil⟩
  | first :: rest, placed => by
    obtain ⟨placedFirst, placedRest⟩ := Bool.and_eq_true_iff.mp placed
    obtain ⟨takenFirst, steadyFirst⟩ := first.taken_of_isPlaced placedFirst
    obtain ⟨takenRest, steadyRest⟩ := taken_of_blockIsPlaced rest placedRest
    exact ⟨taken_append.mpr ⟨takenFirst, takenRest⟩,
      steady_append.mpr ⟨steadyFirst, steadyRest⟩⟩

end

/-- A placed procedure is to blame for no stray signal. -/
theorem Procedure.steady_blame {procedure : Procedure}
    (placed : blockIsPlaced false true procedure.body = true) : Steady procedure.blame := by
  obtain ⟨taken, steady⟩ := taken_of_blockIsPlaced procedure.body placed
  exact steady_append.mpr ⟨steady, taken.steady⟩

/-- Nothing leaves the statements of a placed program. -/
theorem Program.steady_blame {program : Program}
    (placed : blockIsPlaced false false program.body = true) : Steady program.blame := by
  obtain ⟨taken, steady⟩ := taken_of_blockIsPlaced program.body placed
  refine steady_append.mpr ⟨steady, ?_⟩
  intro fault member
  obtain ⟨exit, inside, _⟩ := List.mem_map.mp member
  have caught := taken exit inside
  split at caught <;> cases caught

/-! ## Runs -/

/-- Use everything; the faults that may occur are those that come of values and some others. -/
def Bounds.everything (store : Store) (allowed : Fault → Prop)
    (ordinary : ∀ fault : Fault, fault.isOrdinary = true → allowed fault)
    (callable : allowed (.notCallable .function)) : Bounds where
  origin := store
  base := fun _ => True
  allowed := allowed
  ordinary := ordinary
  callable := .inl callable

theorem Bounds.held_everything {store : Store} {allowed : Fault → Prop}
    {ordinary : ∀ fault : Fault, fault.isOrdinary = true → allowed fault}
    {callable : allowed (.notCallable .function)}
    (blameless : ∀ procedure : Procedure, .procedure procedure ∈ store.functions →
      ∀ fault ∈ procedure.blame, allowed fault) :
    (everything store allowed ordinary callable).Held store where
  grown := .refl store
  closed := fun _ _ => .inl trivial
  frame := fun _ _ outside => absurd trivial outside
  blameless := fun _ found => blameless _ (Array.mem_of_getElem? found)

/-- Whether a statement is a loop. -/
def Stmt.isLoop : Stmt → Bool
  | .drift .. | .through .. => true
  | _ => false

theorem Stmt.exits_of_isLoop {s : Stmt} (loop : s.isLoop = true) :
    ∀ exit ∈ s.exits, exit = .returns := by
  intro exit member
  unfold Stmt.isLoop at loop
  split at loop
  · exact (Exit.mem_ofLoop.mp member).2
  · exact (Exit.mem_ofLoop.mp member).2
  · cases loop

/-- A statement ends with an exit only if its text has it. -/
theorem Stmt.signal_of_exec (limits : Limits) (s : Stmt) {scope : ScopeId} {store after : Store}
    {signal : Signal}
    (ended : s.exec (invoke limits.rounds limits.depth) limits.rounds scope store =
      .ok signal after) :
    (signal = .broke → .leave ∈ s.exits) ∧ (signal = .continued → .proceed ∈ s.exits) ∧
      (∀ value, signal = .returned value → .returns ∈ s.exits) := by
  let bounds := everything store (fun _ => True) (fun _ _ => trivial) trivial
  have held : bounds.Held store := held_everything fun _ _ _ _ => trivial
  have upholds := s.exec_upholds (invoke_upholds limits.rounds limits.depth) limits.rounds
    (fun _ _ => trivial) (.inl trivial : bounds.Within store (.scope scope))
  have ends := upholds store (.refl store) held
  rw [ended] at ends
  have fits : signal.Fits bounds s.exits after := ends.2.2
  refine ⟨?_, ?_, ?_⟩
  · rintro rfl
    exact fits
  · rintro rfl
    exact fits
  · rintro value rfl
    exact fits.2

/-- Statements break, continue and return only if their text does so outside the loops and
procedures in it, loops never break or continue, and what is only evaluated, calls among it, gives
no signal. A placed program whose session has placed procedures only never has a stray signal. -/
theorem signals_reach_targets (limits : Limits) :
    (∀ (s : Stmt) (scope : ScopeId) (store after : Store) (signal : Signal),
      s.exec (invoke limits.rounds limits.depth) limits.rounds scope store = .ok signal after →
      (signal = .broke → .leave ∈ s.exits) ∧ (signal = .continued → .proceed ∈ s.exits) ∧
      (∀ value, signal = .returned value → .returns ∈ s.exits) ∧
      (s.isLoop = true → signal ≠ .broke ∧ signal ≠ .continued) ∧
      (s.isExpression = true → ∃ value, signal = .normal value)) ∧
    (∀ (session : Session) (program : Program) (fault : Fault),
      blockIsPlaced false false program.body = true →
      (∀ procedure, .procedure procedure ∈ session.store.functions →
        blockIsPlaced false true procedure.body = true) →
      (session.run limits program).1 = .error fault →
      fault ≠ .strayReturn ∧ fault ≠ .strayBreak ∧ fault ≠ .strayContinue) := by
  refine ⟨?_, ?_⟩
  · intro s scope store after signal ended
    obtain ⟨breaks, continues, returns⟩ := s.signal_of_exec limits ended
    refine ⟨breaks, continues, returns, ?_, ?_⟩
    · intro loop
      refine ⟨fun broke => ?_, fun continued => ?_⟩
      · cases s.exits_of_isLoop loop .leave (breaks broke)
      · cases s.exits_of_isLoop loop .proceed (continues continued)
    · intro expression
      have none : s.exits = [] := by
        cases s with
        | expression value => rfl
        | _ => cases expression
      rw [none] at breaks continues returns
      cases signal with
      | normal value => exact ⟨value, rfl⟩
      | returned value => cases returns value rfl
      | broke => cases breaks rfl
      | continued => cases continues rfl
  · intro session program fault placed stored failed
    let bounds := everything session.store (fun fault => fault.isStray = false)
      (fun fault ordinary => by cases fault <;> first | rfl | cases ordinary) rfl
    have held : bounds.Held session.store :=
      held_everything fun procedure member => Procedure.steady_blame (stored procedure member)
    have allows : ∀ fault ∈ program.blame, bounds.allowed fault := Program.steady_blame placed
    have upholds := program.run_upholds limits allows
      (.inl trivial : bounds.Within session.store (.scope Store.globalScope))
    have steady : fault.isStray = false := Session.allowed_of_run upholds held failed
    refine ⟨?_, ?_, ?_⟩ <;>
    · rintro rfl
      cases steady

/-- `incase (true) { break; }`, which leaves the loop around it. -/
def breakInCase : Stmt := .incase default (.boolean default true) [.leave default] .nothing

/-- A procedure with a loop that breaks and then a return, a call of it, and a name that is not
bound. -/
def placedProgram : Program :=
  ⟨default, [
    .procedure default "f" [] [
      .drift default (.declare default "go" true (.boolean default true)) (.identifier default "go")
        (.expression (.null default)) [breakInCase],
      .returns default (.null default)],
    .expression (.call default (.identifier default "f") []),
    .expression (.identifier default "x")]⟩

theorem placedProgram_keeps_signals :
    (breakInCase.exec (invoke 3 3) 3 Store.globalScope .initial = .ok .broke .initial ∧
      .leave ∈ breakInCase.exits) ∧
    blockIsPlaced false false placedProgram.body = true ∧
      (Session.start.run ⟨3, 3⟩ placedProgram).1 = .error (.name (.undefined "x")) ∧
      Fault.name (.undefined "x") ≠ .strayBreak := by
  obtain ⟨ends, runs⟩ := signals_reach_targets ⟨3, 3⟩
  have broke : breakInCase.exec (invoke 3 3) 3 Store.globalScope .initial =
      .ok .broke .initial := by cbv
  have placed : blockIsPlaced false false placedProgram.body = true := by decide
  have failed : (Session.start.run ⟨3, 3⟩ placedProgram).1 = .error (.name (.undefined "x")) := by
    cbv
  have stored : ∀ procedure, .procedure procedure ∈ Session.start.store.functions →
      blockIsPlaced false true procedure.body = true := by
    intro procedure member
    cases Array.mem_singleton.mp member
  exact ⟨⟨broke, (ends breakInCase _ _ _ _ broke).1 rfl⟩, placed, failed,
    (runs Session.start placedProgram _ placed stored failed).2.1⟩

end Script
