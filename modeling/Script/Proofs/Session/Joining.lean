import Mathlib
import Script.Proofs.Eval.Mirror
import Script.Proofs.Parse.Joining
import Script.Session

/-!
# One run or two

A source text may be cut between statements: to run the two parts one after the other in a session
is to run the whole. The second part starts where the first has ended, but with no lines printed
and at other positions, which running does not see. Only the value of the session tells one run
from two: if the second part fails, then the whole has failed, and the value of the first part is
lost.

* `joined_run_agrees`: what the run of the whole has in common with the runs of its parts.
-/

namespace Script

open Run

/-! ## Blocks one behind the other -/

/-- The second block runs if the first one ends normally, and its value comes first. -/
theorem execBlock_append (call : Call) (rounds : Nat) (scope : ScopeId) (first second : List Stmt) :
    ∀ last, execBlock call rounds scope last (first ++ second) =
      execBlock call rounds scope last first >>= fun signal =>
        match signal with
        | .normal value => execBlock call rounds scope value second
        | signal => pure signal := by
  induction first with
  | nil => exact fun _ => rfl
  | cons s rest ih =>
    intro last
    rw [List.cons_append, execBlock, execBlock, bind_assoc]
    refine bind_congr fun signal => ?_
    cases signal with
    | normal value => exact ih value
    | _ => rfl

/-- The store at the start of a run: nothing is printed. -/
def Store.cleared (store : Store) : Store := { store with output := #[] }

/-- The rest of a program, behind statements that had a value. -/
def runRest (limits : Limits) (value : Value) (rest : List Stmt) : Run Value :=
  execBlock (invoke limits.rounds limits.depth) limits.rounds Store.globalScope value rest >>=
    programResult

theorem Program.run_eq (limits : Limits) (program : Program) (store : Store) :
    program.run limits store = runRest limits .zero program.body store.cleared := rfl

/-- A program runs as its first statements do and, if these succeed, as the others do. -/
theorem Program.run_append (limits : Limits) {program first : Program} {rest : List Stmt}
    (body : program.body = first.body ++ rest) (store : Store) :
    program.run limits store =
      match first.run limits store with
      | .ok value after => runRest limits value rest after
      | .error fault after => .error fault after := by
  rw [Program.run_eq, Program.run_eq, body]
  unfold runRest
  rw [execBlock_append, bind_assoc]
  generalize execBlock (invoke limits.rounds limits.depth) limits.rounds Store.globalScope .zero
    first.body = head
  simp only [bind, EStateM.bind]
  cases head store.cleared with
  | error fault after => rfl
  | ok signal after => cases signal <;> rfl

/-! ## The second part on its own -/

/-- Two stores have the same scopes, arrays and objects, and the same functions up to positions. -/
structure Store.Alike (store other : Store) : Prop where
  scopes : other.scopes = store.scopes
  arrays : other.arrays = store.arrays
  objects : other.objects = store.objects
  functions : other.functions.map Callable.erase = store.functions.map Callable.erase

/-- Two runs end alike, and the second one has printed some lines before. Their values are the same
if these count. -/
inductive Continues (earlier : Array String) (counts : Prop) :
    EStateM.Result Fault Store Value → EStateM.Result Fault Store Value → Prop
  | ok {value result store other} : (counts → result = value) → store.Alike other →
      other.output = earlier ++ store.output →
      Continues earlier counts (.ok value store) (.ok result other)
  | error {fault store other} : store.Alike other → other.output = earlier ++ store.output →
      Continues earlier counts (.error fault store) (.error fault other)

/-- The rest of a program at other positions goes in the other store as the rest in the store. -/
theorem runRest_mirrored (mirror : Mirror) (limits : Limits) (value : Value) (rest : List Stmt)
    (store : Store) :
    runRest limits value (relocateBlock mirror.shift rest) (mirror.store store) =
      mirror.outcome (runRest limits value rest store) := by
  have compares := rest_compares (w := ()) mirror.stepwise (.refl _ limits) value rest
  rw [Rewriting.block_shift] at compares
  exact mirror.outcome_eq compares store

/-- Stores that are the same without positions and with some lines before the output of one. -/
theorem Store.alike_of_mirrored {shift : Position → Position} {earlier : Array String}
    {store other : Store}
    (same : Mirror.store ⟨shift, #[]⟩ other = Mirror.store ⟨shift, earlier⟩ store) :
    store.Alike other ∧ other.output = earlier ++ store.output := by
  have functions := congrArg Store.functions same
  have erased := congrArg (Array.map Callable.erase) functions
  refine ⟨⟨?_, ?_, ?_, ?_⟩, ?_⟩
  · exact (congrArg Store.scopes same :)
  · exact (congrArg Store.arrays same :)
  · exact (congrArg Store.objects same :)
  · simpa [Mirror.store, Callable.erase_relocate, Function.comp_def] using erased
  · simpa [Mirror.store] using congrArg Store.output same

/-- Statements at other positions, behind some printed lines, continue as they do on their own. -/
theorem continues_runRest (limits : Limits) (value : Value) (rest : List Stmt)
    (shift : Position → Position) (store : Store) {counts : Prop} :
    Continues store.output counts (runRest limits value rest store.cleared)
      (runRest limits value (relocateBlock shift rest) store) := by
  -- both are compared with the run that has no positions at all
  have own := runRest_mirrored ⟨fun _ => default, store.output⟩ limits value rest store.cleared
  have moved := runRest_mirrored ⟨fun _ => default, #[]⟩ limits value (relocateBlock shift rest)
    store
  have start : Mirror.store ⟨fun _ => default, #[]⟩ store =
      Mirror.store ⟨fun _ => default, store.output⟩ store.cleared := by
    simp [Mirror.store, Store.cleared]
  rw [start, relocateBlock_relocate] at moved
  have same := moved.symm.trans own
  generalize runRest limits value (relocateBlock shift rest) store = whole at same
  generalize runRest limits value rest store.cleared = part at same
  cases whole with
  | ok result other =>
    cases part with
    | ok _ after =>
      obtain ⟨rfl, stores⟩ := EStateM.Result.ok.inj same
      obtain ⟨alike, output⟩ := Store.alike_of_mirrored stores
      exact .ok (fun _ => rfl) alike output
    | error => cases same
  | error fault other =>
    cases part with
    | ok => cases same
    | error _ after =>
      obtain ⟨rfl, stores⟩ := EStateM.Result.error.inj same
      obtain ⟨alike, output⟩ := Store.alike_of_mirrored stores
      exact .error alike output

/-- A program continues, behind a value and some printed lines, as it runs on its own. -/
theorem Program.continues_run (limits : Limits) (value : Value) (program : Program)
    (shift : Position → Position) (store : Store) :
    Continues store.output (program.body ≠ []) (program.run limits store)
      (runRest limits value (relocateBlock shift program.body) store) := by
  rw [Program.run_eq]
  cases body : program.body with
  | nil => exact .ok (fun some => absurd rfl some) ⟨rfl, rfl, rfl, rfl⟩ (Array.append_empty).symm
  | cons s rest =>
    -- the value of a statement takes the place of any before it
    exact continues_runRest limits .zero (s :: rest) shift store

/-! ## Sessions -/

namespace Session

variable {limits : Limits}

theorem run_of_ok {session : Session} {program : Program} {value : Value} {after : Store}
    (ran : program.run limits session.store = .ok value after) :
    session.run limits program = (.ok (Session.mk after value).output, ⟨after, value⟩) := by
  unfold Session.run
  rw [ran]

theorem run_of_error {session : Session} {program : Program} {fault : Fault} {after : Store}
    (ran : program.run limits session.store = .error fault after) :
    session.run limits program = (.error fault, ⟨after, session.last⟩) := by
  unfold Session.run
  rw [ran]

/-- What a session has after a program that continued, behind some printed lines, as another one
ran in a session of its own. -/
theorem run_of_continues {session after : Session} {program other : Program}
    {earlier : Array String} {counts : Prop}
    (continues : Continues earlier counts (other.run limits after.store)
      (program.run limits session.store)) :
    let part := after.run limits other
    let whole := session.run limits program
    whole.2.store.output = earlier ++ part.2.store.output ∧ part.2.store.Alike whole.2.store ∧
      (∀ fault, whole.1 = .error fault ↔ part.1 = .error fault) ∧
      (∀ text, part.1 = .ok text → counts → whole.2.last = part.2.last) ∧
      (∀ fault, part.1 = .error fault → whole.2.last = session.last) := by
  unfold Session.run
  generalize other.run limits after.store = part at continues
  generalize program.run limits session.store = whole at continues
  cases continues with
  | ok agreed alike output =>
    refine ⟨output, alike, fun fault => ⟨?_, ?_⟩, fun _ _ => agreed, ?_⟩
    · intro failed
      cases failed
    · intro failed
      cases failed
    · intro fault failed
      cases failed
  | error alike output =>
    refine ⟨output, alike, fun _ => Iff.rfl, ?_, fun _ _ => rfl⟩
    intro text succeeded
    cases succeeded

end Session

/-- Two texts that compile also compile with a line end between them, to the statements of both.
From every session, if the first part succeeds, then the whole prints the lines of both parts, ends
in the same store up to positions, and fails as the second part does; its value is that of the
second part, if that has statements and succeeds, and the older one if it fails. If the first part
fails, then the whole fails there. -/
theorem joined_run_agrees (a b : String) (first second : Program)
    (compiledFirst : compile a = .ok first) (compiledSecond : compile b = .ok second) :
    ∃ joined, compile (a ++ "\n" ++ b) = .ok joined ∧
      eraseBlock joined.body = eraseBlock first.body ++ eraseBlock second.body ∧
      ∀ (limits : Limits) (session : Session),
        let one := session.run limits first
        let two := one.2.run limits second
        let whole := session.run limits joined
        (∀ text, one.1 = .ok text →
          whole.2.store.output = one.2.store.output ++ two.2.store.output ∧
          two.2.store.Alike whole.2.store ∧
          (∀ fault, whole.1 = .error fault ↔ two.1 = .error fault) ∧
          (∀ text, two.1 = .ok text → second.body ≠ [] → whole.2.last = two.2.last) ∧
          (∀ fault, two.1 = .error fault → whole.2.last = session.last)) ∧
        (∀ fault, one.1 = .error fault → whole = one) := by
  obtain ⟨lines, joined, compiled, body⟩ := compile_join compiledFirst compiledSecond
  refine ⟨joined, compiled, ?_, fun limits session => ?_⟩
  · rw [body, eraseBlock_append, eraseBlock_relocate]
  · have run := Program.run_append limits body session.store
    cases ran : first.run limits session.store with
    | error fault after =>
      simp only [ran] at run
      rw [Session.run_of_error ran, Session.run_of_error run]
      exact ⟨fun _ succeeded => (by cases succeeded), fun _ _ => rfl⟩
    | ok value after =>
      simp only [ran] at run
      have continues := second.continues_run limits value (.down lines) after
      rw [← run] at continues
      rw [Session.run_of_ok ran]
      exact ⟨fun _ _ => Session.run_of_continues continues, fun _ failed => (by cases failed)⟩

/-- Declares a variable. -/
def declaringProgram : Program := ⟨⟨1, 1⟩, [.declare ⟨1, 1⟩ "x" false (.boolean ⟨1, 9⟩ true)]⟩

/-- Reads the variable. -/
def readingProgram : Program := ⟨⟨1, 1⟩, [.expression (.identifier ⟨1, 1⟩ "x")]⟩

/-- The second part finds the variable of the first one, and its value is that of the whole. -/
theorem declaringProgram_joined :
    compile "mut x = true;" = .ok declaringProgram ∧ compile "x;" = .ok readingProgram ∧
      ∃ joined, compile ("mut x = true;" ++ "\n" ++ "x;") = .ok joined ∧
        eraseBlock joined.body =
          eraseBlock declaringProgram.body ++ eraseBlock readingProgram.body ∧
        (Session.start.run ⟨3, 3⟩ joined).2.last = .boolean true := by
  have declares : compile "mut x = true;" = .ok declaringProgram := by cbv
  have reads : compile "x;" = .ok readingProgram := by cbv
  obtain ⟨joined, compiled, body, runs⟩ := joined_run_agrees _ _ _ _ declares reads
  have first : (Session.start.run ⟨3, 3⟩ declaringProgram).1 = .ok "" := by cbv
  have second : ((Session.start.run ⟨3, 3⟩ declaringProgram).2.run ⟨3, 3⟩ readingProgram).1 =
      .ok "" := by cbv
  obtain ⟨_, _, _, value, _⟩ := (runs ⟨3, 3⟩ .start).1 _ first
  have same := value _ second (List.cons_ne_nil _ _)
  refine ⟨declares, reads, joined, compiled, body, same.trans ?_⟩
  cbv

/-- The value `true`, and then the variable that nothing declares. -/
def strayProgram : Program :=
  ⟨⟨1, 1⟩, [.expression (.boolean ⟨1, 1⟩ true), .expression (.identifier ⟨2, 1⟩ "x")]⟩

/-- In two runs the value of the first part stays if the second one fails; in one run it does not,
although there are statements behind it. -/
theorem failed_rest_loses_value :
    ∃ first, compile "true;" = .ok first ∧ compile "x;" = .ok readingProgram ∧
      compile ("true;" ++ "\n" ++ "x;") = .ok strayProgram ∧ readingProgram.body ≠ [] ∧
      (Session.start.run .standard first).1 = .ok "" ∧
      ((Session.start.run .standard first).2.run .standard readingProgram).2.last =
        .boolean true ∧
      (Session.start.run .standard strayProgram).2.last = .null := by
  refine ⟨⟨⟨1, 1⟩, [.expression (.boolean ⟨1, 1⟩ true)]⟩, ?_, ?_, ?_, ?_, ?_, ?_, ?_⟩
  · cbv
  · cbv
  · cbv
  · exact List.cons_ne_nil _ _
  · cbv
  · cbv
  · cbv

end Script
