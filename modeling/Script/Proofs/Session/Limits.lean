import Mathlib
import Script.Proofs.Eval.Rewriting

/-!
# Runs that come to no limit

How deep calls may nest is a property of the machine, not of the program. A run that does not ask
for more is the same for every machine that allows as much, and how many rounds its loops may make
does not matter either, once they are enough.

* `Program.run_of_tighter`: a program under tighter limits is stopped or does the same;
* `Session.run_of_tighter`: a run that a limit does not stop is the same under a wider one;
* `depth_limit_unobservable`: a run that ends without coming to the limit of depth ends alike under
  every higher one, and in no other way.
-/

namespace Script

open Run

/-! ## Tighter limits -/

/-- Two runs in the same store, of which the first may be stopped by some faults. -/
def Comparison.stopping (stops : Fault → Prop) : Comparison Unit :=
  .ofStores (fun store other => other = store) stops

section

variable {stops : Fault → Prop}

/-- What knows no limits does the same in both runs. -/
theorem compares_self {α : Type} {w : Unit} (run : Run α) :
    Compares (.stopping stops) w same run run := by
  rintro _ store rfl
  cases run store with
  | ok value after => exact .ok ((Comparison.stopping stops).refl w) rfl rfl
  | error fault after => exact .error ⟨rfl, rfl⟩

theorem Comparison.stopping_stepwise : (Comparison.stopping stops).Stepwise {} where
  contents := by
    rintro _ _ store rfl
    exact ⟨rfl, rfl, fun _ => rfl⟩
  arrays := by
    rintro _ _ store rfl _
    rfl
  objects := by
    rintro _ _ store rfl _
    rfl
  prints := by
    rintro _ _ store rfl _
    rfl
  functions := by
    rintro _ _ store rfl id
    cases store.functions[id]? with
    | none => exact .none
    | some function => exact .some (Rewriting.callable_nothing function).symm
  later _ related := related
  builtins _ _ _ := rfl
  newFunction := by
    rintro _ function _ rfl
    rw [Rewriting.callable_nothing]
    exact compares_self _
  lookup _ _ _ := compares_self _
  define _ _ _ _ _ := compares_self _
  declare _ _ _ _ _ := compares_self _
  assign _ _ _ _ := compares_self _
  openScope _ _ := compares_self _

/-- A program under tighter limits does what it does under wider ones, unless it is stopped. -/
theorem Program.run_of_tighter {limits wider : Limits} (tighter : limits.Tighter stops wider)
    (program : Program) :
    Compares (.stopping stops) () Run.same (program.run limits) (program.run wider) := by
  refine compares_then (compares_self _) fun w _ _ => ?_
  have rest := rest_compares (w := w) Comparison.stopping_stepwise tighter .zero program.body
  rw [Rewriting.block_nothing] at rest
  exact rest

end

namespace Session

/-- A run that a limit does not stop is the same under a wider one: its result, and all that it
leaves behind. -/
theorem run_of_tighter {session after : Session} {program : Program}
    {result : Except Fault String} {limits wider : Limits} {stop : Fault}
    (tighter : limits.Tighter (· = stop) wider)
    (run : session.run limits program = (result, after)) (unstopped : result ≠ .error stop) :
    session.run wider program = (result, after) := by
  rw [← run]
  have ends := program.run_of_tighter tighter session.store _ rfl
  unfold Session.run at run ⊢
  generalize program.run limits session.store = ended at ends run ⊢
  generalize program.run wider session.store = endedWider at ends ⊢
  cases ends with
  | ok _ values stores =>
    cases values
    cases stores
    rfl
  | error fails =>
    obtain ⟨rfl, rfl⟩ := fails
    rfl
  | excused stopped =>
    cases stopped
    exact absurd (Prod.mk.inj run).1.symm unstopped

/-- A run ends with a result and leaves a session behind, however many rounds its loops make. -/
def Ends (depth : Nat) (session : Session) (program : Program) (result : Except Fault String)
    (after : Session) : Prop :=
  ∃ rounds, session.run ⟨depth, rounds⟩ program = (result, after) ∧ result ≠ .error .loopRounds

namespace Ends

variable {session after other : Session} {program : Program}
  {result found : Except Fault String} {depth deeper : Nat}

theorem deepen (ends : session.Ends depth program result after) (le : depth ≤ deeper)
    (reached : result ≠ .error .callDepth) : session.Ends deeper program result after := by
  obtain ⟨rounds, run, enough⟩ := ends
  have tighter : Limits.Tighter (· = .callDepth) ⟨depth, rounds⟩ ⟨deeper, rounds⟩ :=
    ⟨.of_le le rfl, .refl _ _⟩
  exact ⟨rounds, run_of_tighter tighter run reached, enough⟩

/-- More rounds do not change how a run ends. -/
theorem of_rounds {rounds more : Nat} (run : session.run ⟨depth, rounds⟩ program = (result, after))
    (enough : result ≠ .error .loopRounds) (le : rounds ≤ more) :
    session.run ⟨depth, more⟩ program = (result, after) := by
  have tighter : Limits.Tighter (· = .loopRounds) ⟨depth, rounds⟩ ⟨depth, more⟩ :=
    ⟨.refl _ _, .of_le le rfl⟩
  exact run_of_tighter tighter run enough

/-- A run ends in one way at most. -/
theorem unique (one : session.Ends depth program result after)
    (two : session.Ends depth program found other) : found = result ∧ other = after := by
  obtain ⟨rounds, run, enough⟩ := one
  obtain ⟨more, runOther, enoughOther⟩ := two
  -- both are the run with the larger number of rounds
  have left := of_rounds run enough (Nat.le_max_left rounds more)
  have right := of_rounds runOther enoughOther (Nat.le_max_right rounds more)
  exact Prod.mk.inj (right.symm.trans left)

end Ends

end Session

/-- A run that ends with output, or with any fault but that of too deep calls, ends under every
higher limit of depth with the same output or fault, and leaves the same scopes, arrays, objects,
functions, printed lines and last value behind. -/
theorem depth_limit_unobservable {session after : Session} {program : Program}
    {result : Except Fault String} {depth deeper : Nat} (le : depth ≤ deeper)
    (ends : session.Ends depth program result after) (reached : result ≠ .error .callDepth) :
    session.Ends deeper program result after ∧
    ∀ found other, session.Ends deeper program found other → found = result ∧ other = after := by
  have deep := ends.deepen le reached
  exact ⟨deep, fun _ _ => deep.unique⟩

/-- A procedure that calls itself once, from a loop, prints a line and fails in the inner call. -/
def nestedProgram : Program :=
  ⟨⟨1, 1⟩, [
    .procedure ⟨1, 1⟩ "f" ["x"] [
      .incase ⟨2, 3⟩ (.identifier ⟨2, 11⟩ "x") [
        .expression (.call ⟨3, 5⟩
          (.member ⟨3, 5⟩ (.member ⟨3, 5⟩ (.identifier ⟨3, 5⟩ "System") "out") "console")
          [.identifier ⟨3, 24⟩ "x"]),
        .expression (.call ⟨4, 5⟩ (.identifier ⟨4, 5⟩ "f")
          [.unary ⟨4, 7⟩ .not (.identifier ⟨4, 8⟩ "x")])]
        (.block [.expression (.identifier ⟨6, 5⟩ "y")])],
    .through ⟨9, 1⟩ "e" true (.array ⟨9, 24⟩ [.boolean ⟨9, 25⟩ true]) [
      .expression (.call ⟨9, 33⟩ (.identifier ⟨9, 33⟩ "f") [.identifier ⟨9, 35⟩ "e"])]]⟩

/-- The program asks for two nested calls. One is not enough, and two are as good as any number. -/
theorem nestedProgram_ends :
    let after := (Session.start.run ⟨2, 2⟩ nestedProgram).2
    (Session.start.run ⟨1, 2⟩ nestedProgram).1 = .error .callDepth ∧
    Session.start.Ends 2 nestedProgram (.error (.name (.undefined "y"))) after ∧
    after.store.output = #["true"] ∧
    Session.start.Ends 500 nestedProgram (.error (.name (.undefined "y"))) after := by
  intro after
  have failed : (Session.start.run ⟨2, 2⟩ nestedProgram).1 =
      .error (.name (.undefined "y")) := by cbv
  have printed : (Session.start.run ⟨2, 2⟩ nestedProgram).2.store.output = #["true"] := by cbv
  have ends : Session.start.Ends 2 nestedProgram (.error (.name (.undefined "y"))) after :=
    ⟨2, Prod.ext failed rfl, fun same => by cases same⟩
  have le : 2 ≤ 500 := by decide
  have deep := depth_limit_unobservable le ends fun same => by cases same
  exact ⟨by cbv, ends, printed, deep.1⟩

end Script
