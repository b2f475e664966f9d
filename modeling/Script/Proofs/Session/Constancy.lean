import Mathlib
import Script.Proofs.Leniency

/-!
# Constants are only checked

Whether a name is constant is looked at in one place, where it is assigned to. So a program whose
constants are all made variables runs as the program does, unless this is refused an assignment to a
constant.

* `constants_only_checked`: the two runs have the same output or fault, and leave stores behind that
  differ in flags only.
-/

namespace Script

open Run

/-- The program with every constant and every constant loop variable made a variable. The names of
procedures stay constant. -/
def Program.withoutConstants (program : Program) : Program :=
  { program with body := reflagBlock (fun _ => false) program.body }

namespace Leniency

/-- Assignments to constants need not be refused. -/
def assignable : Leniency where
  declares := fun _ => false
  Allows constant constant' := constant' = true → constant = true
  Excuses fault := ∃ name, fault = .name (.constant name)
  allows_declares := fun _ absurd => nomatch absurd
  allows_self := fun _ constant => constant
  allows_false := fun {constant'} allowed => by
    cases constant' with
    | false => rfl
    | true => exact nomatch allowed rfl
  excuses_constant := fun _ name => ⟨name, rfl⟩

end Leniency

section Sessions

variable {leniency : Leniency}

/-- A program with other flags ends as the program does, from stores that differ in flags only. -/
theorem Program.run_eases (leniency : Leniency) (limits : Limits) (program : Program) :
    Compares leniency.comparison () Run.same (program.run limits)
      (Program.run limits { program with body := reflagBlock leniency.declares program.body }) := by
  refine compares_then (compares_modify fun _ _ eases => { eases with output := rfl })
    fun _ _ _ => ?_
  have rest := rest_compares (w := ()) leniency.stepwise (.refl _ limits) .zero program.body
  rw [Rewriting.block_flag] at rest
  exact rest

theorem Store.Eases.initial : Store.initial.Eases leniency Store.initial where
  scopes := .refl _
  arrays := rfl
  objects := rfl
  functions := by
    apply Array.toList_inj.mp
    rw [Array.toList_map]
    rfl
  output := rfl

/-- What two sessions have in common of which the second checks less. -/
structure Session.Eases (leniency : Leniency) (session other : Session) : Prop where
  store : session.store.Eases leniency other.store
  last : other.last = session.last

/-- A run in the session that checks less ends as that in the other one, unless that ends with a
fault which is excused. -/
theorem Session.Eases.run {session other : Session} (eases : session.Eases leniency other)
    (limits : Limits) (program : Program)
    (unexcused : ∀ fault, (session.run limits program).1 = .error fault →
      ¬ leniency.Excuses fault) :
    let after := session.run limits program
    let after' := other.run limits
      { program with body := reflagBlock leniency.declares program.body }
    after'.1 = after.1 ∧ after.2.Eases leniency after'.2 := by
  have ends := program.run_eases leniency limits _ _ eases.store
  unfold Session.run at unexcused ⊢
  generalize program.run limits session.store = result at ends unexcused ⊢
  generalize Program.run limits _ other.store = result' at ends ⊢
  cases ends with
  | ok _ values between =>
    cases values
    -- the session's output is that of the store
    refine ⟨?_, between, rfl⟩
    show Except.ok (String.intercalate "\n" _) = Except.ok (String.intercalate "\n" _)
    rw [between.output]
  | error fails =>
    obtain ⟨rfl, between⟩ := fails
    exact ⟨rfl, between, eases.last⟩
  | excused excuses => exact absurd excuses (unexcused _ rfl)

end Sessions

/-- A program that is not refused an assignment to a constant runs as it would without constants:
with the same output or the same fault, and the same last value. The scopes that are left behind
differ only in which names are constant, and the arrays, objects and functions not at all, but for
the declarations inside procedures. -/
theorem constants_only_checked (limits : Limits) (program : Program)
    (unrefused : ∀ name,
      (Session.start.run limits program).1 ≠ .error (.name (.constant name))) :
    let run := Session.start.run limits program
    let other := Session.start.run limits program.withoutConstants
    other.1 = run.1 ∧ other.2.last = run.2.last ∧
    other.2.store.output = run.2.store.output ∧
    other.2.store.scopes.unflagged = run.2.store.scopes.unflagged ∧
    other.2.store.arrays = run.2.store.arrays ∧
    other.2.store.objects = run.2.store.objects ∧
    other.2.store.functions = run.2.store.functions.map (Callable.reflag fun _ => false) := by
  have start : Session.start.Eases .assignable Session.start := ⟨.initial, rfl⟩
  obtain ⟨same, after⟩ := start.run limits program (by
    rintro fault failed ⟨name, rfl⟩
    exact unrefused name failed)
  exact ⟨same, after.last, after.store.output, after.store.scopes.unflagged, after.store.arrays,
    after.store.objects, after.store.functions⟩

/-- Constants outside of a procedure, inside of one and in a loop, and a fault in the end. -/
def constantsProgram : Program :=
  ⟨⟨1, 1⟩, [
    .declare ⟨1, 1⟩ "xs" true (.array ⟨1, 12⟩ [.boolean ⟨1, 13⟩ true]),
    .procedure ⟨2, 1⟩ "f" ["x"] [
      .declare ⟨2, 18⟩ "y" true (.identifier ⟨2, 28⟩ "x"),
      .returns ⟨2, 31⟩ (.identifier ⟨2, 39⟩ "y")],
    .through ⟨3, 1⟩ "e" true (.identifier ⟨3, 24⟩ "xs") [
      .expression (.call ⟨3, 30⟩
        (.member ⟨3, 30⟩ (.member ⟨3, 30⟩ (.identifier ⟨3, 30⟩ "System") "out") "console")
        [.call ⟨3, 49⟩ (.identifier ⟨3, 49⟩ "f") [.identifier ⟨3, 51⟩ "e"]])],
    .assign ⟨4, 1⟩ "z" (.null ⟨4, 5⟩)]⟩

/-- The program prints a line and fails with and without constants. -/
theorem constantsProgram_fails :
    let other := Session.start.run ⟨3, 3⟩ constantsProgram.withoutConstants
    other.1 = .error (.name (.undefined "z")) ∧ other.2.store.output = #["true"] := by
  have failed : (Session.start.run ⟨3, 3⟩ constantsProgram).1 =
      .error (.name (.undefined "z")) := by cbv
  have printed : (Session.start.run ⟨3, 3⟩ constantsProgram).2.store.output = #["true"] := by cbv
  obtain ⟨same, _, output, _⟩ := constants_only_checked ⟨3, 3⟩ constantsProgram (by
    intro name refused
    rw [failed] at refused
    cases refused)
  exact ⟨same.trans failed, output.trans printed⟩

end Script
