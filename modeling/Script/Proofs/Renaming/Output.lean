import Mathlib
import Script.Proofs.Renaming.Eval
import Script.Session

/-!
# Renaming a parameter keeps the output

Names are bound by the text of a program, not by its calls: a parameter may have any other name
that the program does not use.

* `renaming_parameter_keeps_output`: a program with one parameter renamed prints the same lines,
  and fails, if it fails, with the same fault but for the name.
-/

namespace Script

open Run

variable {r : Renaming} {w : World}

/-- Nothing that exists before the first run lies inside a procedure. -/
theorem Store.initial_relates : Store.initial.Relates r [false] .initial where
  scopes := {
    size := rfl
    size' := rfl
    parent := fun _ => rfl
    binding := by
      intro i inner name side _
      have outside : inner = false := List.mem_singleton.mp (List.mem_of_getElem? side)
      rw [outside, Renaming.change_false]
      rfl
    outer := by
      intro i parent side _ outward
      have last : i < 1 := (List.getElem?_eq_some_iff.mp side).1
      rw [Nat.lt_one_iff.mp last] at outward
      exact absurd outward (Nat.not_lt_zero parent) }
  anchored := by
    intro i inside
    cases List.mem_singleton.mp (List.mem_of_getElem? inside)
  arrays := rfl
  objects := rfl
  output := rfl
  functionCount := rfl
  function := by
    intro id callable found
    refine ⟨callable, found, ?_⟩
    have member : callable ∈ Store.initial.functions := Array.mem_of_getElem? found
    rw [Array.mem_singleton.mp member]
    exact .builtin

/-- Programs with related statements have the same value. -/
theorem relates_run (limits : Limits) {program program' : Program}
    (bodies : BlockRelates r false program.body program'.body)
    (side : w[Store.globalScope]? = some false) :
    Compares r.comparison w same (program.run limits) (program'.run limits) := by
  have calls : CallsRelate r _ _ := invoke_relates limits.rounds limits.depth
  refine Renaming.compares_in side (compares_modify fun _ _ related => { related with
    output := rfl }) fun w₁ _ side => ?_
  exact compares_then (bodies.exec calls limits.rounds .zero side) fun w₂ signal _ =>
    compares_programResult signal

/-- What two programs give: the same text, or faults that differ in the name at most. -/
inductive OutputRelates (r : Renaming) : Except Fault String → Except Fault String → Prop
  | ok {text} : OutputRelates r (.ok text) (.ok text)
  | error {fault fault'} : Fault.Relates r fault fault' →
      OutputRelates r (.error fault) (.error fault')

/-- A session shows of a run no more than its fault and the lines printed. -/
theorem Session.run_relates {limits : Limits} {session : Session} {program program' : Program}
    (ends : EndsAlike r.comparison w same (program.run limits session.store)
      (program'.run limits session.store)) :
    OutputRelates r (session.run limits program).1 (session.run limits program').1 ∧
      (session.run limits program').2.output = (session.run limits program).2.output := by
  unfold Session.run Session.output
  generalize program.run limits session.store = result at ends ⊢
  generalize program'.run limits session.store = result' at ends ⊢
  cases ends with
  | ok _ _ related =>
    simp only [related.output]
    exact ⟨.ok, trivial⟩
  | error fails =>
    obtain ⟨faults, lines⟩ := fails
    simp only [lines]
    exact ⟨.error faults, trivial⟩
  | excused excuses => exact excuses.elim

/-- A program in which a parameter has a name that occurs nowhere gives the same output or the same
fault but for the name, and has printed the same lines by then. -/
theorem renaming_parameter_keeps_output (limits : Limits) (r : Renaming)
    (program program' : Program) (renamed : BlockRenamed r program.body program'.body)
    (fresh : r.new ∉ blockNames program.body) :
    OutputRelates r (program.output limits) (program'.output limits) ∧
      (Session.start.run limits program').2.output =
        (Session.start.run limits program).2.output := by
  have bodies : BlockRelates r false program.body program'.body := renamed.relates fresh
  have ends := relates_run limits bodies rfl Store.initial Store.initial Store.initial_relates
  exact Session.run_relates ends

/-- The procedure `make` with a parameter, which returns a procedure that uses it. -/
def maker (parameter : String) : Stmt :=
  .procedure default "make" [parameter]
    [.procedure default "join" ["z"] [.returns default
      (.binary default .add (.identifier default parameter) (.identifier default "z"))],
     .returns default (.identifier default "join")]

/-- Calls what `make` returns, where another variable has the name `x`. -/
def makerProgram (parameter : String) : Program :=
  ⟨default,
    [.declare default "x" false (.string default "c"),
     maker parameter,
     .expression (.call default
       (.member default (.member default (.identifier default "System") "out") "console")
       [.binary default .add
         (.call default (.call default (.identifier default "make") [.string default "a"])
           [.string default "b"])
         (.identifier default "x")])]⟩

/-- The procedure that is returned finds its own variable, under either name. -/
theorem makerProgram_output : (makerProgram "x").output .standard = .ok "abc" ∧
    (makerProgram "y").output .standard = .ok "abc" := by
  have renamed : BlockRenamed ⟨"x", "y"⟩ (makerProgram "x").body (makerProgram "y").body :=
    .rest (.first (.here (by decide) (by decide)))
  have fresh : "y" ∉ blockNames (makerProgram "x").body := by decide
  have first : (makerProgram "x").output .standard = .ok "abc" := by cbv
  have related := (renaming_parameter_keeps_output .standard ⟨"x", "y"⟩ _ _ renamed fresh).1
  rw [first] at related
  refine ⟨first, ?_⟩
  generalize (makerProgram "y").output .standard = other at related ⊢
  cases related
  rfl

end Script
