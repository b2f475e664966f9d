import Mathlib
import Script.Command
import Script.Proofs.Session.Faults

/-!
# How the command ends on a source

The command goes its own way from a source to an outcome, through tokens and a tree that it can
show. On a source in its arguments, with nothing to be shown, it ends as `execute` does: with the
output or with a report of the failure. One failure has no report, since an index that no array can
be made long enough for ends the command itself.

* `source_reported_unless_huge`: the outcome for every source that the arguments give.
-/

namespace Script.Command

/-! ## The arguments -/

theorem source_set (flags : List Flag) (options : Options) :
    (flags.foldl Options.set options).source = options.source := by
  induction flags generalizing options with
  | nil => rfl
  | cons flag rest ih =>
    rw [List.foldl_cons, ih]
    cases flag <;> rfl

/-- What the arguments `-s` and some text are read as, by what the text is. -/
theorem ofArguments_string (text : String) :
    Reading.ofArguments ["-s", text] =
      match classify text with
      | .error message => .misuse message
      | .ok item => readItems { options := { string := true } } [item] := by
  have first : classify "-s" = .ok (.option .string true none) := by rfl
  have all : classifyAll ["-s", text] =
      (classify text).map fun item => [.option .string true none, item] := by
    rw [classifyAll, first]
    show (classifyAll [text]).map _ = _
    rw [classifyAll]
    cases classify text with
    | error message => rfl
    | ok item => cases item <;> rfl
  unfold Reading.ofArguments
  rw [all]
  cases classify text with
  | error message => rfl
  | ok item => rfl

/-- A text behind `-s` that is read as the source gives no other options. -/
theorem options_of_positional {source : String} {options : Options}
    (read : Reading.ofArguments ["-s", source] = .options options)
    (positional : options.source = some source) :
    options = { string := true, source := some source } := by
  rw [ofArguments_string] at read
  cases found : classify source with
  | error message =>
    rw [found] at read
    cases read
  | ok item =>
    rw [found] at read
    cases item with
    | plain text =>
      cases read
      cases positional
      rfl
    | separator =>
      cases read
      cases positional
    | unknown text => cases read
    | option flag short joined =>
      simp only [readItems] at read
      cases flags : optionFlags flag short joined with
      | error message =>
        rw [flags] at read
        cases read
      | ok flags' =>
        rw [flags] at read
        simp only at read
        split at read
        · cases read
        · cases read
          rw [source_set] at positional
          cases positional

/-! ## The outcome of a source -/

/-- With nothing to be shown, a source is processed as `execute` runs it. -/
theorem process_plain (limits : Limits) {options : Options} (source : String)
    (tokens : options.tokens = false) (ast : options.ast = false)
    (verbose : options.verbose = false) :
    process limits options source =
      match execute limits source with
      | .ok output => (framed options.pretty output, none)
      | .error failure => ("", some failure) := by
  unfold process execute Session.submit compile Program.output
  rw [tokens, ast, verbose]
  cases tokenize source with
  | error fault => rfl
  | ok found =>
    cases parsed : parse found with
    | error fault => simp only [parsed]; rfl
    | ok program =>
      simp only [parsed]
      cases ran : Session.start.run limits program with
      | mk result after =>
        cases result with
        | error fault => rfl
        | ok output => simp

/-- The faults that a source can end with are those of its program. -/
theorem execute_eq_run_iff {limits : Limits} {source : String} {fault : Fault} :
    execute limits source = .error (.run fault) ↔
      ∃ program, compile source = .ok program ∧
        (Session.start.run limits program).1 = .error fault := by
  unfold execute Session.submit
  cases compiled : compile source with
  | error refusal => simp
  | ok program =>
    cases ran : Session.start.run limits program with
    | mk result after =>
      cases result with
      | error fault' => simp [ran]
      | ok output => simp [ran]

theorem isExpected_of_execute {limits : Limits} {source : String} {fault : Fault}
    (failed : execute limits source = .error (.run fault)) : fault.isExpected = true := by
  obtain ⟨program, compiled, failed⟩ := execute_eq_run_iff.mp failed
  have regular := Program.regular_of_compile compiled
  exact (Session.ends_run Store.sound_initial regular).2 fault failed

/-- Of the failures of a source that ends, the command reports all but one. -/
theorem crash?_of_execute {limits : Limits} {source : String} {failure : Failure}
    (failed : execute limits source = .error failure)
    (ends : failure ≠ .run .loopRounds) (fits : failure ≠ .run .hugeIndex) :
    crash? failure = none := by
  cases failure with
  | compile fault => rfl
  | run fault =>
    have expected := isExpected_of_execute failed
    cases fault with
    | hugeIndex => exact absurd rfl fits
    | loopRounds => exact absurd rfl ends
    | noRule kind position => cases expected
    | _ => rfl

/-- How the command ends on a source in its arguments that it takes as the source. -/
theorem run_string (limits : Limits) (files : String → Except FileFault ByteArray)
    (stdin : String) (frames : Frames) {source : String} {options : Options}
    (read : Reading.ofArguments ["-s", source] = .options options)
    (positional : options.source = some source) :
    run limits files stdin ["-s", source] frames =
      match execute limits source with
      | .ok output => .finished ⟨0, framed false output, ""⟩
      | .error failure =>
        match crash? failure with
        | some fault => .crashed fault ""
        | none => .finished (errorOutcome "" failure.message) := by
  obtain rfl := options_of_positional read positional
  unfold run Request.ofArguments
  rw [read]
  show sourceEnding limits _ source = _
  unfold sourceEnding
  rw [process_plain limits source rfl rfl rfl]
  cases execute limits source with
  | ok output => rfl
  | error failure => rfl

/-- The command on a source in its arguments, if running it comes to an end. It succeeds exactly
with the output on a line of its own, and reports a failure with nothing printed, whatever was
printed before it. The one failure that it does not report is an index too large, and this comes
up exactly if the program writes an element too far behind the end of its array. -/
theorem source_reported_unless_huge (limits : Limits) (files : String → Except FileFault ByteArray)
    (stdin source : String) (frames : Frames) (options : Options)
    (read : Reading.ofArguments ["-s", source] = .options options)
    (positional : options.source = some source)
    (ends : execute limits source ≠ .error (.run .loopRounds)) :
    let ending := run limits files stdin ["-s", source] frames
    (∀ output, execute limits source = .ok output →
      ending = .finished ⟨0, if output = "" then "" else output ++ "\n", ""⟩) ∧
    (∀ failure, execute limits source = .error failure → failure ≠ .run .hugeIndex →
      ending = .finished ⟨1, "", "[error] >>> " ++ failure.message ++ "\n"⟩) ∧
    (execute limits source = .error (.run .hugeIndex) → ending = .crashed .hugeIndex "") ∧
    (execute limits source = .error (.run .hugeIndex) ↔
      ∃ program, compile source = .ok program ∧
        ∃ access ∈ program.accesses limits Session.start.store, access.isHuge = true) ∧
    (Failure.run .callDepth).message = "Maximum recursion depth exceeded" := by
  intro ending
  have ended : ending = _ := run_string limits files stdin frames read positional
  refine ⟨?_, ?_, ?_, ?_, rfl⟩
  · intro output succeeded
    rw [succeeded] at ended
    rw [ended]
    simp [framed]
  · intro failure failed fits
    have reported := crash?_of_execute failed (fun never => ends (never ▸ failed)) fits
    rw [failed] at ended
    simp only [reported] at ended
    exact ended
  · intro failed
    rw [failed] at ended
    exact ended
  · have ofAccess : Fault.hugeIndex.isOfAccess = true := rfl
    rw [execute_eq_run_iff]
    simp only [Session.run_refused_iff ofAccess, Access.fault?_eq_hugeIndex_iff]

/-- A source that prints a line. -/
def greeting : String := "System.out.console(\"hi\");"

/-- The printed line is all that is on the output. -/
theorem greeting_printed :
    execute ⟨3, 3⟩ greeting = .ok "hi" ∧
      run ⟨3, 3⟩ (fun _ => .error .missing) "" ["-s", greeting] = .finished ⟨0, "hi\n", ""⟩ := by
  have read : Reading.ofArguments ["-s", greeting] =
      .options { string := true, source := some greeting } := by decide +kernel
  have succeeded : execute ⟨3, 3⟩ greeting = .ok "hi" := by decide +kernel
  have ends : execute ⟨3, 3⟩ greeting ≠ .error (.run .loopRounds) := by
    rw [succeeded]
    nofun
  obtain ⟨reported, _⟩ := source_reported_unless_huge ⟨3, 3⟩ (fun _ => .error .missing) "" greeting
    (fun _ _ => "") _ read rfl ends
  exact ⟨succeeded, reported "hi" succeeded⟩

/-- A source that writes at an index that no array can be made long enough for. -/
def farWriting : String := "mut a = [];\na[\"9223372036854775808\"] = a;"

/-- The command does not report the failure of that source. -/
theorem farWriting_unreported :
    Reading.ofArguments ["-s", farWriting] =
        .options { string := true, source := some farWriting } ∧
      execute ⟨3, 3⟩ farWriting = .error (.run .hugeIndex) ∧
      run ⟨3, 3⟩ (fun _ => .error .missing) "" ["-s", farWriting] = .crashed .hugeIndex "" := by
  decide +kernel

end Script.Command
