import Mathlib
import Script.Proofs.Dialogue.Chunk
import Script.Proofs.Session.Faults

/-!
# A dialogue is a session

What a dialogue reads is decided by its inputs alone: `Intake` has the chunks that are complete, the
lines of one that is not, and whether the end has come. What it runs are the programs among the
chunks, one after the other in one session, whether it is verbose or not. Verbose mode only prints
more before the reply to a chunk.

* `dialogue_refines_session`: the dialogue after any inputs, in terms of what was read.
-/

namespace Script.Dialogue

/-! ## What is read -/

/-- What a dialogue has read. -/
structure Intake where
  /-- The texts of the chunks, in order. -/
  chunks : List String := []
  /-- The lines of a chunk that is not complete. -/
  pending : List String := []
  ended : Bool := false
deriving DecidableEq, Repr

namespace Intake

/-- Reads one input. Nothing is read behind the end. -/
def take (intake : Intake) (input : Input) : Intake :=
  if intake.ended then intake
  else
    match input with
    | .line text =>
      match turn intake.pending text with
      | .leave => { intake with ended := true }
      | .wait lines => { intake with pending := lines }
      | .submit lines => { intake with chunks := intake.chunks ++ [chunkText lines], pending := [] }
    | .interrupt | .endOfInput => { intake with ended := true }

/-- What a dialogue has read after some inputs. -/
def ofInputs (inputs : List Input) : Intake := inputs.foldl take {}

/-- The programs among the chunks. -/
def programs (intake : Intake) : List String := intake.chunks.filter isProgram

theorem take_of_ended {intake : Intake} (ended : intake.ended = true) (input : Input) :
    intake.take input = intake := if_pos ended

theorem take_line {intake : Intake} (awake : intake.ended = false) (text : String) :
    intake.take (.line text) =
      match turn intake.pending text with
      | .leave => { intake with ended := true }
      | .wait lines => { intake with pending := lines }
      | .submit lines =>
        { intake with chunks := intake.chunks ++ [chunkText lines], pending := [] } := by
  unfold take
  rw [awake]
  rfl

theorem ofInputs_append (earlier rest : List Input) :
    ofInputs (earlier ++ rest) = rest.foldl take (ofInputs earlier) := List.foldl_append

theorem ofInputs_concat (earlier : List Input) (input : Input) :
    ofInputs (earlier ++ [input]) = (ofInputs earlier).take input := ofInputs_append earlier [input]

end Intake

/-! ## The end -/

/-- Inputs that end a dialogue: an interrupt, the end of the input, and a line that asks to leave at
the start of a chunk. -/
def Ends (pending : List String) (input : Input) : Prop :=
  input = .interrupt ∨ input = .endOfInput ∨
    ∃ text, input = .line text ∧ pending = [] ∧ isFarewell text = true

theorem turn_eq_leave_iff (pending : List String) (text : String) :
    turn pending text = .leave ↔ pending = [] ∧ isFarewell text = true := by
  unfold turn
  by_cases leaves : (pending.isEmpty && isFarewell text) = true
  · rw [if_pos leaves]
    rw [Bool.and_eq_true, List.isEmpty_iff] at leaves
    exact iff_of_true rfl leaves
  · rw [if_neg leaves]
    rw [Bool.and_eq_true, List.isEmpty_iff] at leaves
    refine iff_of_false ?_ leaves
    split
    · exact Turn.noConfusion
    · exact Turn.noConfusion

theorem Intake.ended_take {intake : Intake} (awake : intake.ended = false) (input : Input) :
    (intake.take input).ended = true ↔ Ends intake.pending input := by
  cases input with
  | interrupt => exact iff_of_true (by simp [take, awake]) (.inl rfl)
  | endOfInput => exact iff_of_true (by simp [take, awake]) (.inr (.inl rfl))
  | line text =>
    have ends : Ends intake.pending (.line text) ↔ turn intake.pending text = .leave := by
      simp [Ends, turn_eq_leave_iff]
    rw [ends, take_line awake]
    cases turn intake.pending text with
    | leave => simp
    | wait lines => simp [awake]
    | submit lines => simp [awake]

/-- A dialogue ends at the first input that ends it, and at no other. -/
theorem Intake.ended_ofInputs_iff (inputs : List Input) :
    (ofInputs inputs).ended = true ↔
      ∃ earlier input rest, inputs = earlier ++ input :: rest ∧
        (ofInputs earlier).ended = false ∧ Ends (ofInputs earlier).pending input := by
  induction inputs using List.reverseRecOn with
  | nil =>
    refine iff_of_false Bool.false_ne_true ?_
    rintro ⟨earlier, input, rest, empty, -⟩
    exact absurd empty.symm (by simp)
  | append_singleton inputs last ih =>
    rw [ofInputs_concat]
    cases before : (ofInputs inputs).ended with
    | true =>
      rw [take_of_ended before, before]
      obtain ⟨earlier, input, rest, rfl, awake, ends⟩ := ih.mp before
      exact iff_of_true rfl ⟨earlier, input, rest ++ [last], by simp, awake, ends⟩
    | false =>
      rw [ended_take before]
      refine ⟨fun ends => ⟨inputs, last, [], rfl, before, ends⟩, ?_⟩
      rintro ⟨earlier, input, rest, split, awake, ends⟩
      cases rest using List.reverseRecOn with
      | nil =>
        obtain ⟨rfl, same⟩ := List.append_inj' split rfl
        cases same
        exact ends
      -- An input before the last one would have ended the dialogue.
      | append_singleton rest final =>
        rw [← List.cons_append, ← List.append_assoc] at split
        obtain ⟨rfl, -⟩ := List.append_inj' split rfl
        exact absurd (ih.mpr ⟨earlier, input, rest, rfl, awake, ends⟩) (by simp [before])

/-! ## Changes of mode -/

/-- Two dialogues have read the same programs and wait for the same lines. -/
structure Intake.Agrees (one two : Intake) : Prop where
  programs : two.programs = one.programs
  pending : two.pending = one.pending
  ended : two.ended = one.ended

theorem Intake.Agrees.take {one two : Intake} (agrees : one.Agrees two) (input : Input) :
    (one.take input).Agrees (two.take input) := by
  cases reached : one.ended with
  | true =>
    rw [take_of_ended reached, take_of_ended (agrees.ended.trans reached)]
    exact agrees
  | false =>
    have goesOn := agrees.ended.trans reached
    cases input with
    | interrupt =>
      rw [Intake.take, Intake.take, reached, goesOn]
      exact ⟨agrees.programs, agrees.pending, rfl⟩
    | endOfInput =>
      rw [Intake.take, Intake.take, reached, goesOn]
      exact ⟨agrees.programs, agrees.pending, rfl⟩
    | line text =>
      rw [take_line reached, take_line goesOn, agrees.pending]
      cases turn one.pending text with
      | leave => exact ⟨agrees.programs, rfl, rfl⟩
      | wait lines => exact ⟨agrees.programs, rfl, agrees.ended⟩
      | submit lines =>
        refine ⟨?_, rfl, agrees.ended⟩
        have programs := agrees.programs
        unfold Intake.programs at programs ⊢
        rw [List.filter_append, List.filter_append, programs]

theorem Intake.Agrees.takeAll (rest : List Input) {one two : Intake} (agrees : one.Agrees two) :
    (rest.foldl Intake.take one).Agrees (rest.foldl Intake.take two) := by
  induction rest generalizing one two with
  | nil => exact agrees
  | cons input rest ih => exact ih (agrees.take input)

theorem mem_trim {text : List Char} {c : Char} (member : c ∈ text)
    (visible : Text.isBlank c = false) : c ∈ Text.trim text := by
  have kept : ∀ {text : List Char}, c ∈ text → c ∈ text.dropWhile Text.isBlank := by
    intro text member
    rw [← List.takeWhile_append_dropWhile (p := Text.isBlank) (l := text),
      List.mem_append] at member
    rcases member with blank | rest
    · rw [List.mem_takeWhile_imp blank] at visible
      cases visible
    · exact rest
  unfold Text.trim Text.trimRight Text.trimLeft
  rw [List.mem_reverse]
  exact kept (List.mem_reverse.mpr (kept member))

/-- A line that changes the mode is a chunk of its own: it has no braces. -/
theorem turn_toggle {line : String} (toggle : isToggle (chunkText [line]) = true) :
    turn [] line = .submit [line] := by
  have spelled : (Text.trim line.toList).map Char.toLower = "verbose-mode".toList := by
    rw [← toList_chunkText_singleton]
    exact of_decide_eq_true toggle
  have remains : isFarewell line = false := by
    unfold isFarewell
    rw [Bool.or_eq_false_iff, beq_eq_false_iff_ne, beq_eq_false_iff_ne]
    refine ⟨fun same => ?_, fun same => ?_⟩
    · rw [same] at spelled
      exact absurd spelled (by decide)
    · rw [same] at spelled
      exact absurd spelled (by decide)
  have unopened : '\x7b' ∉ line.toList := by
    intro member
    have found := List.mem_map_of_mem (f := Char.toLower) (mem_trim member (by decide))
    rw [spelled] at found
    exact absurd found (by decide)
  have complete : Complete [line] := by
    refine ⟨?_, .inr fun other member => ?_⟩
    · simp [Balanced, occurrences, List.count_eq_zero_of_not_mem unopened]
    · rw [List.mem_singleton.mp member]
      exact unopened
  rw [turn_eq fun _ => remains, List.nil_append, if_pos complete]

/-- A change of mode between two chunks leaves the programs as they are. -/
theorem Intake.agrees_toggle {earlier : List Input} {line : String} (rest : List Input)
    (goesOn : (ofInputs earlier).ended = false) (between : (ofInputs earlier).pending = [])
    (toggle : isToggle (chunkText [line]) = true) :
    (ofInputs (earlier ++ rest)).Agrees (ofInputs (earlier ++ .line line :: rest)) := by
  rw [ofInputs_append, ofInputs_append, List.foldl_cons, take_line goesOn, between,
    turn_toggle toggle]
  refine Agrees.takeAll rest ⟨?_, between.symm, rfl⟩
  have skipped : ¬ isProgram (chunkText [line]) = true := by simp [isProgram, toggle]
  unfold programs
  rw [List.filter_append, List.filter_cons_of_neg skipped, List.filter_nil, List.append_nil]

/-! ## Replies -/

/-- What is printed about a limit of the machine: a header, the place, and what the limit is. -/
def traced (place label message : String) : String :=
  "[error] >>>\nTraceback (most recent call last):\n" ++ place ++
    (label ++ ": " ++ message ++ "\n\n")

/-- What is printed about a fault. Too deep recursion is reported like a fault of the program, in
one line, and the other limits are not. -/
def complaint (place : String) (fault : Fault) : String :=
  match fault with
  | .longKey _ => traced place "ValueError" fault.message
  | .hugeIndex => traced place "OverflowError" fault.message
  | .noRule _ _ => traced place "NotImplementedError" fault.message
  | .loopRounds => traced place "TimeoutError" fault.message
  | .callDepth => "[error] >>> Maximum recursion depth exceeded\n"
  | _ => "[error] >>> " ++ fault.message ++ "\n"

/-- What is printed for a program in either mode: its output and the value of a final expression
that is not null, or what is said about its failure. -/
def reply (limits : Limits) (frames : Frames) (session : Session) (source : String) : String :=
  match compile source with
  | .error fault => "[error] >>> " ++ fault.message ++ "\n"
  | .ok program =>
    match session.run limits program with
    | (.error fault, _) => complaint (frames session source) fault
    | (.ok output, after) =>
      (if output = "" then "" else output ++ "\n") ++
        if program.body.getLast?.any Stmt.isExpression ∧ after.last ≠ .null then
          after.store.display after.last ++ "\n"
        else ""

theorem report_compile (place : String) (fault : CompileFault) :
    report place (.compile fault) = "[error] >>> " ++ fault.message ++ "\n" := rfl

theorem report_run (place : String) (fault : Fault) :
    report place (.run fault) = complaint place fault := by
  cases fault <;> rfl

theorem echo_eq (program : Program) (session : Session) :
    echo program session =
      if program.body.getLast?.any Stmt.isExpression ∧ session.last ≠ .null then
        session.store.display session.last ++ "\n"
      else "" := by
  unfold echo
  cases program.body.getLast? with
  | none => rfl
  | some statement => simp

/-- To evaluate a chunk is to submit it to the session. The mode only puts a text before the
reply. -/
theorem evaluate_eq (limits : Limits) (frames : Frames) (verbose : Bool) (session : Session)
    (source : String) :
    ∃ shown, evaluate limits frames verbose session source =
        (shown ++ reply limits frames session source, (session.submit limits source).2) ∧
      (verbose = false → shown = "") := by
  unfold evaluate reply Session.submit compile
  cases split : tokenize source with
  | error fault => exact ⟨"", by simp [report_compile], fun _ => rfl⟩
  | ok tokens =>
    cases parsed : parse tokens with
    | error fault =>
      refine ⟨if verbose then tokenSummary tokens else "", ?_, fun quiet => by simp [quiet]⟩
      simp only [parsed, report_compile]
    | ok program =>
      refine ⟨(if verbose then tokenSummary tokens else "") ++
        if verbose then treeSummary program else "", ?_, fun quiet => by simp [quiet]⟩
      simp only [parsed]
      rcases session.run limits program with ⟨fault | output, after⟩
      · simp only [report_run]
      · simp only [echo_eq, String.isEmpty_iff, String.append_assoc]

theorem session_answerChunk (limits : Limits) (dialogue : Dialogue) (source : String) :
    (answerChunk limits dialogue source).2.session =
      if isProgram source then (dialogue.session.submit limits source).2 else dialogue.session := by
  by_cases program : isProgram source = true
  · obtain ⟨shown, evaluated, -⟩ :=
      evaluate_eq limits dialogue.frames dialogue.verbose dialogue.session source
    rw [answerChunk_of_isProgram _ _ program, evaluated, if_pos program]
  · rw [if_neg program]
    cases remark : isRemark source with
    | true => rw [answerChunk_of_isRemark _ _ remark]
    | false =>
      have toggle : isToggle source = true := by simpa [isProgram, remark] using program
      rw [answerChunk_of_isToggle _ _ remark toggle]

/-! ## Runs -/

/-- A dialogue is where its inputs have led it, and its session is where the programs have. -/
structure Follows (limits : Limits) (frames : Frames) (start : Session) (dialogue : Dialogue)
    (intake : Intake) : Prop where
  pending : dialogue.pending = intake.pending
  ended : dialogue.ended = intake.ended
  frames : dialogue.frames = frames
  session : dialogue.session = start.submitAll limits intake.programs

section

variable {limits : Limits} {frames : Frames} {start : Session} {dialogue : Dialogue}
  {intake : Intake}

theorem Follows.answer (follows : Follows limits frames start dialogue intake)
    (awake : intake.ended = false) (input : Input) :
    Follows limits frames start (dialogue.answer limits input).2 (intake.take input) := by
  cases input with
  | interrupt =>
    rw [Intake.take, if_neg (by simp [awake])]
    exact ⟨follows.pending, rfl, follows.frames, follows.session⟩
  | endOfInput =>
    rw [Intake.take, if_neg (by simp [awake])]
    exact ⟨follows.pending, rfl, follows.frames, follows.session⟩
  | line text =>
    rw [answer_line, Intake.take_line awake, follows.pending]
    cases turn intake.pending text with
    | leave => exact ⟨rfl, rfl, follows.frames, follows.session⟩
    | wait lines => exact ⟨rfl, follows.ended, follows.frames, follows.session⟩
    | submit lines =>
      obtain ⟨pending, ended, frames⟩ :=
        answerChunk_frame limits { dialogue with pending := [] } (chunkText lines)
      simp only
      refine ⟨pending, ended.trans follows.ended, frames.trans follows.frames, ?_⟩
      rw [session_answerChunk, follows.session]
      unfold Intake.programs
      rw [List.filter_append]
      by_cases program : isProgram (chunkText lines) = true
      · rw [if_pos program, List.filter_cons_of_pos program, List.filter_nil,
          Session.submitAll_concat]
      · rw [if_neg program, List.filter_cons_of_neg program, List.filter_nil, List.append_nil]

theorem follows_proceed (limits : Limits) (frames : Frames) (session : Session) (verbose : Bool)
    (inputs : List Input) :
    Follows limits frames session
      (({ session, verbose, frames } : Dialogue).proceed limits inputs)
      (Intake.ofInputs inputs) := by
  induction inputs using List.reverseRecOn with
  | nil => exact ⟨rfl, rfl, rfl, rfl⟩
  | append_singleton inputs last ih =>
    rw [Intake.ofInputs_concat]
    cases before : (Intake.ofInputs inputs).ended with
    | true =>
      rw [Intake.take_of_ended before,
        proceed_append_of_ended [last] rfl (ih.ended.trans before)]
      exact ih
    | false =>
      rw [proceed_append [last] (ih.ended.trans before), proceed_singleton]
      exact ih.answer before last

end

/-- After any inputs, in either mode, a dialogue waits for the lines and has run the programs that
these inputs have given it, and no others: each in the session that the ones before have left,
whether they failed or not. A change of mode between two chunks matters to none of this. The text
printed for a program is the reply to it, with something before it only if the dialogue is verbose;
what the machine says about the place of a failure goes into the report of that failure and changes
nothing else. The dialogue has ended only if one of the inputs ends a dialogue. -/
theorem dialogue_refines_session (limits : Limits) (frames : Frames) (session : Session)
    (verbose : Bool) (inputs : List Input) :
    let dialogue := ({ session, verbose, frames } : Dialogue).proceed limits inputs
    let intake := Intake.ofInputs inputs
    dialogue.pending = intake.pending ∧ dialogue.ended = intake.ended ∧
    dialogue.session = session.submitAll limits (intake.chunks.filter isProgram) ∧
    (∀ line rest, intake.ended = false → intake.pending = [] →
      isToggle (chunkText [line]) = true →
      (Intake.ofInputs (inputs ++ rest)).Agrees (Intake.ofInputs (inputs ++ .line line :: rest))) ∧
    (∀ line lines, intake.ended = false → turn intake.pending line = .submit lines →
      dialogue.answer limits (.line line) =
        answerChunk limits { dialogue with pending := [] } (chunkText lines) ∧
      (isProgram (chunkText lines) = true →
        ∃ shown, (dialogue.answer limits (.line line)).1 =
            shown ++ reply limits frames dialogue.session (chunkText lines) ∧
          (dialogue.verbose = false → shown = ""))) ∧
    (dialogue.ended = true ↔
      ∃ earlier input rest, inputs = earlier ++ input :: rest ∧
        (Intake.ofInputs earlier).ended = false ∧
        Ends (Intake.ofInputs earlier).pending input) := by
  intro dialogue intake
  have follows : Follows limits frames session dialogue intake :=
    follows_proceed limits frames session verbose inputs
  refine ⟨follows.pending, follows.ended, follows.session, ?_, ?_, ?_⟩
  · intro line rest goesOn between toggle
    exact Intake.agrees_toggle rest goesOn between toggle
  · intro line lines _ submits
    have answered : dialogue.answer limits (.line line) =
        answerChunk limits { dialogue with pending := [] } (chunkText lines) := by
      rw [answer_line, follows.pending, submits]
    refine ⟨answered, fun program => ?_⟩
    obtain ⟨shown, evaluated, quiet⟩ :=
      evaluate_eq limits frames dialogue.verbose dialogue.session (chunkText lines)
    refine ⟨shown, ?_, quiet⟩
    rw [answered, answerChunk_of_isProgram _ _ program]
    show (evaluate limits dialogue.frames _ _ _).1 = _
    rw [follows.frames, evaluated]
  · rw [follows.ended]
    exact Intake.ended_ofInputs_iff inputs

/-- Two changes of mode around a declaration, a procedure that calls itself, and a chunk that fails:
the variable is there, and its value alone is printed. A fault of the program, one of the grammar
and too deep recursion are reported in one line, and a limit of the machine with its place. -/
theorem toggled_dialogue_replies :
    let limits : Limits := ⟨3, 3⟩
    let frames : Frames := fun _ source => "  in " ++ source ++ "\n"
    let inputs : List Input :=
      [.line "Verbose-Mode", .line "mut x = [];", .line "verbose-mode",
        .line "procedure f() \x7b returns f(); \x7d", .line "y;"]
    let dialogue :=
      ({ session := .start, verbose := false, frames } : Dialogue).proceed limits inputs
    let answer (line : String) := (dialogue.answer limits (.line line)).1
    dialogue.session = Session.start.submitAll limits
        ["mut x = [];", "procedure f() \x7b returns f(); \x7d", "y;"] ∧
      answer "x == x;" = "true\n" ∧
      answer "y;" = "[error] >>> Undefined variable: y\n" ∧
      answer "const z = ;" = "[error] >>> Unexpected token: ; at line 1\n" ∧
      answer "f();" = "[error] >>> Maximum recursion depth exceeded\n" ∧
      answer "x[\"9223372036854775808\"] = x;" =
        "[error] >>>\nTraceback (most recent call last):\n" ++
          "  in x[\"9223372036854775808\"] = x;\n" ++
          "OverflowError: cannot fit 'int' into an index-sized integer\n\n" := by
  intro limits frames inputs dialogue answer
  have programs : (Intake.ofInputs inputs).chunks.filter isProgram =
      ["mut x = [];", "procedure f() \x7b returns f(); \x7d", "y;"] := by decide +kernel
  have goesOn : (Intake.ofInputs inputs).ended = false := by decide +kernel
  have quiet : dialogue.verbose = false := by decide +kernel
  obtain ⟨_, _, session, _, answers, _⟩ :=
    dialogue_refines_session limits frames .start false inputs
  rw [programs] at session
  have replies : ∀ line, turn (Intake.ofInputs inputs).pending line = .submit [line] →
      isProgram (chunkText [line]) = true →
      answer line = reply limits frames (Session.start.submitAll limits
        ["mut x = [];", "procedure f() \x7b returns f(); \x7d", "y;"]) (chunkText [line]) := by
    intro line submits program
    obtain ⟨shown, printed, nothing⟩ := (answers line [line] goesOn submits).2 program
    rw [nothing quiet, session, String.empty_append] at printed
    exact printed
  refine ⟨session, ?_, ?_, ?_, ?_, ?_⟩
  · exact (replies "x == x;" (by decide +kernel) (by decide +kernel)).trans (by decide +kernel)
  · exact (replies "y;" (by decide +kernel) (by decide +kernel)).trans (by decide +kernel)
  · exact (replies "const z = ;" (by decide +kernel) (by decide +kernel)).trans (by decide +kernel)
  · exact (replies "f();" (by decide +kernel) (by decide +kernel)).trans (by decide +kernel)
  · exact (replies _ (by decide +kernel) (by decide +kernel)).trans (by decide +kernel)

end Script.Dialogue
