import Script.Session
import Script.Tree.Outline

/-!
# The dialogue

Lines are collected until their braces balance and then run as one chunk in one session. The
dialogue answers each line with the text to print before the next prompt; it ends on `exit` or
`quit` at the start of a chunk, on an interrupt, and at the end of the input. In verbose mode it
also shows the tokens and the tree of each chunk.
-/

namespace Script

/-- What reaches a dialogue. -/
inductive Input where
  | line (text : String)
  | interrupt
  | endOfInput
deriving DecidableEq, Repr

/-- Where in the machine a chunk has failed, by the session it was run in and its text: some lines,
each with its end. What they say is up to the machine, and it may say nothing. -/
abbrev Frames := Session → String → String

/-- A dialogue: its session, its mode, and the lines of a chunk that is not complete. -/
structure Dialogue where
  session : Session := .start
  verbose : Bool := false
  pending : List String := []
  ended : Bool := false
  /-- What is said about failures of the machine besides their names and messages. -/
  frames : Frames := fun _ _ => ""

namespace Dialogue

/-- What is printed before the first prompt. -/
def banner : String := "Misty REPL. Type 'exit' or 'quit' to leave.\n"

/-- What is printed at the end. -/
def farewell : String := "Exiting Misty REPL.\n"

/-- What asks for the next line. -/
def prompt (dialogue : Dialogue) : String :=
  if dialogue.pending.isEmpty then ">>> " else "... "

/-! ## Chunks -/

/-- How many more braces some lines open than they close. -/
def braceBalance (lines : List String) : Int :=
  lines.foldl (fun balance line =>
    balance + line.toList.count '\x7b' - line.toList.count '\x7d') 0

/-- Whether lines that end with `last` are a chunk: their braces balance, and either the last
line ends with a closing brace or no line opens one. -/
def isComplete (lines : List String) (last : String) : Bool :=
  decide (braceBalance lines ≤ 0) &&
    ((Text.trim last.toList).getLast? == some '\x7d' ||
      !lines.any fun line => line.toList.contains '\x7b')

/-- The text of a chunk. -/
def chunkText (lines : List String) : String :=
  String.ofList (Text.trim (String.intercalate "\n" lines).toList)

/-! ## Answers -/

/-- How a failure is reported. Only a limit of the machine is reported with its place there. -/
def report (place : String) (failure : Failure) : String :=
  let message := failure.message
  match failure with
  | .run fault =>
    match fault.category with
    | .limit label =>
      "[error] >>>\nTraceback (most recent call last):\n" ++ place ++ s!"{label}: {message}\n\n"
    | _ => s!"[error] >>> {message}\n"
  | .compile _ => s!"[error] >>> {message}\n"

/-- The tokens of a chunk as verbose mode shows them. -/
def tokenSummary (tokens : List Token) : String :=
  "[tokens] >>> [" ++ String.intercalate ", " (tokens.map (·.summary)) ++ "]\n"

/-- The tree of a program as verbose mode shows it. -/
def treeSummary (program : Program) : String := s!"[ast] >>>\n{program.outline.render}\n"

/-- The value that is shown after a run: that of a final expression, unless it is null. -/
def echo (program : Program) (session : Session) : String :=
  match program.body.getLast? with
  | some statement =>
    if statement.isExpression && session.last != .null then
      session.store.display session.last ++ "\n"
    else ""
  | none => ""

/-- Runs a chunk in a session: the text printed, and the session after it. -/
def evaluate (limits : Limits) (frames : Frames) (verbose : Bool) (session : Session)
    (source : String) : String × Session :=
  let report := report (frames session source)
  match tokenize source with
  | .error fault => (report (.compile (.lexical fault)), session)
  | .ok tokens =>
    let shownTokens := if verbose then tokenSummary tokens else ""
    match parse tokens with
    | .error fault => (shownTokens ++ report (.compile (.grammatical fault)), session)
    | .ok program =>
      let shown := shownTokens ++ if verbose then treeSummary program else ""
      match session.run limits program with
      | (.error fault, after) => (shown ++ report (.run fault), after)
      | (.ok output, after) =>
        let printed := if output.isEmpty then "" else output ++ "\n"
        (shown ++ printed ++ echo program after, after)

/-- Answers a chunk: nothing for an empty one and for a comment, the mode for a change of mode,
and what running it prints for any other. -/
def answerChunk (limits : Limits) (dialogue : Dialogue) (source : String) :
    String × Dialogue :=
  if source.isEmpty || source.toList.head? == some '#' then ("", dialogue)
  else if source.toList.map Char.toLower = "verbose-mode".toList then
    let verbose := !dialogue.verbose
    let mode := if verbose then "ON" else "OFF"
    (s!"[mode] >>> Verbose mode {mode}\n", { dialogue with verbose })
  else
    let (text, session) :=
      evaluate limits dialogue.frames dialogue.verbose dialogue.session source
    (text, { dialogue with session })

/-- Whether a line asks to leave. -/
def isFarewell (line : String) : Bool :=
  let word := Text.trim line.toList
  word == "exit".toList || word == "quit".toList

/-- Answers one input: the text printed before the next prompt, and the dialogue after it. -/
def answer (limits : Limits) (dialogue : Dialogue) : Input → String × Dialogue
  | .line text =>
    if dialogue.pending.isEmpty && isFarewell text then (farewell, { dialogue with ended := true })
    else
      let lines := dialogue.pending ++ [text]
      if isComplete lines text then
        answerChunk limits { dialogue with pending := [] } (chunkText lines)
      else ("", { dialogue with pending := lines })
  | .interrupt | .endOfInput => ("\n" ++ farewell, { dialogue with ended := true })

/-- The prompts and answers of a dialogue. The input ends behind the given ones. -/
def transcript (limits : Limits) (dialogue : Dialogue) : List Input → List (String × String)
  | [] => [(dialogue.prompt, (dialogue.answer limits .endOfInput).1)]
  | input :: rest =>
    let (text, after) := dialogue.answer limits input
    (dialogue.prompt, text) :: if after.ended then [] else after.transcript limits rest

end Dialogue

end Script
