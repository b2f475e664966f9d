import Script.Command.Arguments
import Script.Dialogue
import Script.Text.Utf8

/-!
# The command

The command runs a source text from a file or from its arguments, shows the tokens or the tree of
one, or holds a dialogue. `Request.ofArguments` says which; the outcome is the exit status and
the texts on the two output channels.
-/

namespace Script.Command

/-! ## Requests -/

/-- What the command is asked to do. -/
inductive Request where
  | help
  | misuse (message : String)
  | converse (verbose : Bool)
  /-- A source given in the arguments. -/
  | text (options : Options) (source : String)
  /-- A file to read the source from. -/
  | file (options : Options) (name : String)
  /-- A file that is not even looked for. -/
  | refused (message : String)
deriving DecidableEq, Repr

/-- How the names of source files end. -/
def extension : String := ".misty"

/-- The request for a source file. -/
def fileRequest (options : Options) (name : String) : Request :=
  if !extension.toList.isSuffixOf name.toList then .refused "Only .misty files are supported."
  else if name.toList.contains '\x00' then .refused "embedded null byte"
  else .file options name

/-- The request of options that were read. -/
def optionsRequest (options : Options) : Request :=
  match options.source with
  | none => .converse options.verbose
  | some source =>
    if options.repl then .converse options.verbose
    else if options.string then .text options source
    else fileRequest options source

/-- The request of command-line arguments. -/
def Request.ofArguments (arguments : List String) : Request :=
  match Reading.ofArguments arguments with
  | .help => .help
  | .misuse message => .misuse message
  | .options options => optionsRequest options

/-! ## Outcomes -/

/-- What the command leaves behind. -/
structure Outcome where
  status : Nat
  stdout : String
  stderr : String
deriving DecidableEq, Repr

/-- How the command ends: with an outcome, or with a fault that it does not report itself. -/
inductive Ending where
  | finished (outcome : Outcome)
  | crashed (fault : Fault) (stdout : String)
deriving DecidableEq, Repr

def usage : String :=
  "usage: misty [-h] [-s] [-p] [--tokens] [--ast] [--repl] [--verbose] [source]\n"

def helpText : String :=
  usage ++ "
positional arguments:
  source        Filename or raw source (with -s)

options:
  -h, --help    show this help message and exit
  -s, --string  Interpret source as literal string
  -p, --pretty  Show output with banners
  --tokens      Print the token stream and exit
  --ast         Print the AST as JSON and exit
  --repl        Launch interactive REPL instead of running a program
  --verbose     Print tokens and AST before running
"

/-- The outcome of a request for help. -/
def helpOutcome : Outcome := ⟨0, helpText, ""⟩

/-- The outcome of arguments that ask for nothing. -/
def misuseOutcome (message : String) : Outcome :=
  ⟨2, "", usage ++ s!"misty: error: {message}\n"⟩

/-- The outcome of an error with what was printed before it. -/
def errorOutcome (stdout message : String) : Outcome := ⟨1, stdout, s!"[error] >>> {message}\n"⟩

/-! ## Sources -/

/-- The tokens of a source, one on a line. -/
def tokenListing (tokens : List Token) : String :=
  "[tokens] >>>\n" ++ String.join (tokens.map fun token =>
    s!"  {token.position.line}:{token.position.column}\t{token.kind.name}\t" ++
      Text.quoted token.text ++ "\n")

/-- The output of a program as it is printed. -/
def framed (pretty : Bool) (output : String) : String :=
  if pretty then
    let rule := "====================\n"
    let body := if output.isEmpty then "(No output)" else output
    rule ++ "Output\n" ++ rule ++ body ++ "\n" ++ rule
  else if output.isEmpty then ""
  else output ++ "\n"

/-- Shows or runs a source: what is printed, and the failure that stops it. -/
def process (limits : Limits) (options : Options) (source : String) :
    String × Option Failure :=
  match tokenize source with
  | .error fault => ("", some (.compile (.lexical fault)))
  | .ok tokens =>
    let listing := if options.tokens || options.verbose then tokenListing tokens else ""
    if options.tokens then (listing, none)
    else
      match parse tokens with
      | .error fault => (listing, some (.compile (.grammatical fault)))
      | .ok program =>
        let shown :=
          listing ++ if options.ast || options.verbose then Dialogue.treeSummary program else ""
        if options.ast then (shown, none)
        else
          match program.output limits with
          | .error fault => (shown, some (.run fault))
          | .ok output => (shown ++ framed options.pretty output, none)

/-- The fault that ends the command without a report of its own, if the failure is one. -/
def crash? : Failure → Option Fault
  | .compile _ => none
  | .run fault =>
    match fault with
    | .hugeIndex | .noRule _ _ | .loopRounds => some fault
    | _ => none

/-- How the command ends on a source. -/
def sourceEnding (limits : Limits) (options : Options) (source : String) : Ending :=
  match process limits options source with
  | (stdout, none) => .finished ⟨0, stdout, ""⟩
  | (stdout, some failure) =>
    match crash? failure with
    | some fault => .crashed fault stdout
    | none => .finished (errorOutcome stdout failure.message)

/-! ## Files -/

/-- Why a file cannot be read. -/
inductive FileFault where
  | missing
  /-- A part of the name that should be a directory is a file. -/
  | notDirectory
  | directory
  | longName
  | nullCharacter
deriving DecidableEq, Repr

/-- What is said about a file that cannot be read. -/
def FileFault.message (name : String) : FileFault → String
  | missing => "[Errno 2] No such file or directory: " ++ Text.quoted name
  | notDirectory => "[Errno 20] Not a directory: " ++ Text.quoted name
  | directory => "[Errno 21] Is a directory: " ++ Text.quoted name
  | longName => "[Errno 36] File name too long: " ++ Text.quoted name
  | nullCharacter => "embedded null byte"

/-- What is said about bytes that are not text. -/
def decodeMessage (fault : Text.DecodeFault) : String :=
  let what :=
    if fault.width = 1 then
      s!"byte 0x{String.ofList (Text.hex 2 fault.first.toNat)} in position {fault.offset}"
    else s!"bytes in position {fault.offset}-{fault.offset + fault.width - 1}"
  let why := match fault.cause with
    | .badStart => "invalid start byte"
    | .badContinuation => "invalid continuation byte"
    | .endOfData => "unexpected end of data"
  s!"'utf-8' codec can't decode {what}: {why}"

/-- How the command ends on a file, given what it holds if it can be read. -/
def fileEnding (limits : Limits) (options : Options) (name : String)
    (contents : Except FileFault ByteArray) : Ending :=
  match contents with
  | .error fault => .finished (errorOutcome "" (fault.message name))
  | .ok bytes =>
    match Text.decode bytes with
    | .error fault => .finished (errorOutcome "" (decodeMessage fault))
    | .ok text =>
      sourceEnding limits options (String.ofList (Text.unifyLines text.toList))

/-! ## Dialogues -/

/-- The lines of a text; a newline ends a line. -/
def inputLines (text : String) : List String :=
  let lines := text.toList.splitOn '\n'
  let lines := if lines.getLast? == some [] then lines.dropLast else lines
  lines.map String.ofList

/-- What a dialogue on given lines prints. -/
def dialogueText (limits : Limits) (frames : Frames) (verbose : Bool) (lines : List String) :
    String :=
  let steps := ({ verbose, frames } : Dialogue).transcript limits (lines.map .line)
  Dialogue.banner ++ String.join (steps.map fun (prompt, text) => prompt ++ text)

/-- How the command ends, given the files, the text on its input, and what the machine says about
its failures in a dialogue. -/
def run (limits : Limits) (files : String → Except FileFault ByteArray) (stdin : String)
    (arguments : List String) (frames : Frames := fun _ _ => "") : Ending :=
  match Request.ofArguments arguments with
  | .help => .finished helpOutcome
  | .misuse message => .finished (misuseOutcome message)
  | .converse verbose => .finished ⟨0, dialogueText limits frames verbose (inputLines stdin), ""⟩
  | .text options source => sourceEnding limits options source
  | .file options name => fileEnding limits options name (files name)
  | .refused message => .finished (errorOutcome "" message)

end Script.Command
