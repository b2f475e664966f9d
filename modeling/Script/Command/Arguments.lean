import Script.Text.Quoted

/-!
# Command-line arguments

Options may be shortened to a unique beginning, short options may be joined, and `--` ends the
options. One argument besides the options is the source. `Options.ofArguments` reads the
arguments from left to right; a request for help ends the reading.
-/

namespace Script.Command

/-- The options. -/
inductive Flag where
  | help | string | pretty | tokens | ast | repl | verbose
deriving DecidableEq, Repr

namespace Flag

/-- All ways to write an option, in the order of the usage line. -/
def spellings : List (String × Flag) :=
  [("-h", .help), ("--help", .help), ("-s", .string), ("--string", .string), ("-p", .pretty),
   ("--pretty", .pretty), ("--tokens", .tokens), ("--ast", .ast), ("--repl", .repl),
   ("--verbose", .verbose)]

/-- The option with a spelling. -/
def ofSpelling? (text : String) : Option Flag := spellings.lookup text

/-- The spellings of an option as messages give them. -/
def names (flag : Flag) : String :=
  String.intercalate "/" ((spellings.filter (·.2 = flag)).map (·.1))

end Flag

/-- The options and the source that the arguments give. -/
structure Options where
  string : Bool := false
  pretty : Bool := false
  tokens : Bool := false
  ast : Bool := false
  repl : Bool := false
  verbose : Bool := false
  source : Option String := none
deriving DecidableEq, Repr

/-- Sets an option. -/
def Options.set (options : Options) : Flag → Options
  | .help => options
  | .string => { options with string := true }
  | .pretty => { options with pretty := true }
  | .tokens => { options with tokens := true }
  | .ast => { options with ast := true }
  | .repl => { options with repl := true }
  | .verbose => { options with verbose := true }

/-! ## Single arguments -/

/-- What an argument is. -/
inductive Item where
  /-- An argument that is no option. -/
  | plain (text : String)
  /-- An option in its short or long form, perhaps with a text joined to it. -/
  | option (flag : Flag) (short : Bool) (joined : Option String)
  /-- An argument that looks like an option and is none. -/
  | unknown (text : String)
  /-- The mark behind which no options stand. -/
  | separator
deriving DecidableEq, Repr

/-- Whether a text looks like a negative number. -/
def looksNegative (text : List Char) : Bool :=
  let body := if text.getLast? == some '\n' then text.dropLast else text
  match body with
  | '-' :: rest =>
    match rest.dropWhile Char.isDigit with
    | [] => !rest.isEmpty
    | '.' :: fraction => !fraction.isEmpty && fraction.all Char.isDigit
    | _ => false
  | _ => false

/-- Splits a text at its first equals sign. -/
def splitEquals (text : List Char) : String × Option String :=
  let name := String.ofList (text.takeWhile (· != '='))
  match text.dropWhile (· != '=') with
  | [] => (name, none)
  | _ :: value => (name, some (String.ofList value))

/-- An argument that starts with a dash and is neither `-` nor `--`, nor an option as it
stands. -/
def classifyDashed (text : String) : Except String Item :=
  let chars := text.toList
  let (name, joined) := splitEquals chars
  match if joined.isSome then Flag.ofSpelling? name else none with
  | some flag => .ok (.option flag (chars[1]? != some '-') joined)
  | none =>
    let candidates : List (String × Item) :=
      if chars[1]? == some '-' then
        (Flag.spellings.filter fun (spelling, _) => name.toList.isPrefixOf spelling.toList).map
          fun (spelling, flag) => (spelling, .option flag false joined)
      else
        (Flag.spellings.filter fun (spelling, _) => spelling.toList = chars.take 2).map
          fun (spelling, flag) =>
            (spelling, .option flag true (some (String.ofList (chars.drop 2))))
    match candidates with
    | [(_, item)] => .ok item
    | [] =>
      if looksNegative chars || chars.contains ' ' then .ok (.plain text)
      else .ok (.unknown text)
    | several =>
      .error <| s!"ambiguous option: {text} could match " ++
        String.intercalate ", " (several.map (·.1))

/-- What an argument in front of the separator is. -/
def classify (text : String) : Except String Item :=
  match text.toList with
  | '-' :: second :: _ =>
    if text = "--" then .ok .separator
    else
      match Flag.ofSpelling? text with
      | some flag => .ok (.option flag (second != '-') none)
      | none => classifyDashed text
  | _ => .ok (.plain text)

/-- What all arguments are. -/
def classifyAll : List String → Except String (List Item)
  | [] => .ok []
  | text :: rest => do
    match ← classify text with
    | .separator => return .separator :: rest.map .plain
    | item => return item :: (← classifyAll rest)

/-! ## All arguments -/

/-- What the arguments ask for. -/
inductive Reading where
  | options (options : Options)
  | help
  | misuse (message : String)
deriving DecidableEq, Repr

/-- The options that one argument joins, or what is wrong with it. -/
def joinedFlags (flag : Flag) (short : Bool) : List Char → Except String (List Flag)
  | [] => .error s!"argument {flag.names}: ignored explicit argument ''"
  | c :: rest =>
    match if short then Flag.ofSpelling? (String.ofList ['-', c]) else none with
    | none =>
      .error <| s!"argument {flag.names}: ignored explicit argument " ++
        Text.quoted (String.ofList (c :: rest))
    | some next =>
      if rest.isEmpty then .ok [flag, next]
      else do return flag :: (← joinedFlags next short rest)

/-- The options that an argument gives, or what is wrong with it. -/
def optionFlags (flag : Flag) (short : Bool) : Option String → Except String (List Flag)
  | none => .ok [flag]
  | some joined => joinedFlags flag short joined.toList

/-- The state of reading arguments: the source may be followed directly by the separator. -/
structure Progress where
  options : Options := {}
  atSource : Bool := false
  extras : List String := []
deriving DecidableEq, Repr

/-- Reads arguments from left to right. -/
def readItems (progress : Progress) : List Item → Reading
  | [] =>
    if progress.extras.isEmpty then .options progress.options
    else .misuse ("unrecognized arguments: " ++ String.intercalate " " progress.extras)
  | .plain text :: rest =>
    if progress.options.source.isNone then
      readItems { progress with
        options := { progress.options with source := some text }, atSource := true } rest
    else
      readItems { progress with extras := progress.extras ++ [text], atSource := false } rest
  | .unknown text :: rest =>
    readItems { progress with extras := progress.extras ++ [text], atSource := false } rest
  | .separator :: rest =>
    if progress.options.source.isNone || progress.atSource then
      readItems { progress with atSource := false } rest
    else readItems { progress with extras := progress.extras ++ ["--"] } rest
  | .option flag short joined :: rest =>
    match optionFlags flag short joined with
    | .error message => .misuse message
    | .ok flags =>
      if flags.contains .help then .help
      else
        readItems { progress with
          options := flags.foldl Options.set progress.options, atSource := false } rest

/-- What command-line arguments ask for. -/
def Reading.ofArguments (arguments : List String) : Reading :=
  match classifyAll arguments with
  | .error message => .misuse message
  | .ok items => readItems {} items

end Script.Command
