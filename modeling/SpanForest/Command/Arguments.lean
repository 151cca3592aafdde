import SpanForest.Edge
import SpanForest.Summary
import SpanForest.Text.Utf8

/-! # Arguments of the command line

    The command `forest` takes the path of an edge list and two options, each
    at most once, in any order. `--` ends the options; a single `-` is a
    path.

    * **`Token`**: what an argument is by its form.
    * **`Reading`**: what has been read of a command. The value of an option
      and the path are examined only when the next option or path begins, or
      at the end. So an unknown option is reported before a bad value that
      stands in front of it, and help is not.
    * **`Arguments.parse`**: the command that all the arguments make, or the
      first fault.
-/

namespace SpanForest

/-- An argument: bytes, which need not be a text. -/
abbrev Argument := List UInt8

/-- Why arguments make no command. -/
inductive UsageFault where
  /-- There are no arguments, so help is shown instead. -/
  | nothingGiven
  /-- The path is missing. -/
  | missingPath
  /-- The value of an option is missing or is not among those it admits, or
      the path is empty. -/
  | invalidValue
  /-- There is no such option, or there is a second path. -/
  | unknownArgument
  /-- There is no such command. -/
  | unknownCommand
  /-- An option is given twice. -/
  | repeatedOption
  /-- A value is given where none is taken. -/
  | superfluousValue
  /-- Help is asked for. -/
  | helpRequested
deriving DecidableEq

/-- The exit status after a fault: asking for help is none. -/
def UsageFault.exitStatus : UsageFault → Nat
  | .helpRequested => 0
  | _ => 2

/-- The sentence that reports a fault. -/
def UsageFault.message : UsageFault → String
  | .nothingGiven | .helpRequested =>
    "usage: kruskal forest [--format text|json] [--tie-break insertion|latest-first] PATH"
  | .missingPath => "the path of the edge list is missing"
  | .invalidValue => "the value of an argument is missing or not admitted"
  | .unknownArgument => "there is no such argument"
  | .unknownCommand => "there is no such command"
  | .repeatedOption => "an option is given twice"
  | .superfluousValue => "an option takes no value"

/-! ## The words of the command line -/

/-- The word that names a format. -/
def SummaryFormat.word : SummaryFormat → String
  | .text => "text"
  | .json => "json"

/-- The word that names a tie-break. -/
def TieBreak.word : TieBreak → String
  | .insertionOrder => "insertion"
  | .latestFirst => "latest-first"

/-- The member of a list that goes by the given word. -/
def named? (word : α → String) (members : List α) (given : Argument) : Option α :=
  members.find? fun member => Text.encode (word member) == given

/-- The format of a given name. -/
def SummaryFormat.ofWord? : Argument → Option SummaryFormat :=
  named? word [.text, .json]

/-- The tie-break of a given name. -/
def TieBreak.ofWord? : Argument → Option TieBreak :=
  named? word [.insertionOrder, .latestFirst]

/-- The options that take a value. -/
inductive ValueOption where
  | format
  | tieBreak
deriving DecidableEq

/-- The name of an option. -/
def ValueOption.word : ValueOption → String
  | .format => "format"
  | .tieBreak => "tie-break"

/-- The option of a given name. -/
def ValueOption.ofWord? : Argument → Option ValueOption :=
  named? word [.format, .tieBreak]

/-- A command: where the edge list is, and how to answer. -/
structure ForestCommand where
  /-- The path of the edge list. -/
  path : Argument
  /-- The form of the answer. -/
  format : SummaryFormat := .text
  /-- The tie-break. -/
  tieBreak : TieBreak := .insertionOrder
deriving DecidableEq

/-! ## Tokens -/

/-- What an argument is by its form. -/
inductive Token where
  /-- `--`, which ends the options. -/
  | separator
  /-- `--name` or `--name=value`. -/
  | long (name : Argument) (value : Option Argument)
  /-- `-` and letters. -/
  | short (letters : Argument)
  /-- Anything else. -/
  | word (bytes : Argument)
deriving DecidableEq

namespace Token

/-- The byte of the character `-`. -/
def dash : UInt8 := 0x2d

/-- The byte of the character `=`. -/
def equalsSign : UInt8 := 0x3d

/-- The option whose text follows two dashes. -/
def ofLong (text : Argument) : Token :=
  let name := text.takeWhile (· != equalsSign)
  .long name (text.drop name.length).tail?

/-- The token that an argument is. -/
def ofArgument (bytes : Argument) : Token :=
  match bytes with
  | first :: second :: rest =>
    if first = dash then
      if second = dash then if rest.isEmpty then .separator else ofLong rest
      else .short (second :: rest)
    else .word bytes
  | _ => .word bytes

/-- Whether a token asks for help: the option `help`, or letters the first of
    which is `h`. -/
def asksForHelp : Token → Bool
  | .long name _ => name == Text.encode "help"
  | .short letters => letters.head? == some 0x68
  | _ => false

/-- The fault of a token that asks for help. -/
def helpFault : Token → UsageFault
  | .long _ (some _) => .superfluousValue
  | _ => .helpRequested

end Token

/-! ## Reading a command -/

/-- Something that has been read and is still to be examined. -/
inductive Pending where
  /-- An option, with its value once that has been read. -/
  | value (option : ValueOption) (given : Option Argument)
  /-- A path. -/
  | path (given : Argument)
deriving DecidableEq

/-- What has been read of a command. -/
structure Reading where
  /-- The path, once examined. -/
  path : Option Argument := none
  /-- The format, once examined. -/
  format : Option SummaryFormat := none
  /-- The tie-break, once examined. -/
  tieBreak : Option TieBreak := none
  /-- What is still to be examined. -/
  pending : Option Pending := none
deriving DecidableEq

namespace Reading

/-- Whether an option has been given before. -/
def has (r : Reading) : ValueOption → Bool
  | .format => r.format.isSome
  | .tieBreak => r.tieBreak.isSome

/-- Whether a path has been read. -/
def hasPath (r : Reading) : Bool :=
  r.path.isSome || match r.pending with
    | some (.path _) => true
    | _ => false

/-- Gives an option a value. -/
def choose (r : Reading) (option : ValueOption) (given : Argument) : Except UsageFault Reading :=
  if r.has option then .error .repeatedOption
  else match option with
    | .format =>
      match SummaryFormat.ofWord? given with
      | some format => .ok { r with format := some format }
      | none => .error .invalidValue
    | .tieBreak =>
      match TieBreak.ofWord? given with
      | some tieBreak => .ok { r with tieBreak := some tieBreak }
      | none => .error .invalidValue

/-- Examines what is still to be examined. -/
def settle (r : Reading) : Except UsageFault Reading :=
  let settled := { r with pending := none }
  match r.pending with
  | none => .ok settled
  | some (.path given) =>
    if given.isEmpty then .error .invalidValue else .ok { settled with path := some given }
  | some (.value _ none) => .error .invalidValue
  | some (.value option (some given)) => settled.choose option given

/-- Reads an option, with its value if that is attached to it. -/
def readOption (r : Reading) (option : ValueOption) (attached : Option Argument) :
    Except UsageFault Reading := do
  let r ← r.settle
  match attached with
  | some given => r.choose option given
  | none => return { r with pending := some (.value option none) }

/-- Reads a path. -/
def readPath (r : Reading) (given : Argument) : Except UsageFault Reading := do
  if r.hasPath then throw .unknownArgument
  let r ← r.settle
  return { r with pending := some (.path given) }

/-- Reads a word that is no option: the value that an option waits for, or
    else a path. -/
def readWord (r : Reading) (given : Argument) : Except UsageFault Reading :=
  match r.pending with
  | some (.value option none) => .ok { r with pending := some (.value option (some given)) }
  | _ => r.readPath given

/-- The command, after the last argument. -/
def command (r : Reading) : Except UsageFault ForestCommand := do
  let r ← r.settle
  match r.path with
  | none => throw .missingPath
  | some path =>
    return { path, format := r.format.getD .text, tieBreak := r.tieBreak.getD .insertionOrder }

/-- Reads one token other than the separator. -/
def readToken (r : Reading) (token : Token) : Except UsageFault Reading :=
  if token.asksForHelp then
    match token.helpFault with
    | .helpRequested => do let _ ← r.settle; throw .helpRequested
    | fault => throw fault
  else match token with
    | .word given => r.readWord given
    | .long name attached =>
      match ValueOption.ofWord? name with
      | some option => r.readOption option attached
      | none => throw .unknownArgument
    | _ => throw .unknownArgument

end Reading

namespace Arguments

/-- Reads the arguments behind the separator, all of which are paths. -/
def readPaths (r : Reading) (arguments : List Argument) : Except UsageFault ForestCommand := do
  (← arguments.foldlM Reading.readPath r).command

/-- Reads the arguments of the command `forest`. -/
def readForest (r : Reading) : List Argument → Except UsageFault ForestCommand
  | [] => r.command
  | argument :: rest =>
    match Token.ofArgument argument with
    | .separator => readPaths r rest
    | token => do readForest (← r.readToken token) rest

/-- The commands. -/
inductive CommandName where
  | forest
  | help
deriving DecidableEq

/-- The word for a command. -/
def CommandName.word : CommandName → String
  | .forest => "forest"
  | .help => "help"

/-- The command of a given name. -/
def CommandName.ofWord? : Argument → Option CommandName :=
  named? word [.forest, .help]

/-- The fault of the command `help`: it knows the commands, and these have no
    commands of their own. -/
def helpFault : List Argument → UsageFault
  | [] => .helpRequested
  | [name] => if (CommandName.ofWord? name).isSome then .helpRequested else .unknownCommand
  | _ => .unknownCommand

/-- The fault of arguments that begin with the separator. -/
def separatorFault : List Argument → UsageFault
  | [] => .nothingGiven
  | name :: _ =>
    if (CommandName.ofWord? name).isSome then .unknownArgument else .unknownCommand

/-- The command that the arguments make. -/
def parse : List Argument → Except UsageFault ForestCommand
  | [] => .error .nothingGiven
  | argument :: rest =>
    match Token.ofArgument argument with
    | .separator => .error (separatorFault rest)
    | .word name =>
      match CommandName.ofWord? name with
      | some .forest => readForest {} rest
      | some .help => .error (helpFault rest)
      | none => .error .unknownCommand
    | token => .error (if token.asksForHelp then token.helpFault else .unknownArgument)

end Arguments

end SpanForest
