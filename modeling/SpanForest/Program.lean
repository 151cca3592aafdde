import SpanForest.Command.Forest
import SpanForest.Text.Quoted
import SpanForest.Trace.Journal

/-! # The program

    The program sets up its log, reads its arguments, runs the command, and
    prints the summary. Two variables of the environment concern the log:
    one names its format, the other is its filter.

    * **`LogFormat.ofVariable`**: the format, or why there is none. Without a
      format the program stops before it looks at its arguments.
    * **`Program.run`**: everything that the program does, given a way to
      open files.
-/

namespace SpanForest

/-! ## The log -/

/-- The format of the log. -/
inductive LogFormat where
  /-- Lines for people. -/
  | human
  /-- One JSON object a line. -/
  | json
deriving DecidableEq

/-- Why the log cannot be set up. -/
inductive LogFault where
  /-- The value of the variable is no text. -/
  | notText (bytes : List UInt8)
  /-- There is no such format. -/
  | unknownFormat (provided : String)
deriving DecidableEq

/-- The variable that names the format of the log. -/
def logFormatVariable : String := "KRUSKAL_LOG_FORMAT"

/-- The variable that is the filter of the log. -/
def logFilterVariable : String := "RUST_LOG"

/-- The sentence that reports a fault. -/
def LogFault.message : LogFault → String
  | .notText bytes =>
    "environment variable `" ++ logFormatVariable ++ "` contained invalid UTF-8: "
      ++ "environment variable was not valid unicode: " ++ Text.quoteBytes bytes
  | .unknownFormat provided =>
    "unsupported log format `" ++ provided ++ "`; expected `human` or `json`"

/-- The line that reports a fault before there is a log. -/
def LogFault.report (fault : LogFault) : String :=
  "failed to initialize logging: " ++ fault.message

/-- Reads the name of a format: a word in letters of either case with white
    space around it, where no word at all means the format for people. -/
def LogFormat.read (value : List Char) : Except LogFault LogFormat :=
  match String.ofList ((Text.trim value).map Char.toLower) with
  | "human" | "" => .ok .human
  | "json" => .ok .json
  | word => .error (.unknownFormat word)

/-- The format that the value of the variable names. -/
def LogFormat.ofVariable : Option (List UInt8) → Except LogFault LogFormat
  | none => .ok .human
  | some bytes =>
    match Text.decode? bytes with
    | some value => read value
    | none => .error (.notText bytes)

/-! ## Running the program -/

/-- What the program is started with. -/
structure Invocation where
  /-- The arguments, without the name of the program. -/
  arguments : List Argument
  /-- The variable that names the format of the log, if set. -/
  logFormat : Option (List UInt8) := none
  /-- The variable that is the filter of the log, if set. -/
  logFilter : Option (List UInt8) := none
deriving DecidableEq

/-- What the program leaves behind. -/
structure Conclusion where
  /-- The exit status: zero for success. -/
  exitStatus : Nat
  /-- What is printed. -/
  output : String := ""
  /-- Why the log could not be set up. -/
  logFault : Option LogFault := none
  /-- Why the arguments make no command. -/
  usageFault : Option UsageFault := none
  /-- The format of the log. -/
  logFormat : LogFormat := .human
  /-- The records of the log. -/
  log : List LogRecord := []
deriving DecidableEq

namespace Program

/-- The event that ends a program whose command failed. -/
def failedEvent (fault : CommandFault) : Event :=
  .saying .error .program "command execution failed"
    [("error", .text (": ".intercalate ("failed to execute command" :: fault.chain)))]

/-- What the program leaves behind after its command. -/
def conclude (format : LogFormat) (filter : LogFilter)
    (outcome : Except CommandFault CommandAnswer × Trace) : Conclusion :=
  match outcome with
  | (.ok answer, trace) =>
    { exitStatus := 0
      output := answer.summary.render answer.format
      logFormat := format
      log := Journal.ofTrace filter trace }
  | (.error fault, trace) =>
    { exitStatus := 1
      logFormat := format
      log := Journal.ofTrace filter (trace ++ [.happens (failedEvent fault)]) }

/-- Runs the program. Files are opened in the monad of the caller, at most one
    of them. -/
def run [Monad m] (openFile : List UInt8 → m (Except SystemFault Opened)) (i : Invocation) :
    m Conclusion :=
  match LogFormat.ofVariable i.logFormat with
  | .error fault => pure { exitStatus := 1, logFault := some fault }
  | .ok format =>
    match Arguments.parse i.arguments with
    | .error fault =>
      pure { exitStatus := fault.exitStatus, usageFault := some fault, logFormat := format }
    | .ok command => do
      let opened ← openFile command.path
      return conclude format (.ofVariable i.logFilter) (command.run opened)

end Program

end SpanForest
