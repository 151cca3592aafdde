import SpanForest.Program

/-! # The command line

    Hands the arguments, the environment and the files of this process to the
    program, and prints what the program leaves behind: the summary to
    standard output, everything else to standard error.
-/

namespace SpanForest.Main

/-- The fault behind an error of input or output. -/
def systemFault : IO.Error → SystemFault
  | .noFileOrDirectory _ number details | .interrupted _ number details
  | .alreadyExists _ number details | .permissionDenied _ number details
  | .resourceExhausted _ number details | .inappropriateType _ number details
  | .noSuchThing _ number details | .invalidArgument _ number details =>
    .ofNumber number.toNat details
  | .otherError number details | .resourceBusy number details | .resourceVanished number details
  | .unsupportedOperation number details | .hardwareFault number details
  | .unsatisfiedConstraints number details | .illegalOperation number details
  | .protocolError number details | .timeExpired number details =>
    .ofNumber number.toNat details
  | .unexpectedEof => .other 0 "unexpected end of file"
  | .userError details => .other 0 details

/-- Reads an open file. -/
def readAll (file : IO.FS.Handle) : IO Opened := do
  try
    return .content (← file.readBinToEnd).toList
  catch e =>
    return .unreadable (systemFault e)

/-- Opens and reads a file of the file system. -/
def openFile (path : List UInt8) : IO (Except SystemFault Opened) := do
  if path.contains 0 then
    return .error .nullInName
  try
    let file ← IO.FS.Handle.mk (Text.decodeLossy path) .read
    return .ok (← readAll file)
  catch e =>
    return .error (systemFault e)

/-- The bytes of a variable of the environment. -/
def variableBytes (name : String) : IO (Option (List UInt8)) := do
  return (← IO.getEnv name).map Text.encode

/-- Prints what the program leaves behind. -/
def report (c : Conclusion) : IO Unit := do
  for fault in c.logFault do
    IO.eprintln fault.report
  for fault in c.usageFault do
    if fault.exitStatus = 0 then IO.println fault.message else IO.eprintln fault.message
  for record in c.log do
    match c.logFormat with
    | .human => IO.eprintln record.line
    | .json => IO.eprintln record.document.compact
  IO.print c.output

end SpanForest.Main

open SpanForest in
/-- Runs the program in this process. -/
def main (arguments : List String) : IO UInt32 := do
  let conclusion ← Program.run Main.openFile
    { arguments := arguments.map Text.encode
      logFormat := ← Main.variableBytes logFormatVariable
      logFilter := ← Main.variableBytes logFilterVariable }
  Main.report conclusion
  return UInt32.ofNat conclusion.exitStatus
