import SpanForest.Text.Blank
import SpanForest.Text.Integer
import SpanForest.Text.Utf8
import SpanForest.Trace

/-! # Profiles of property-test runs

    How many cases a property is tried on, and whether each case runs in a
    process of its own, are settled by two variables of the environment, and
    otherwise by the defaults of the suite.

    * A variable that is unset, or is no text, leaves the default in force.
    * A variable whose text makes no sense does so too, with a warning.
    * **`RunProfile.load`**: the profile, and the warnings on the way.
-/

namespace SpanForest

/-- How property tests are run. -/
structure RunProfile where
  /-- The number of cases of each property. -/
  cases : Nat
  /-- Whether each case runs in a process of its own. -/
  fork : Bool
deriving DecidableEq

namespace RunProfile

instance : Inspect RunProfile :=
  ⟨fun p => Inspect.record "ProptestRunProfile"
    [("cases", inspect p.cases), ("fork", inspect p.fork)]⟩

/-- The variable that overrides the number of cases. -/
def casesVariable : String := "PROPTEST_CASES"

/-- The variable that overrides the choice of processes. -/
def forkVariable : String := "KRUSKAL_PBT_FORK"

/-! ## Reading values -/

/-- Reads a number of cases: a positive number of 32 bits, with white space
    around it. -/
def readCases (raw : List Char) : Except String Nat :=
  match Text.Integer.read .nat32 (Text.trim raw) with
  | .error fault => .error ("not a case count: " ++ fault.message)
  | .ok count => if count = 0 then .error "case count must be positive" else .ok count.toNat

/-- The words that switch something on, and those that switch it off. -/
def switchWords : List (String × Bool) :=
  [("1", true), ("true", true), ("yes", true), ("on", true),
    ("0", false), ("false", false), ("no", false), ("off", false)]

/-- Reads a switch: one of eight words, with white space around it and its
    letters in either case. -/
def readSwitch (raw : List Char) : Except String Bool :=
  let word := String.ofList ((Text.trim raw).map Char.toLower)
  match switchWords.lookup word with
  | some b => .ok b
  | none => .error ("`" ++ word ++ "` is not a boolean switch")

/-! ## Overrides -/

/-- The warning that a value is ignored. -/
def ignoredValue (name raw reason : String) : Event :=
  .saying .warn .profile "ignoring invalid property-test override"
    [("env", .text name), ("raw", .text raw), ("reason", .text reason)]

/-- The value of a variable, where it is set to a text that makes sense, and
    otherwise the default. -/
def overrideOr (name : String) (value : Option (List UInt8)) (default : β)
    (read : List Char → Except String β) : β × List Event :=
  match value.bind Text.decode? with
  | none => (default, [])
  | some raw =>
    match read raw with
    | .ok b => (b, [])
    | .error reason => (default, [ignoredValue name (String.ofList raw) reason])

/-- The profile under the given values of the two variables, with the
    warnings: those of the number of cases before those of the processes. -/
def load (cases fork : Option (List UInt8)) (defaults : RunProfile) :
    RunProfile × List Event :=
  let (cases, caseWarnings) := overrideOr casesVariable cases defaults.cases readCases
  let (fork, forkWarnings) := overrideOr forkVariable fork defaults.fork readSwitch
  (⟨cases, fork⟩, caseWarnings ++ forkWarnings)

end RunProfile

end SpanForest
