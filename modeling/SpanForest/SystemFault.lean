/-! # Faults of the operating system

    Opening or reading a file can fail for reasons that the operating system
    gives, under a number and with a sentence.
-/

namespace SpanForest

/-- Why the operating system refuses to open or read a file. -/
inductive SystemFault where
  /-- There is no such file. -/
  | noSuchFile
  /-- A file stands where a directory is needed. -/
  | notADirectory
  /-- A directory stands where a file is needed. -/
  | isADirectory
  /-- A name in the path is too long. -/
  | nameTooLong
  /-- The path holds a null character, so it cannot be handed over. -/
  | nullInName
  /-- Any other fault, with its number and its description. -/
  | other (number : Nat) (description : String)
deriving DecidableEq

/-- The sentence for a fault. -/
def SystemFault.message : SystemFault → String
  | .noSuchFile => "No such file or directory (os error 2)"
  | .notADirectory => "Not a directory (os error 20)"
  | .isADirectory => "Is a directory (os error 21)"
  | .nameTooLong => "File name too long (os error 36)"
  | .nullInName => "file name contained an unexpected NUL byte"
  | .other number description => description ++ " (os error " ++ toString number ++ ")"

/-- The fault of a given number. -/
def SystemFault.ofNumber (number : Nat) (description : String) : SystemFault :=
  match number with
  | 2 => .noSuchFile
  | 20 => .notADirectory
  | 21 => .isADirectory
  | 36 => .nameTooLong
  | _ => .other number description

end SpanForest
