import FileShell.Text.Utf8

/-!
# Results of commands

A command ends with a `Result`: the text that the user sees and, if it did not do what was asked,
the kind of error.  Success and error share the one text.

* `ErrorKind.ofName?_name`: a kind is determined by its name.
* `Result.combine`: the results of several operands as one; a single one stays as it is.
-/

namespace FileShell

/-- The kinds of errors that a command reports. -/
inductive ErrorKind where
  | invalidArgument
  | notFound
  | alreadyExists
  | notEmpty
  | isADirectory
  | notADirectory
  | unsupportedFlag
  | missingOperand
  | unknownCommand
  | badRedirect
  | ioError
deriving DecidableEq, Repr

namespace ErrorKind

/-- The name under which a kind is reported. -/
def name : ErrorKind → String
  | invalidArgument => "invalid_argument"
  | notFound => "not_found"
  | alreadyExists => "already_exists"
  | notEmpty => "not_empty"
  | isADirectory => "is_a_directory"
  | notADirectory => "not_a_directory"
  | unsupportedFlag => "unsupported_flag"
  | missingOperand => "missing_operand"
  | unknownCommand => "unknown_command"
  | badRedirect => "bad_redirect"
  | ioError => "io_error"

/-- Every kind. -/
def all : List ErrorKind :=
  [invalidArgument, notFound, alreadyExists, notEmpty, isADirectory, notADirectory,
    unsupportedFlag, missingOperand, unknownCommand, badRedirect, ioError]

/-- The kind with a name. -/
def ofName? (t : Text) : Option ErrorKind := all.find? fun k => Text.ofString k.name = t

theorem ofName?_name (k : ErrorKind) : ofName? k.name = some k := by
  cases k <;> decide

end ErrorKind

/-- What a command answers. -/
structure Result where
  output : Text
  error : Option ErrorKind
deriving DecidableEq, Repr

namespace Result

/-- A result without an error. -/
def success (output : Text) : Result := ⟨output, none⟩

/-- A result with an error. -/
def failure (kind : ErrorKind) (output : Text) : Result := ⟨output, some kind⟩

/-- Did the command do what was asked? -/
def isOk (r : Result) : Bool := r.error.isNone

/-- The results of several operands as one: their texts on lines of their own, and the error of the
first that has one. -/
def combine (rs : List Result) : Result where
  output := Text.joined "\n" (rs.map output)
  error := rs.findSome? error

@[simp] theorem combine_singleton (r : Result) : combine [r] = r := by
  simp [combine, joinWith]

end Result

end FileShell
