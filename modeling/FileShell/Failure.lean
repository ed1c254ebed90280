import FileShell.FileSystem.Fault

/-!
# Failures

A `Failure` ends an action before it has a result.  What was done up to then stays done.  Some
failures are turned into results by `Interpreter.interpret` (faults, refused moves, unencodable
texts), the others leave it: they mean that an argument was not given at all, that a path contained
the zero byte, or that a recursion went deeper than the host lets it.

* `Failure.message`: the wording of each failure.
-/

namespace FileShell

/-- A part of a directory that could not be copied: from where, to where, and why. -/
structure Uncopied where
  source : Text
  target : Text
  reason : Text
deriving DecidableEq, Repr

/-- The text of the list of what could not be copied. -/
def Uncopied.listText (us : List Uncopied) : Text :=
  let one := fun u : Uncopied =>
    "(" ++ Text.joined ", " [u.source.quoted, u.target.quoted, u.reason.quoted] ++ ")"
  "[" ++ Text.joined ", " (us.map one) ++ "]"

/-- Why a move was refused or given up. -/
inductive MoveRefusal where
  | targetTaken (target : Text)
  | intoItself (source target : Text)
  | incomplete (parts : List Uncopied)
deriving DecidableEq, Repr

/-- The wording of a refused move. -/
def MoveRefusal.message : MoveRefusal → Text
  | targetTaken target => "Destination path '" ++ target ++ "' already exists"
  | intoItself source target =>
    "Cannot move a directory '" ++ source ++ "' into itself '" ++ target ++ "'."
  | incomplete parts => Uncopied.listText parts

/-- What was given as a level of messages and is none: a text that names no level, or a value of
another kind, as it is shown. -/
inductive WrongLevel where
  | name (t : Text)
  | value (shown : Text)
deriving DecidableEq, Repr

/-- The wording of what is no level. -/
def WrongLevel.message : WrongLevel → Text
  | name t => "Unknown level: " ++ t.quoted
  | value shown => "Level not an integer or a valid string: " ++ shown

/-- Why an action ended without a result. -/
inductive Failure where
  | noLine
  | noArguments
  | zeroByte
  | tooNested (doing : Text)
  | unencodable (place : Unencodable)
  | fault (cause : Fault) (paths : List Text)
  | move (refusal : MoveRefusal)
  | notAnObject (kind : Text)
  | unknownLevel (level : WrongLevel)
  | unknownErrorKind (name : Text)
  | unmatchedTag (message : Text)
  | noHome
  | unknownColor (color : Text)
  | noLineValue
deriving DecidableEq, Repr

/-- The wording of a failure. -/
def Failure.message : Failure → Text
  | noLine => "input line must not be None"
  | noArguments => "argument list must not be None"
  | zeroByte => "embedded null byte"
  | tooNested doing => "maximum recursion depth exceeded" ++ doing
  | unencodable e => e.message
  | fault cause _ => cause.message
  | move refusal => refusal.message
  | notAnObject kind => "'" ++ kind ++ "' object has no attribute 'get'"
  | unknownLevel level => level.message
  | unknownErrorKind name => name.quoted ++ " is not a valid ErrorKind"
  | unmatchedTag message => message
  | noHome => "Could not determine home directory."
  | noLineValue => "'list' object has no attribute 'strip'"
  | unknownColor color => "Wrong color format " ++ color.quoted

end FileShell
