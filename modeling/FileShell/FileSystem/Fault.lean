import FileShell.Text.Quoted

/-!
# What can go wrong with the file system

A `Fault` is the cause for which the file system turns a request down.  Each has a number and a
wording; the wording is what the user of the shell gets to see.
-/

namespace FileShell

/-- Why the file system turns a request down. -/
inductive Fault where
  | noEntry
  | busy
  | alreadyThere
  | notADirectory
  | isADirectory
  | invalid
  | nameTooLong
  | notEmpty
  | tooManyLinks
deriving DecidableEq, Repr

namespace Fault

/-- The number of a fault. -/
def number : Fault → Nat
  | noEntry => 2
  | busy => 16
  | alreadyThere => 17
  | notADirectory => 20
  | isADirectory => 21
  | invalid => 22
  | nameTooLong => 36
  | notEmpty => 39
  | tooManyLinks => 40

/-- The wording of a fault. -/
def message : Fault → Text
  | noEntry => "No such file or directory"
  | busy => "Device or resource busy"
  | alreadyThere => "File exists"
  | notADirectory => "Not a directory"
  | isADirectory => "Is a directory"
  | invalid => "Invalid argument"
  | nameTooLong => "File name too long"
  | notEmpty => "Directory not empty"
  | tooManyLinks => "Too many levels of symbolic links"

/-- A fault with its number and the paths of the request. -/
def report (f : Fault) (paths : List Text) : Text :=
  "[Errno " ++ Text.decimal f.number ++ "] " ++ f.message ++
    (if paths = [] then [] else ": " ++ Text.joined " -> " (paths.map Text.quoted) : Text)

end Fault

end FileShell
