import FileShell.Text.Case
import FileShell.Session

/-!
# Verbs

The ten commands that a shell knows, in the order in which the help lists them, each with a name, a
summary and a usage line.

* `Verb.lookup?`: names are found without regard to case.
* `Verb.lookup?_name`: every verb is found under its name.
-/

namespace FileShell

/-- A command that the shell knows. -/
inductive Verb where
  | cd
  | pwd
  | ls
  | mkdir
  | touch
  | rm
  | rmdir
  | mv
  | cat
  | help
deriving DecidableEq, Repr

namespace Verb

/-- Every verb, in the order of the help. -/
def all : List Verb := [cd, pwd, ls, mkdir, touch, rm, rmdir, mv, cat, help]

/-- The name of a verb. -/
def name : Verb → Text
  | cd => "cd"
  | pwd => "pwd"
  | ls => "ls"
  | mkdir => "mkdir"
  | touch => "touch"
  | rm => "rm"
  | rmdir => "rmdir"
  | mv => "mv"
  | cat => "cat"
  | help => "help"

/-- What a verb does. -/
def summary : Verb → Text
  | cd => "Change the working directory"
  | pwd => "Print the working directory"
  | ls => "List directory contents"
  | mkdir => "Create a directory and missing parents"
  | touch => "Create a file or update its timestamp"
  | rm => "Remove files, or directories with -r"
  | rmdir => "Remove an empty directory"
  | mv => "Move a file"
  | cat => "Print file contents"
  | help => "Show this help"

/-- How a verb is used. -/
def usage : Verb → Text
  | cd => "cd [dir | .. | ~]"
  | pwd => "pwd"
  | ls => "ls [-a] [-r] [dir]"
  | mkdir => "mkdir <path> [base]"
  | touch => "touch <file>..."
  | rm => "rm [-r] <path>..."
  | rmdir => "rmdir <dir>"
  | mv => "mv <source> <dest>"
  | cat => "cat <file>..."
  | help => "help"

/-- The verb with a name, without regard to case. -/
def lookup? (t : Text) : Option Verb := all.find? fun v => v.name = t.lower

theorem lookup?_name (v : Verb) : lookup? v.name = some v := by
  cases v <;> decide

/-- The text that lists the verbs with their summaries, in two columns. -/
def helpText : Text :=
  let width := ((all.map fun v => v.name.length).max?).getD 0
  let line (v : Verb) : Text :=
    v.name ++ List.replicate (width - v.name.length) (Symbol.scalar ' ') ++ "  " ++ v.summary
  Text.joined "\n" (all.map line)

end Verb

end FileShell
