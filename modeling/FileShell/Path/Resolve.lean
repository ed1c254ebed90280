import FileShell.Path.Spelling

/-!
# From tokens to paths

A token that a user types names a path relative to the working directory of a shell; a tilde at
its start stands for the home directory.  Whether anything exists at the path is not asked here.
-/

namespace FileShell

namespace Path

/-- The tilde alone. -/
def tilde : Text := [.scalar '~']

/-- The path that a token names: `~` and a leading `~/` stand for the home directory, and a
relative token is seen from the working directory. -/
def resolve (token cwd home : Text) : Text :=
  if token = tilde then normalize home
  else
    let path := match token with
      | .scalar '~' :: .scalar '/' :: rest => join home rest
      | _ => token
    normalize (if isAbsolute path then path else join cwd path)

/-- The parent of a path as far as its text tells; a root has none. -/
def parent? (p : Text) : Option Text :=
  let path := normalize p
  let above := directory path
  if above = [] ∨ above = path then none else some above

end Path

end FileShell
