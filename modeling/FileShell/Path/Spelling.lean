import FileShell.Text.Symbol

/-!
# How paths are spelled

A path is a text; its *spelling* is the anchor it starts from (nowhere, `/`, or `//`, which is
kept apart from `/`; three slashes and more count as one) and the parts between its slashes,
without the empty ones and the `.` parts.  Everything about paths that does not ask the file system
is decided on spellings: cleaning up, joining, taking the parent, comparing.

* `Path.normalize`: the path with `..` parts cancelled against the parts before them.
* `Path.join`, `Path.directory`, `Path.base`: putting together and taking apart at slashes.
* `Path.absolute`: the path seen from a directory.
-/

namespace FileShell

/-- Where a path starts. -/
inductive Anchor where
  | relative
  | root
  | doubleRoot
deriving DecidableEq, Repr

/-- The slashes that an anchor is written with. -/
def Anchor.slashes : Anchor → Text
  | relative => []
  | root => [.scalar '/']
  | doubleRoot => [.scalar '/', .scalar '/']

/-- A path taken apart: its anchor and the parts between its slashes. -/
structure Spelling where
  anchor : Anchor
  parts : List Text
deriving DecidableEq, Repr

namespace Path

/-- The part that stays where it is. -/
def here : Text := [.scalar '.']

/-- The part that goes up. -/
def up : Text := [.scalar '.', .scalar '.']

/-- The anchor of a path. -/
def anchor : Text → Anchor
  | .scalar '/' :: .scalar '/' :: .scalar '/' :: _ => .root
  | .scalar '/' :: .scalar '/' :: _ => .doubleRoot
  | .scalar '/' :: _ => .root
  | _ => .relative

/-- Does the path start with a slash? -/
def isAbsolute (p : Text) : Bool := p.head? = some (.scalar '/')

end Path

namespace Spelling

/-- The spelling of a path. -/
def ofText (p : Text) : Spelling where
  anchor := Path.anchor p
  parts := (cutAt (.scalar '/') p).filter fun c => !(c = [] || c = Path.here)

/-- The path with a spelling; the relative path without parts is written `.`. -/
def toText (s : Spelling) : Text :=
  if s.anchor = .relative ∧ s.parts = [] then Path.here
  else s.anchor.slashes ++ joinWith [.scalar '/'] s.parts

/-- Puts a part on the stack of those before it, the last on top: `..` removes a part that is not
`..` itself, and stays only where the path is relative and nothing is left to remove. -/
def push (anchored : Bool) (stack : List Text) (part : Text) : List Text :=
  if part = Path.up then
    match stack with
    | [] => if anchored then [] else [part]
    | top :: below => if top = Path.up then part :: stack else below
  else part :: stack

/-- The spelling with the `..` parts cancelled. -/
def reduce (s : Spelling) : Spelling where
  anchor := s.anchor
  parts := (s.parts.foldl (push (s.anchor != .relative)) []).reverse

/-- The spelling with more parts at its end. -/
def append (s : Spelling) (parts : List Text) : Spelling := ⟨s.anchor, s.parts ++ parts⟩

/-- The spelling without its last part. -/
def parent (s : Spelling) : Spelling := ⟨s.anchor, s.parts.dropLast⟩

end Spelling

namespace Path

/-- The path with redundant slashes and `.` parts removed and `..` parts cancelled. -/
def normalize (p : Text) : Text := (Spelling.ofText p).reduce.toText

/-- The second path seen from the first: an absolute second path wins. -/
def join (p q : Text) : Text :=
  if isAbsolute q then q
  else if p = [] ∨ p.getLast? = some (.scalar '/') then p ++ q
  else p ++ .scalar '/' :: q

/-- What stands after the last slash of a path. -/
def base (p : Text) : Text := (p.reverse.takeWhile (· ≠ .scalar '/')).reverse

/-- The path without trailing slashes. -/
def withoutTrailingSlashes (p : Text) : Text := (p.reverse.dropWhile (· = .scalar '/')).reverse

/-- What stands before the last slash of a path, without slashes at its end unless it consists of
nothing else. -/
def directory (p : Text) : Text :=
  let head := (p.reverse.dropWhile (· ≠ .scalar '/')).reverse
  if withoutTrailingSlashes head = [] then head else withoutTrailingSlashes head

/-- The normalized path seen from a directory. -/
def absolute (directory p : Text) : Text :=
  normalize (if isAbsolute p then p else join directory p)

/-- The longest list that two lists both start with. -/
def commonStart : List Text → List Text → List Text
  | a :: as, b :: bs => if a = b then a :: commonStart as bs else []
  | _, _ => []

/-- Is the first path the second one or one of the directories above it, as far as the texts tell?
The common start of their parts, written as a path, has to be the first path letter by letter. -/
def isAtOrAbove (p q : Text) : Bool :=
  if isAbsolute p ≠ isAbsolute q then false
  else
    let common := commonStart (Spelling.ofText p).parts (Spelling.ofText q).parts
    p = (if isAbsolute p then [.scalar '/'] else []) ++ joinWith [.scalar '/'] common

/-- Does the second path lie in the first, or is it the same, by their texts alone? -/
def isInside (outer inner : Text) : Bool :=
  let closed := fun p : Text => if p.getLast? = some (.scalar '/') then p else p ++ [.scalar '/']
  (closed (normalize outer)).isPrefixOf (closed (normalize inner))

end Path

end FileShell
