import FileShell.FileSystem.Basic
import FileShell.Failure

/-!
# Which place a path means

A path is followed from the root step by step: `.` stays, `..` goes to the directory above (the
root is above itself), a name enters a directory, and a link is replaced by its target.  At most
`linkLimit` links are followed on one way; a path has at most `pathLimit` bytes.

* `FileSystem.locate`: the spot that a path leads to, taken by a node or vacant in an existing
  directory, or why it leads nowhere.
* `isPresent`, `isDirectory`, `hasEntry`, `isLink`: the tests, false whenever the path leads nowhere.
-/

namespace FileShell

/-- The greatest number of bytes in a path. -/
def pathLimit : Nat := 4095

/-- The greatest number of links that are followed on the way to one spot. -/
def linkLimit : Nat := 40

/-- What a path is followed for: the entry itself, what the entry leads to, or a file that may have
to be made. -/
inductive Aim where
  | entry
  | target
  | creation
deriving DecidableEq, Repr

/-- The steps of a path in bytes. -/
structure Route where
  isAbsolute : Bool
  steps : List Bytes
  endsInSlash : Bool

/-- The route that bytes spell. -/
def Route.ofBytes (b : Bytes) : Route where
  isAbsolute := b.head? = some slashByte
  steps := (cutAt slashByte b).filter (· ≠ [])
  endsInSlash := b.getLast? = some slashByte

/-- What a path leads to: a node, or a name that an existing directory does not hold.  `slash` tells
that the vacant name was followed by a slash. -/
inductive Spot where
  | taken (place : Location) (node : Node)
  | vacant (place : Location) (slash : Bool)

namespace FileSystem

/-- Follows steps from a directory up to the first link that has to be followed; `jump` goes on
from there.  A link at the very end is followed unless the entry itself is meant and no slash stands
after it.  A file cannot be made under a name with a slash after it. -/
def descend (fs : FileSystem) (aim : Aim)
    (jump : Location → List Bytes → Bool → Except Fault Spot) :
    Location → List Bytes → Bool → Except Fault Spot
  | here, [], _ => .ok (.taken here (.directory (fs.entriesAt here)))
  | here, step :: rest, slash =>
    if step = [dotByte] then descend fs aim jump here rest slash
    else if step = [dotByte, dotByte] then descend fs aim jump here.dropLast rest slash
    else if aim = .creation ∧ rest = [] ∧ slash = true then .error .isADirectory
    else match Name.ofBytes? step with
      | none => .error (if step.length > nameLimit then .nameTooLong else .noEntry)
      | some n =>
        let place := here ++ [n]
        match fs.node? place with
        | none => if rest = [] then .ok (.vacant place slash) else .error .noEntry
        | some (.directory _) => descend fs aim jump place rest slash
        | some (.file bytes) =>
          if rest = [] ∧ slash = false then .ok (.taken place (.file bytes))
          else .error .notADirectory
        | some (.link target) =>
          if rest = [] ∧ slash = false ∧ aim = .entry then .ok (.taken place (.link target))
          else
            let route := Route.ofBytes target
            jump (if route.isAbsolute then [] else here) (route.steps ++ rest)
              (if rest = [] then slash || route.endsInSlash else slash)

/-- Follows steps from a directory through up to `links` links. -/
def walk (fs : FileSystem) (aim : Aim) :
    (links : Nat) → Location → List Bytes → Bool → Except Fault Spot
  | 0 => descend fs aim fun _ _ _ => .error .tooManyLinks
  | links + 1 => descend fs aim (walk fs aim links)

/-- The spot that a path in bytes leads to from the root. -/
def locateBytes (fs : FileSystem) (aim : Aim) (path : Bytes) : Except Fault Spot :=
  if path = [] then .error .noEntry
  else if path.length > pathLimit then .error .nameTooLong
  else
    let route := Route.ofBytes path
    fs.walk aim linkLimit [] route.steps route.endsInSlash

/-- The spot that a path leads to from the root. -/
def locate (fs : FileSystem) (aim : Aim) (path : Text) : Except Failure Spot :=
  match path.encode with
  | .error e => .error (.unencodable e)
  | .ok bytes =>
    if bytes.contains 0 then .error .zeroByte
    else match fs.locateBytes aim bytes with
      | .ok spot => .ok spot
      | .error f => .error (.fault f [path])

/-- The node that a path leads to, and its place. -/
def found? (fs : FileSystem) (aim : Aim) (path : Text) : Option (Location × Node) :=
  match fs.locate aim path with
  | .ok (.taken place node) => some (place, node)
  | _ => none

/-- Does the path lead to anything, links followed? -/
def isPresent (fs : FileSystem) (path : Text) : Bool := (fs.found? .target path).isSome

/-- Does the path lead to anything, be it a link that leads nowhere? -/
def hasEntry (fs : FileSystem) (path : Text) : Bool := (fs.found? .entry path).isSome

/-- Does the path lead to a directory, links followed? -/
def isDirectory (fs : FileSystem) (path : Text) : Bool :=
  match fs.found? .target path with
  | some (_, node) => node.isDirectory
  | none => false

/-- Does the path lead to a link? -/
def isLink (fs : FileSystem) (path : Text) : Bool :=
  match fs.found? .entry path with
  | some (_, node) => node.isLink
  | none => false

/-- The time set explicitly of what a path leads to, links followed. -/
def timeOf? (fs : FileSystem) (path : Text) : Option Nat :=
  (fs.found? .target path).bind fun r => fs.time? r.1

/-- Do two paths lead to the same place, links followed? -/
def isSamePlace (fs : FileSystem) (p q : Text) : Bool :=
  match fs.found? .target p, fs.found? .target q with
  | some (a, _), some (b, _) => a = b
  | _, _ => false

end FileSystem

end FileShell
