import FileShell.Console
import FileShell.Result
import FileShell.Failure
import FileShell.Text.Columns
import FileShell.Text.Utf8

/-!
# Showing texts on a screen

A result is handed to a console with one line feed at its end.  Bytes that are no UTF-8 become
`U+FFFD`; on the console codes of emoji are replaced, five control symbols are left out, tabs become
blanks up to the next multiple of eight columns, and blanks may be cut from the end of a line that
is too wide.  In colour, each stretch of an error that stands in one line is put in red.  Messages
of the program itself may hold markup: a tag in brackets is taken out, a backslash before a bracket
is taken off.

* `Console.print`: what a console shows of a text.
* `Display.ofResult`: what is shown for a result.
* `Display.withoutMarkup`: a text with its tags taken out, or the tag that closes nothing.
-/

namespace FileShell

namespace Display

/-- Is the symbol left out on the screen?  Bell, backspace, vertical tab, form feed and carriage
return are. -/
def isLeftOut (s : Symbol) : Bool := [7, 8, 11, 12, 13].contains s.codePoint

/-- The distance between two tab stops. -/
def tabStop : Nat := 8

/-- A line that starts at a column, with its tabs as blanks. -/
def expandTabs : (column : Nat) → Text → Text
  | _, [] => []
  | column, s :: rest =>
    if s = .scalar '\t' then
      let width := tabStop - column % tabStop
      List.replicate width (.scalar ' ') ++ expandTabs (column + width) rest
    else s :: expandTabs (column + s.columns) rest

/-- The lines of a text without the symbols that are left out and with blanks for tabs. -/
def tabbedLines (t : Text) : List Text :=
  (Text.lines (t.filter (!isLeftOut ·))).map (expandTabs 0)

end Display

/-! ## Results -/

/-- A part of what comes to the screen: a stretch of one line, or the end of a line. -/
inductive Segment where
  | stretch (t : Text)
  | lineEnd
deriving DecidableEq, Repr

namespace Segment

/-- The segments of some lines, with the ends between them. -/
def ofLines : List Text → List Segment
  | [] => []
  | [line] => [stretch line]
  | line :: rest => stretch line :: lineEnd :: ofLines rest

/-- What comes to the screen, each stretch painted. -/
def text (painted : Text → Text) : Segment → Text
  | stretch t => painted t
  | lineEnd => [.scalar '\n']

end Segment

namespace Console

/-- The segments that a console makes of a text. -/
def segments (c : Console) (t : Text) : List Segment :=
  Segment.ofLines ((Display.tabbedLines (c.replaceCodes t)).map c.cut)

/-- What a console shows of a text with something after it, in red or as it is. -/
def print (c : Console) (inRed : Bool) (t ending : Text) : Text :=
  (c.segments t).flatMap (Segment.text (if inRed then c.red else id)) ++ ending

end Console

namespace Display

/-- What is put after a text so that it ends in a line feed. -/
def ending (t : Text) : Text := if t.getLast? = some (.scalar '\n') then [] else [.scalar '\n']

/-- What a console shows for a result, in colour or without. -/
def ofResult (c : Console) (coloured : Bool) (r : Result) : Except Failure Text :=
  if r.output = [] then .ok []
  else match r.output.encode with
    | .error e => .error (.unencodable e)
    | .ok bytes =>
      let t := Text.display bytes
      .ok (c.print (coloured && !r.isOk) t (ending t))

/-! ## Markup -/

/-- A part of a text with markup: a symbol to show, or a tag with its position. -/
inductive MarkupPart where
  | shown (s : Symbol)
  | tag (position : Nat) (body : Text)

/-- May the symbol start a tag? -/
def startsTag (s : Symbol) : Bool :=
  let n := s.codePoint
  (0x61 ≤ n && n ≤ 0x7A) || s = .scalar '#' || s = .scalar '/' || s = .scalar '@'

/-- What stands between a bracket and the bracket that closes it, if that makes a tag. -/
def tagBody? (afterBracket : Text) : Option Text :=
  let body := afterBracket.takeWhile fun s => s ≠ .scalar '[' && s ≠ .scalar ']'
  match body.head?, (afterBracket.drop body.length).head? with
  | some first, some close => if startsTag first && close = .scalar ']' then some body else none
  | _, _ => none

/-- Some backslashes to show. -/
def backslashes (n : Nat) : List MarkupPart := List.replicate n (.shown (.scalar '\\'))

/-- The parts of a text from a position on, after `skip` symbols that are dealt with already and
`run` backslashes that are not.  Two backslashes before a tag are one, and an odd one makes the tag
a plain text; before a bracket that starts no tag, one backslash is taken off. -/
def markupParts : (skip run position : Nat) → Text → List MarkupPart
  | _, run, _, [] => backslashes run
  | skip + 1, run, position, _ :: rest => markupParts skip run (position + 1) rest
  | 0, run, position, s :: rest =>
    if s = .scalar '\\' then markupParts 0 (run + 1) (position + 1) rest
    else if s = .scalar '[' then
      match tagBody? rest with
      | some body =>
        let part :=
          if run % 2 = 1 then
            (Symbol.scalar '[' :: (body ++ [.scalar ']'])).map MarkupPart.shown
          else [.tag position body]
        backslashes (run / 2) ++ part ++ markupParts (body.length + 1) 0 (position + 1) rest
      | none => backslashes (run - 1) ++ .shown s :: markupParts 0 0 (position + 1) rest
    else backslashes run ++ .shown s :: markupParts 0 0 (position + 1) rest

/-- The symbols to show, with the names of the tags that are open, the last one first. -/
def closeTags : (opened : List Text) → List MarkupPart → Except Failure Text
  | _, [] => .ok []
  | opened, .shown s :: rest => (s :: ·) <$> closeTags opened rest
  | opened, .tag position body :: rest =>
    let name := (body.takeWhile (· ≠ .scalar '='))
    if name.head? = some (.scalar '/') then
      let closed := Text.trim name.tail
      if closed = [] then
        match opened with
        | _ :: others => closeTags others rest
        | [] =>
          .error (.unmatchedTag ("closing tag '[/]' at position " ++ Text.decimal position ++
            " has nothing to close"))
      else if opened.contains closed then closeTags (opened.erase closed) rest
      else
        .error (.unmatchedTag ("closing tag '[" ++ body ++ "]' at position " ++
          Text.decimal position ++ " doesn't match any open tag"))
    else closeTags (Text.trim name :: opened) rest

/-- A text with its tags taken out. -/
def withoutMarkup (t : Text) : Except Failure Text := closeTags [] (markupParts 0 0 0 t)

/-- What is shown for a message of the program that may hold markup. -/
def ofMessage (t : Text) : Except Failure Text := do
  return Text.joined "\n" (tabbedLines (← withoutMarkup t)) ++ [.scalar '\n']

end Display

end FileShell
