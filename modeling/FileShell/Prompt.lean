import FileShell.Settings

/-!
# Prompts

What stands before the cursor when a line is asked for: the working directory and a dollar sign,
each in a style of its own.  A terminal that shows styles turns down a style it does not know.

* `Prompt.text_fragments`: without the styles, a prompt is the working directory and ` $ `.
* `Prompt.unknownStyle?`: the first style of a prompt that is not known.
-/

namespace FileShell

/-- A stretch of a prompt in one style. -/
structure Fragment where
  style : Text
  text : Text
deriving DecidableEq, Repr

namespace Prompt

/-- What separates the working directory from the line. -/
def sign : Text := " $ "

/-- What the names of the colours of a terminal start with. -/
def ansi : Text := "ansi"

/-- The style with a colour for its letters. -/
def colored (color : Text) : Text := "fg:" ++ ansi ++ color

/-- The prompt of a shell in a directory. -/
def fragments (settings : Settings) (cwd : Text) : List Fragment :=
  [⟨colored settings.pathColor, cwd⟩, ⟨colored settings.promptColor, sign⟩]

/-- A prompt without its styles. -/
def text (fs : List Fragment) : Text := fs.flatMap Fragment.text

/-- The styles do not matter for what a prompt says. -/
theorem text_fragments (settings : Settings) (cwd : Text) :
    text (fragments settings cwd) = cwd ++ sign := by
  simp [text, fragments]

/-! ## Known styles -/

/-- The colours of a terminal and their second names. -/
def colorNames : List Text :=
  ["default", "black", "red", "green", "yellow", "blue", "magenta", "cyan", "gray", "white",
    "brightblack", "brightred", "brightgreen", "brightyellow", "brightblue", "brightmagenta",
    "brightcyan", "darkgray", "teal", "turquoise", "brown", "purple", "fuchsia", "lightgray",
    "darkred", "darkgreen", "darkblue"]

/-- The words for how letters look apart from their colour. -/
def lookWords : List Text :=
  ["noinherit", "bold", "nobold", "italic", "noitalic", "underline", "nounderline", "strike",
    "nostrike", "blink", "noblink", "reverse", "noreverse", "hidden", "nohidden", "roman", "sans",
    "mono"]

/-- Is the colour known?  Besides the names, three or six digits after a number sign make one. -/
def isColor (t : Text) : Bool :=
  match t with
  | .scalar '#' :: digits => digits.length = 3 || digits.length = 6
  | _ => t = [] || t = Text.ofString "default" || colorNames.contains (t.drop 4) && ansi = t.take 4

/-- The colour that a word of a style names, if it names one. -/
def colorOf? (word : Text) : Option Text :=
  let mark := word.take 3
  if lookWords.contains word then none
  else if mark = "fg:" ∨ mark = "bg:" then some (word.drop 3)
  else some word

/-- The first colour of a style that is not known. -/
def unknownColor? (style : Text) : Option Text :=
  ((Text.words style).filterMap colorOf?).find? fun c => !isColor c

/-- The first colour of a prompt that is not known; the fragments that hold a space are looked at
before the others. -/
def unknownStyle? (fs : List Fragment) : Option Text :=
  let spaced := fun f : Fragment => f.text.contains (.scalar ' ')
  (fs.filter spaced ++ fs.filter (!spaced ·)).findSome? fun f => unknownColor? f.style

end Prompt

end FileShell
