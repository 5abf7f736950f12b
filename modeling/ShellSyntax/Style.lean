import ShellSyntax.Text.Lowercase

/-!
How text looks on a terminal.

* `Color`: the sixteen terminal colours and the terminal's own;
* `Style`: colours and attributes; `Style.plain` is the look of unstyled text;
* `Style.parse`: the style that a description such as `magenta bold on_blue` names. Every word must
  be an attribute, a colour, or a colour behind `on_` for the background; later words win.
-/

namespace ShellSyntax

/-- A terminal colour; `standard` leaves the choice to the terminal. -/
inductive Color where
  | standard
  | black | red | green | yellow | blue | magenta | cyan | white
  | brightBlack | brightRed | brightGreen | brightYellow
  | brightBlue | brightMagenta | brightCyan | brightWhite
deriving DecidableEq, Repr

namespace Color

/-- The names of the colours; bright black has three. -/
def names : List (String × Color) :=
  [("default", standard), ("black", black), ("red", red), ("green", green), ("yellow", yellow),
   ("blue", blue), ("magenta", magenta), ("cyan", cyan), ("white", white),
   ("bright_black", brightBlack), ("gray", brightBlack), ("grey", brightBlack),
   ("bright_red", brightRed), ("bright_green", brightGreen), ("bright_yellow", brightYellow),
   ("bright_blue", brightBlue), ("bright_magenta", brightMagenta), ("bright_cyan", brightCyan),
   ("bright_white", brightWhite)]

/-- The colour of a name. -/
def ofName? (name : Text) : Option Color :=
  (names.find? fun n => n.1.toList = name).map (·.2)

end Color

/-- Colours and attributes of a piece of text. -/
structure Style where
  foreground : Color
  background : Color
  bold : Bool
  italic : Bool
  underline : Bool
  reverse : Bool
deriving DecidableEq, Repr

/-- A description of a style that has a word of no meaning. -/
structure InvalidStyle where
  description : Text
deriving DecidableEq, Repr

namespace InvalidStyle

/-- The report to the user. -/
def message (e : InvalidStyle) : String :=
  "Invalid style: " ++ String.ofList e.description

end InvalidStyle

namespace Style

/-- The look of unstyled text. -/
def plain : Style := ⟨.standard, .standard, false, false, false, false⟩

/-- Unstyled text in a colour. -/
def colored (c : Color) : Style := { plain with foreground := c }

/-- The style after one word of a description, if the word has a meaning. -/
def applyWord? (s : Style) (word : Text) : Option Style :=
  if word = "bold".toList then some { s with bold := true }
  else if word = "italic".toList then some { s with italic := true }
  else if word = "underline".toList then some { s with underline := true }
  else if word = "reverse".toList then some { s with reverse := true }
  else
    match Text.afterMark? "on_".toList word with
    | some name => (Color.ofName? name).map fun c => { s with background := c }
    | none => (Color.ofName? word).map fun c => { s with foreground := c }

/-- The style a description names, whatever the letter case of its words. -/
def parse (description : Text) : Except InvalidStyle Style :=
  match (description.words.map Text.lowercase).foldlM applyWord? plain with
  | some s => .ok s
  | none => .error ⟨description⟩

end Style

end ShellSyntax
