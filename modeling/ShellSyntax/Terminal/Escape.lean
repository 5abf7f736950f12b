import ShellSyntax.Style

/-!
Control sequences of a terminal that set how text looks.

* `Escape`: the sequences, with `Escape.text`, their characters;
* `Color.number?`: the place of a colour in the terminal's palette;
* `Style.opening`, `Style.closing`: the sequences around text of a style.
-/

namespace ShellSyntax

/-- A control sequence that changes how the text behind it looks. -/
inductive Escape where
  | foreground (color : Nat)
  | background (color : Nat)
  | standardForeground
  | standardBackground
  | bold
  | italic
  | underline
  | reverse
  /-- Ends all attributes and colours. -/
  | reset
deriving DecidableEq, Repr

namespace Escape

/-- The parameters of a sequence. -/
def parameters : Escape → String
  | foreground color => "38;5;" ++ toString color
  | background color => "48;5;" ++ toString color
  | standardForeground => "39"
  | standardBackground => "49"
  | bold => "1"
  | italic => "3"
  | underline => "4"
  | reverse => "7"
  | reset => "0"

/-- The characters of a sequence. -/
def text (e : Escape) : Text := '\x1b' :: '[' :: e.parameters.toList ++ ['m']

end Escape

/-- The number of a colour in the palette of a terminal. -/
def Color.number? : Color → Option Nat
  | standard => none
  | black => some 0
  | red => some 1
  | green => some 2
  | yellow => some 3
  | blue => some 4
  | magenta => some 5
  | cyan => some 6
  | white => some 7
  | brightBlack => some 8
  | brightRed => some 9
  | brightGreen => some 10
  | brightYellow => some 11
  | brightBlue => some 12
  | brightMagenta => some 13
  | brightCyan => some 14
  | brightWhite => some 15

namespace Style

/-- The sequences of the attributes of a style. -/
def attributes (s : Style) : List Escape :=
  (if s.bold then [.bold] else []) ++ (if s.italic then [.italic] else []) ++
    (if s.underline then [.underline] else []) ++ if s.reverse then [.reverse] else []

/-- The sequences in front of text of a style. -/
def opening (s : Style) : List Escape :=
  (s.background.number?.map Escape.background).toList ++
    (s.foreground.number?.map Escape.foreground).toList ++ s.attributes

/-- The sequences behind text of a style. Attributes can only be ended together with the colours. -/
def closing (s : Style) : List Escape :=
  if s.attributes ≠ [] then [.reset]
  else
    (if s.background = .standard then [] else [.standardBackground]) ++
      if s.foreground = .standard then [] else [.standardForeground]

/-- Text in a style. -/
def draw (s : Style) (t : Text) : Text :=
  s.opening.flatMap Escape.text ++ t ++ s.closing.flatMap Escape.text

end Style

end ShellSyntax
