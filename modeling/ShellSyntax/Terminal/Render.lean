import ShellSyntax.Terminal.Escape
import ShellSyntax.Text.Width
import ShellSyntax.Theme

/-!
Lines with their tokens on a terminal.

* `Rendering`: what was written of a line, and whether a token was no part of it;
* `renderLine`: a line in the styles of a theme, clipped to a number of columns if one is given.
  Text that no token covers is plain;
* `Rendering.deliver`: the effect of writing to a place of limited size;
* `Token.columns?`: the columns of a token in its line.
-/

namespace ShellSyntax

/-! ### Segments -/

/-- A stretch of a line that has been written: its characters, the column behind it, and whether the
limit cut it short. -/
structure Segment where
  written : Text
  column : Nat
  cut : Bool
deriving DecidableEq, Repr

/-- Writes a stretch of a line that begins in a column. Nothing is written at the limit. -/
def drawSegment (limit : Option Nat) (column : Nat) (style : Style) (t : Text) : Segment :=
  match limit.map (· - column) with
  | some 0 => ⟨[], column, true⟩
  | room =>
    let shown := match room with
      | some n => t.clip n
      | none => t
    ⟨style.draw shown, column + shown.width, shown.length < t.length⟩

/-! ### Lines -/

/-- What was written of a line. -/
structure Rendering where
  written : Text
  /-- Whether a span was met that does not lie in the line. -/
  misplaced : Bool
deriving DecidableEq, Repr

namespace Rendering

/-- The end of a line. -/
def done : Rendering := ⟨[], false⟩

/-- A span that does not lie in the line ends the writing. -/
def misfit : Rendering := ⟨[], true⟩

/-- What a segment writes, and what comes behind it unless it was cut short. -/
def after (s : Segment) (later : Nat → Rendering) : Rendering :=
  if s.cut then ⟨s.written, false⟩
  else
    let r := later s.column
    ⟨s.written ++ r.written, r.misplaced⟩

/-- Writes the text of a span, if it lies in the line, and then what comes behind it. -/
def span (line : Text) (limit : Option Nat) (column : Nat) (style : Style) (s : Span)
    (later : Nat → Rendering) : Rendering :=
  match line.slice? s with
  | none => misfit
  | some t => after (drawSegment limit column style t) later

/-- Writes the line from an offset on, where the given tokens follow. -/
def tokens (line : Text) (theme : Theme) (limit : Option Nat) :
    Nat → Nat → List Token → Rendering
  | offset, column, [] =>
    if offset < line.size then
      span line limit column .plain ⟨offset, line.size⟩ fun _ => done
    else done
  | offset, column, t :: rest =>
    let draw := fun column =>
      span line limit column (theme.styleFor t.kind) t.toSpan fun column =>
        tokens line theme limit t.stop column rest
    if offset < t.start then span line limit column .plain ⟨offset, t.start⟩ draw
    else draw column

end Rendering

/-- A line with its tokens in the styles of a theme, clipped to `limit` columns if one is given. -/
def renderLine (line : Text) (tokens : List Token) (theme : Theme) (limit : Option Nat) :
    Rendering :=
  Rendering.tokens line theme limit 0 0 tokens

/-- How writing ends. -/
inductive Delivery where
  | complete
  /-- There is no room for all. -/
  | full
  /-- A token is no part of the line. -/
  | misplaced
deriving DecidableEq, Repr

/-- How writing ends where there is room for a number of bytes. -/
def Rendering.deliver (r : Rendering) (room : Nat) : Delivery :=
  if room < r.written.size then .full else if r.misplaced then .misplaced else .complete

/-- The first column of a token and the one behind it, if the token lies in the line. -/
def Token.columns? (t : Token) (line : Text) : Option (Nat × Nat) :=
  match line.takeBytes? t.start, t.text? line with
  | some before, some text => some (before.width, before.width + text.width)
  | _, _ => none

end ShellSyntax
