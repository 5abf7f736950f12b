import ShellSyntax.Text.Blank

/-!
Places in a line, counted in bytes.

* `Cursor`: a place in a line: the bytes before it and the text after it;
* `Span`: a stretch of bytes; `Cursor.spanTo` and `Cursor.textTo` for two cursors of one line;
* `Text.dropBytes?`, `Text.takeBytes?`, `Text.slice?`: cutting a text at byte offsets, which fails
  where an offset lies past the end or inside a character.
-/

namespace ShellSyntax

/-- A stretch of a line in bytes, from `start` up to but not including `stop`. -/
structure Span where
  start : Nat
  stop : Nat
deriving DecidableEq, Repr

/-- A place in a line: how many bytes stand before it, and the text that follows it. -/
structure Cursor where
  offset : Nat
  rest : Text
deriving DecidableEq, Repr

namespace Cursor

/-- The characters of a text that begin within its first `n` bytes. -/
def textWithin : Text → Nat → Text
  | [], _ => []
  | c :: t, n => if n = 0 then [] else c :: textWithin t (n - c.utf8Size)

/-- The text from one place of a line up to a later one. -/
def textTo (a b : Cursor) : Text := textWithin a.rest (b.offset - a.offset)

/-- The first place of a line. -/
def start (line : Text) : Cursor := ⟨0, line⟩

/-- The place behind the character `c`, of which `rest` is the text after it. -/
def past (c : Char) (rest : Text) (here : Cursor) : Cursor :=
  ⟨here.offset + c.utf8Size, rest⟩

/-- The place `n` characters further on, or the end of the line. -/
def advance : Nat → Cursor → Cursor
  | 0, here => here
  | n + 1, here =>
    match here.rest with
    | [] => here
    | c :: rest => advance n (here.past c rest)

/-- The bytes from one place of a line up to another. -/
def spanTo (a b : Cursor) : Span := ⟨a.offset, b.offset⟩

end Cursor

namespace Text

/-- What follows the first `n` bytes, unless `n` lies past the end or inside a character. -/
def dropBytes? : Text → Nat → Option Text
  | t, 0 => some t
  | [], _ => none
  | c :: t, n => if c.utf8Size ≤ n then dropBytes? t (n - c.utf8Size) else none

/-- The first `n` bytes, unless `n` lies past the end or inside a character. -/
def takeBytes? : Text → Nat → Option Text
  | _, 0 => some []
  | [], _ => none
  | c :: t, n => if c.utf8Size ≤ n then (takeBytes? t (n - c.utf8Size)).map (c :: ·) else none

/-- The characters of a span, unless it runs backwards or an end of it is no place of the text. -/
def slice? (t : Text) (s : Span) : Option Text :=
  if s.start ≤ s.stop then (t.dropBytes? s.start).bind (takeBytes? · (s.stop - s.start)) else none

/-- The place with `n` bytes before it, unless `n` lies past the end or inside a character. -/
def cursorAt? (t : Text) (n : Nat) : Option Cursor :=
  (t.dropBytes? n).map (⟨n, ·⟩)

end Text

end ShellSyntax
