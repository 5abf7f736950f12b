import Mathlib.Data.List.Basic
import Mathlib.Tactic.Common
import ShellSyntax.Terminal.Escape

/-!
What a terminal shows of text and control sequences.

* `Terminal`: the characters shown so far, each with its style, the style of the next one, and what
  has been read of a control sequence. `Terminal.put?`: one more character. Sequences the terminal
  does not understand are refused;
* `Terminal.graphics?`: what the parameters of a sequence do to the style;
* `Terminal.Turns`, `Terminal.turns_opening`, `Terminal.turns_closing`: the sequences around text of
  a style turn the plain style into that style and back;
* `Terminal.Draws`, `Terminal.draws_draw`: so text drawn in a style is shown in that style, and
  leaves no trace on what follows.
-/

namespace ShellSyntax

/-- A character on the screen, and how it looks. -/
abbrev Cell := Char × Style

/-- What a terminal has read of a control sequence. -/
inductive Terminal.Mode where
  /-- Nothing: the next character is shown. -/
  | text
  /-- The character that begins a sequence. -/
  | escape
  /-- Some parameters, and the digits of the next one as a number. -/
  | parameters (before : List ℕ) (last : ℕ)
deriving DecidableEq, Repr

/-- A terminal. -/
structure Terminal where
  cells : List Cell
  style : Style
  mode : Terminal.Mode
deriving DecidableEq, Repr

namespace Terminal

/-! ### Reading -/

/-- The colours of the palette. -/
def palette : List Color :=
  [.black, .red, .green, .yellow, .blue, .magenta, .cyan, .white, .brightBlack, .brightRed,
   .brightGreen, .brightYellow, .brightBlue, .brightMagenta, .brightCyan, .brightWhite]

/-- The style after the parameters of a sequence. -/
def graphics? : List ℕ → Style → Option Style
  | [], s => some s
  | 0 :: ps, _ => graphics? ps .plain
  | 1 :: ps, s => graphics? ps { s with bold := true }
  | 3 :: ps, s => graphics? ps { s with italic := true }
  | 4 :: ps, s => graphics? ps { s with underline := true }
  | 7 :: ps, s => graphics? ps { s with reverse := true }
  | 39 :: ps, s => graphics? ps { s with foreground := .standard }
  | 49 :: ps, s => graphics? ps { s with background := .standard }
  | 38 :: 5 :: n :: ps, s => palette[n]?.bind fun c => graphics? ps { s with foreground := c }
  | 48 :: 5 :: n :: ps, s => palette[n]?.bind fun c => graphics? ps { s with background := c }
  | _, _ => none

/-- The terminal after one more character. -/
def put? (t : Terminal) (x : Char) : Option Terminal :=
  match t.mode with
  | .text =>
    if x = '\x1b' then some { t with mode := .escape }
    else some { t with cells := t.cells ++ [(x, t.style)] }
  | .escape => if x = '[' then some { t with mode := .parameters [] 0 } else none
  | .parameters before last =>
    if x.isDigit then some { t with mode := .parameters before (10 * last + (x.toNat - '0'.toNat)) }
    else if x = ';' then some { t with mode := .parameters (before ++ [last]) 0 }
    else if x = 'm' then
      (graphics? (before ++ [last]) t.style).map fun s => { t with style := s, mode := .text }
    else none

/-- The terminal after a text. -/
def read? (t : Terminal) (text : Text) : Option Terminal := text.foldlM put? t

/-- A terminal that shows some characters, and will show the next ones in a style. -/
def showing (cells : List Cell) (s : Style) : Terminal := ⟨cells, s, .text⟩

/-- A terminal that shows nothing. -/
def blank : Terminal := showing [] .plain

lemma read?_append (t : Terminal) (text more : Text) :
    t.read? (text ++ more) = (t.read? text).bind (·.read? more) := List.foldlM_append

/-! ### Control sequences -/

/-- A text shows nothing, and turns one style into another. -/
def Turns (s : Style) (text : Text) (s' : Style) : Prop :=
  ∀ cells, (showing cells s).read? text = some (showing cells s')

variable {s s' s'' : Style} {text more : Text}

lemma Turns.nil (s : Style) : Turns s [] s := fun _ => rfl

lemma Turns.append (h : Turns s text s') (h' : Turns s' more s'') : Turns s (text ++ more) s'' := by
  intro cells
  rw [read?_append, h cells]
  exact h' cells

lemma turns_background (color : Color) (h : s.background = .standard) :
    Turns s ((color.number?.map Escape.background).toList.flatMap Escape.text)
      { s with background := color } := by
  intro cells
  cases color with
  | standard =>
      obtain ⟨foreground, background, bold, italic, underline, reverse⟩ := s
      obtain rfl : background = .standard := h
      rfl
  | _ => rfl

lemma turns_foreground (color : Color) (h : s.foreground = .standard) :
    Turns s ((color.number?.map Escape.foreground).toList.flatMap Escape.text)
      { s with foreground := color } := by
  intro cells
  cases color with
  | standard =>
      obtain ⟨foreground, background, bold, italic, underline, reverse⟩ := s
      obtain rfl : foreground = .standard := h
      rfl
  | _ => rfl

lemma turns_attributes (s : Style) :
    Turns { Style.plain with foreground := s.foreground, background := s.background }
      (s.attributes.flatMap Escape.text) s := by
  intro cells
  obtain ⟨foreground, background, bold, italic, underline, reverse⟩ := s
  cases bold <;> cases italic <;> cases underline <;> cases reverse <;> rfl

/-- The sequences in front of text of a style turn the plain style into it. -/
lemma turns_opening (s : Style) : Turns .plain (s.opening.flatMap Escape.text) s := by
  rw [Style.opening, List.flatMap_append, List.flatMap_append]
  exact ((turns_background s.background rfl).append (turns_foreground s.foreground rfl)).append
    (turns_attributes s)

/-- A style without attributes is its colours. -/
lemma eq_of_attributes (h : s.attributes = []) :
    s = { Style.plain with foreground := s.foreground, background := s.background } := by
  obtain ⟨foreground, background, bold, italic, underline, reverse⟩ := s
  cases bold <;> cases italic <;> cases underline <;> cases reverse <;>
    first | rfl | exact absurd h (List.cons_ne_nil _ _)

/-- The sequences behind text of a style turn it into the plain style. -/
lemma turns_closing (s : Style) : Turns s (s.closing.flatMap Escape.text) .plain := by
  rw [Style.closing]
  split
  · exact fun cells => rfl
  · rename_i hattributes
    have hbackground : Turns s ((if s.background = .standard then [] else
        [Escape.standardBackground]).flatMap Escape.text) { s with background := .standard } := by
      split
      · rename_i hstandard
        rw [← hstandard]
        exact .nil s
      · exact fun cells => rfl
    have hforeground : Turns { s with background := .standard }
        ((if s.foreground = .standard then [] else
          [Escape.standardForeground]).flatMap Escape.text) .plain := by
      rw [eq_of_attributes (not_not.mp hattributes)]
      split
      · rename_i hstandard
        rw [hstandard]
        exact .nil _
      · exact fun cells => rfl
    rw [List.flatMap_append]
    exact hbackground.append hforeground

/-! ### Text -/

/-- A text that leaves the style plain shows some characters. -/
def Draws (text : Text) (cells : List Cell) : Prop :=
  ∀ before, (showing before .plain).read? text = some (showing (before ++ cells) .plain)

lemma Draws.nil : Draws [] [] := fun before => by
  rw [List.append_nil]
  rfl

lemma Draws.append {cells cells' : List Cell} (h : Draws text cells) (h' : Draws more cells') :
    Draws (text ++ more) (cells ++ cells') := by
  intro before
  rw [read?_append, h before, ← List.append_assoc]
  exact h' _

/-- Text without control sequences is shown in the current style. -/
lemma read?_text (h : '\x1b' ∉ text) (cells : List Cell) (s : Style) :
    (showing cells s).read? text = some (showing (cells ++ text.map (·, s)) s) := by
  induction text generalizing cells with
  | nil =>
      rw [List.map_nil, List.append_nil]
      rfl
  | cons x text ih =>
      obtain ⟨hx, htext⟩ := not_or.mp (mt List.mem_cons.mpr h)
      have hput : (showing cells s).put? x = some (showing (cells ++ [(x, s)]) s) :=
        if_neg (Ne.symm hx)
      rw [read?, List.foldlM_cons, hput]
      exact (ih htext _).trans (by rw [List.map_cons, List.append_assoc]; rfl)

/-- Text drawn in a style is shown in that style. -/
lemma draws_draw (h : '\x1b' ∉ text) (s : Style) : Draws (s.draw text) (text.map (·, s)) := by
  intro before
  rw [Style.draw, read?_append, read?_append, turns_opening s before, Option.bind_some,
    read?_text h, Option.bind_some]
  exact turns_closing s _

end Terminal

end ShellSyntax
