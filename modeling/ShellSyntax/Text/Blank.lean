import ShellSyntax.Unicode.Ranges

/-!
Lines of text, and the blanks in them.

* `Text`: a text as its characters, with `Text.size` its length in bytes of UTF-8;
* `isBlank`: the characters with the Unicode property `White_Space`;
* `Text.trimStart`, `Text.trimEnd`, `Text.trim`: a text without the blanks at its ends;
* `Text.words`: the maximal runs of characters that are not blank.
-/

namespace ShellSyntax

/-- A text as the list of its characters. -/
abbrev Text := List Char

/-- The characters with the Unicode property `White_Space`. -/
def Unicode.whiteSpace : Unicode.Ranges :=
  [(0x0009, 0x000D), (0x0020, 0x0020), (0x0085, 0x0085), (0x00A0, 0x00A0), (0x1680, 0x1680),
   (0x2000, 0x200A), (0x2028, 0x2029), (0x202F, 0x202F), (0x205F, 0x205F), (0x3000, 0x3000)]

/-- A character is blank if Unicode calls it white space. -/
def isBlank (c : Char) : Bool :=
  Unicode.whiteSpace.contains c

namespace Text

/-- The length of a text in bytes of UTF-8. -/
def size : Text → Nat
  | [] => 0
  | c :: t => c.utf8Size + size t

@[simp] theorem size_nil : size [] = 0 := rfl

@[simp] theorem size_cons (c : Char) (t : Text) : size (c :: t) = c.utf8Size + size t := rfl

@[simp] theorem size_append (s t : Text) : size (s ++ t) = size s + size t := by
  induction s with
  | nil => simp
  | cons c s ih => rw [List.cons_append, size_cons, size_cons, ih, Nat.add_assoc]

/-- A character takes at least one byte. -/
theorem length_le_size (t : Text) : t.length ≤ t.size := by
  induction t with
  | nil => simp
  | cons c t ih =>
    have h := c.utf8Size_pos
    rw [size_cons, List.length_cons]
    omega

/-- The text without the blanks it starts with. -/
def trimStart (t : Text) : Text := t.dropWhile isBlank

/-- The text without the blanks it ends with. -/
def trimEnd (t : Text) : Text := (t.reverse.dropWhile isBlank).reverse

/-- The text without the blanks at either end. -/
def trim (t : Text) : Text := trimEnd (trimStart t)

/-- The maximal runs of characters that are not blank, in order. -/
def words : Text → List Text
  | [] => []
  | c :: t =>
    if isBlank c then words t
    else match t, words t with
      | d :: _, w :: ws => if isBlank d then [c] :: w :: ws else (c :: w) :: ws
      | _, ws => [c] :: ws

/-- What follows `mark`, if the text starts with it. -/
def afterMark? (mark t : Text) : Option Text :=
  if mark.isPrefixOf t then some (t.drop mark.length) else none

end Text

end ShellSyntax
