import ShellSyntax.Pattern.CharSet

/-!
Patterns of text.

These are the forms of the basic syntax that `Pattern.read?` knows. None of them looks at what stands
in front of it, except for whether anything does: there is no word boundary. None takes as little as
possible.

* `Pattern`: the forms a pattern is built from;
* `Pattern.groupCount`: how many capturing groups a pattern has;
* `Pattern.takesNothing`: whether a pattern can never take a character;
* `Pattern.anchored`: whether a pattern can only match at the place where the search begins.
-/

namespace ShellSyntax

/-- A pattern of text. Groups are numbered from zero in the order of their opening brackets. -/
inductive Pattern where
  /-- Matches without taking a character. -/
  | empty
  /-- Takes one character of the set. -/
  | one (set : CharSet)
  /-- Holds where the search begins. -/
  | atStart
  /-- Holds at the end of the text. -/
  | atEnd
  /-- The first pattern, then the second. -/
  | cat (p q : Pattern)
  /-- The first pattern, or else the second. -/
  | alt (p q : Pattern)
  /-- The pattern, or else nothing. -/
  | opt (p : Pattern)
  /-- The pattern any number of times, as often as possible. -/
  | star (p : Pattern)
  /-- The pattern once or more, as often as possible. -/
  | plus (p : Pattern)
  /-- The pattern, recording what it took. -/
  | group (index : Nat) (p : Pattern)
deriving DecidableEq, Repr

namespace Pattern

/-- The number of capturing groups of a pattern. -/
def groupCount : Pattern → Nat
  | cat p q | alt p q => groupCount p + groupCount q
  | opt p | star p | plus p => groupCount p
  | group _ p => groupCount p + 1
  | _ => 0

/-- Whether a pattern can never take a character. -/
def takesNothing : Pattern → Bool
  | empty | atStart | atEnd => true
  | one _ => false
  | cat p q | alt p q => takesNothing p && takesNothing q
  | opt p | star p | plus p | group _ p => takesNothing p

/-- Whether the pattern first asks to stand where the search begins. -/
def anchored : Pattern → Bool
  | atStart => true
  | cat p _ => anchored p
  | group _ p => anchored p
  | _ => false

end Pattern

end ShellSyntax
