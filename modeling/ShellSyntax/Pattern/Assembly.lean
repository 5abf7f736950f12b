import ShellSyntax.Pattern.Basic

/-!
Putting patterns together.

A sequence within a sequence, and alternatives among alternatives, are spread out. Alternatives that
are single characters, or sets of them, become one set. Alternatives that all begin with the same
patterns take these once: the way their common beginning prefers to match then counts before the
order of the alternatives, so that `a*a|a*b`, which becomes `a*[ab]`, takes all of `aab`.

* `Pattern.parts`, `Pattern.branches`: the patterns that a pattern is a sequence of, and those it
  chooses from;
* `Pattern.factors`: the parts, with given characters in a row kept together. A common beginning has
  to consist of whole factors;
* `Pattern.sequence`, `Pattern.alternatives`, `Pattern.anyTimes`, `Pattern.onceOrMore`: putting
  together.
-/

namespace ShellSyntax

namespace Pattern

/-! ### Sequences -/

/-- The patterns that a pattern is a sequence of. -/
def parts : Pattern → List Pattern
  | empty => []
  | cat p q => p :: parts q
  | p => [p]

/-- The sequence of parts. -/
def ofParts : List Pattern → Pattern
  | [] => empty
  | [p] => p
  | p :: ps => cat p (ofParts ps)

/-- The patterns one after the other. -/
def sequence (ps : List Pattern) : Pattern := ofParts (ps.flatMap parts)

/-- The given characters, in just this letter case. -/
def literal (t : Text) : Pattern := ofParts (t.map fun c => one (.single c))

/-- Whether a pattern takes one given character. -/
def isCharacter : Pattern → Bool
  | one set => set.isSingle
  | _ => false

/-- The parts of a pattern, in which characters in a row make one factor. -/
def factors (p : Pattern) : List (List Pattern) :=
  p.parts.splitBy fun q r => q.isCharacter && r.isCharacter

/-! ### Alternatives -/

/-- The patterns that a pattern chooses from. -/
def branches : Pattern → List Pattern
  | alt p q => p :: branches q
  | p => [p]

/-- The choice from branches. -/
def ofBranches : List Pattern → Pattern
  | [] => one .none
  | [p] => p
  | p :: ps => alt p (ofBranches ps)

/-- The set that a pattern takes one character of. -/
def set? : Pattern → Option CharSet
  | one set => some set
  | _ => none

/-- The set of all characters that the branches take, if each is a character, or each is a set of
other than one character. -/
def mergedSet? (bs : List Pattern) : Option CharSet :=
  (bs.mapM set?).bind fun sets =>
    if sets.all CharSet.isSingle || !sets.any CharSet.isSingle then
      some (sets.foldl CharSet.union .none)
    else none

/-- The choice from branches, as one set if possible. -/
def choice (bs : List Pattern) : Pattern :=
  match mergedSet? bs with
  | some set => one set
  | none => ofBranches bs

/-- What two lists begin with alike. -/
def commonStart {α : Type} [DecidableEq α] : List α → List α → List α
  | a :: as, b :: bs => if a = b then a :: commonStart as bs else []
  | _, _ => []

/-- The factors that all branches begin with, if each has at least two. -/
def sharedFactors (bs : List (List (List Pattern))) : List (List Pattern) :=
  match bs with
  | [] => []
  | b :: rest => if bs.all fun b => 2 ≤ b.length then rest.foldl commonStart b else []

/-- The choice from branches behind what they begin with alike. -/
def factored (bs : List Pattern) : Pattern :=
  let shared := sharedFactors (bs.map factors)
  if shared.isEmpty then ofBranches bs
  else
    let rests := bs.map fun b => ofParts (b.factors.drop shared.length).flatten
    sequence (shared.flatten ++ [choice (rests.flatMap branches)])

/-- The first of the patterns that leads to a match. -/
def alternatives (ps : List Pattern) : Pattern :=
  match ps.flatMap branches with
  | [p] => p
  | bs =>
    match mergedSet? bs with
    | some set => one set
    | none => factored bs

/-! ### Repetitions -/

/-- The pattern any number of times. A pattern that takes nothing need not be repeated. -/
def anyTimes (p : Pattern) : Pattern := if p.takesNothing then opt p else star p

/-- The pattern once or more. -/
def onceOrMore (p : Pattern) : Pattern := if p.takesNothing then p else plus p

end Pattern

end ShellSyntax
