import ShellSyntax.Pattern.Assembly

/-!
Reading a written pattern.

A written pattern knows literal characters, `.` for any character of a line, `\s` for a blank,
sets in square brackets with ranges and `^` for the complement, `\` before a mark that stands for
itself, groups in round brackets, `(?:` for a group that records nothing, `|` between alternatives,
`*`, `+` and `?` behind what they repeat, and `^` and `$` for the two ends of the text. It looks at
no letter case.

This is the basic part of the syntax of regular expressions, and no more than that is read. Word
boundaries, other classes and escapes such as `\d`, `\w` and `\n`, repetitions that are counted or
as few as possible, flags, groups with names, sets within sets and operations on sets are not part
of it: a text with one of these is refused, like one that is no pattern at all.

* `Lexeme` and `Lexeme.read?`: the signs of a written pattern;
* `Pattern.Written`: a part that has been read, and how deep forms lie within each other in it, of
  which `Pattern.maxNesting` is the limit;
* `Pattern.Frame`: a group that is still open;
* `Pattern.read?`: the pattern that is written, spliced behind `^(?:` and before `)`. A stray
  closing bracket in it therefore ends that group early, and what follows is no longer bound to the
  start of the text.
-/

namespace ShellSyntax

/-! ### Sets in square brackets -/

/-- A character between square brackets. -/
inductive SetSign where
  /-- A character that may be a mark, such as the hyphen of a range. -/
  | bare (c : Char)
  /-- A character that stands for itself. -/
  | literal (c : Char)
  | blank
deriving DecidableEq, Repr

/-- The character that a backslash and `c` stand for: a mark of ASCII, but no letter or digit and
neither of the angle brackets. -/
def escaped? (c : Char) : Option Char :=
  if c.toNat < 0x80 ∧ ¬ c.isAlphanum ∧ c ≠ '<' ∧ c ≠ '>' then some c else none

namespace SetSign

/-- The character a sign names, if it names one. -/
def char? : SetSign → Option Char
  | bare c | literal c => some c
  | blank => none

/-- The set that a sign is by itself. -/
def item : SetSign → CharSet
  | bare c | literal c => .single c
  | blank => .blanks

/-- The signs up to the closing bracket, and the text behind it. -/
def readUntilClose? : Text → Option (List SetSign × Text)
  | [] => none
  | ']' :: t => some ([], t)
  | ['\\'] => none
  | '\\' :: 's' :: t => (readUntilClose? t).map fun r => (blank :: r.1, r.2)
  | '\\' :: c :: t =>
    (escaped? c).bind fun d => (readUntilClose? t).map fun r => (literal d :: r.1, r.2)
  | c :: t => (readUntilClose? t).map fun r => (bare c :: r.1, r.2)

/-- The characters at the very start of a set that stand for themselves and begin no range, and the
text behind them: any number of hyphens, or else a closing bracket. -/
def leading : Text → Text × Text
  | ']' :: t => ([']'], t)
  | t => t.span (· = '-')

/-- Whether a sign opens a set within the set, or with the next sign an operation on sets. -/
def opensOperation (s : SetSign) (rest : List SetSign) : Bool :=
  s = bare '[' || [bare '-', bare '&', bare '~'].contains s && rest.head? = some s

/-- The range between two signs, if both name characters and it does not run backwards. -/
def range? (s t : SetSign) : Option CharSet :=
  match s.char?, t.char? with
  | some a, some b => if a ≤ b then some (.between a b) else none
  | _, _ => none

/-- The entries that the signs of a set name. A hyphen between two signs makes a range, unless a
second hyphen follows. -/
def items? : List SetSign → Option (List CharSet)
  | [] => some []
  | s :: bare '-' :: t :: rest =>
    if opensOperation s [bare '-'] || t = bare '-' then none
    else (range? s t).bind fun i => (items? rest).map (i :: ·)
  | s :: rest =>
    if opensOperation s rest then none else (items? rest).map (s.item :: ·)

end SetSign

/-- The set of entries, in any letter case, and how deep they lie: a list of several entries is a
level of its own. -/
def CharSet.ofItems (negated : Bool) (items : List CharSet) : CharSet × Nat :=
  let set := (items.foldl CharSet.union .none).closeCase
  (if negated then set.complement else set, if 2 ≤ items.length then 2 else 1)

/-- The set whose entries a text begins with, with its depth, and the text behind the closing
bracket. -/
def CharSet.readItems? (negated : Bool) (t : Text) : Option ((CharSet × Nat) × Text) :=
  let (marks, t) := SetSign.leading t
  (SetSign.readUntilClose? t).bind fun r => (SetSign.items? r.1).map fun items =>
    (ofItems negated (marks.map .single ++ items), r.2)

/-- The set that is written behind an opening square bracket, with its depth, and the text behind
it. -/
def CharSet.read? : Text → Option ((CharSet × Nat) × Text)
  | '^' :: t => readItems? true t
  | t => readItems? false t

/-! ### Signs -/

/-- A sign of a written pattern. -/
inductive Lexeme where
  /-- A set of characters, and how deep its writing goes. -/
  | one (set : CharSet) (nesting : Nat)
  | atStart
  | atEnd
  | openGroup (capturing : Bool)
  | closeGroup
  | bar
  | star
  | plus
  | opt
deriving DecidableEq, Repr

namespace Lexeme

/-- A character in any letter case. -/
def char (c : Char) : Lexeme := one (.ofVariants c) 0

/-- The first sign of a text, and the text behind it. -/
def next? (c : Char) (t : Text) : Option (Lexeme × Text) :=
  match c, t with
  | '(', '?' :: ':' :: t => some (openGroup false, t)
  | '(', '?' :: _ => none
  | '(', t => some (openGroup true, t)
  | ')', t => some (closeGroup, t)
  | '|', t => some (bar, t)
  | '*', t => some (star, t)
  | '+', t => some (plus, t)
  | '?', t => some (opt, t)
  | '^', t => some (atStart, t)
  | '$', t => some (atEnd, t)
  | '.', t => some (one .inLine 0, t)
  | '[', t => (CharSet.read? t).map fun r => (one r.1.1 r.1.2, r.2)
  | '\x7b', _ => none
  | '\\', 's' :: t => some (one .blanks 0, t)
  | '\\', d :: t => (escaped? d).map fun e => (char e, t)
  | '\\', [] => none
  | c, t => some (char c, t)

/-- The signs of a text of at most `fuel` characters. -/
def readAll? : Nat → Text → Option (List Lexeme)
  | _, [] => some []
  | 0, _ => none
  | fuel + 1, c :: t => (next? c t).bind fun r => (readAll? fuel r.2).map (r.1 :: ·)

/-- The signs of a text. -/
def read? (t : Text) : Option (List Lexeme) := readAll? t.length t

end Lexeme

/-! ### Groups -/

namespace Pattern

/-- How deep sequences, alternatives, groups, repetitions and sets may lie within each other. -/
def maxNesting : Nat := 250

/-- A part that has been read: its pattern, and how deep its writing goes. -/
structure Written where
  pattern : Pattern
  nesting : Nat

namespace Written

/-- Two or more parts are a level above them, a single part stands for itself. -/
def join (make : List Pattern → Pattern) (ps : List Written) : Written where
  pattern := make (ps.map (·.pattern))
  nesting :=
    let deepest := (ps.map (·.nesting)).foldl max 0
    if 2 ≤ ps.length then deepest + 1 else deepest

/-- The part in a form that is a level above it. -/
def within (make : Pattern → Pattern) (w : Written) : Written := ⟨make w.pattern, w.nesting + 1⟩

end Written

/-- A group that is still open: its number if it records, the alternatives that are complete, and
the parts of the one that is being read, both latest first. -/
structure Frame where
  index : Option Nat
  done : List Written
  parts : List Written

namespace Frame

/-- A group that has just been opened. -/
def opened (index : Option Nat) : Frame := ⟨index, [], []⟩

/-- The frame with one more part. -/
def push (w : Written) (f : Frame) : Frame := { f with parts := w :: f.parts }

/-- The alternative that is being read. -/
def current (f : Frame) : Written := .join sequence f.parts.reverse

/-- The frame at the start of its next alternative. -/
def bar (f : Frame) : Frame := { f with done := f.current :: f.done, parts := [] }

/-- All that was read in a frame. -/
def content (f : Frame) : Written := .join alternatives (f.current :: f.done).reverse

/-- The group of a frame that is complete. -/
def close (f : Frame) : Written :=
  f.content.within fun p => match f.index with
    | some i => group i p
    | none => p

end Frame

/-- The reader between two signs: how many groups were numbered, whether the last sign was a
repetition, the innermost open group, and the groups around it. -/
structure Reading where
  groups : Nat
  repeated : Bool
  frame : Frame
  outer : List Frame

namespace Reading

/-- The reader after `^(?:`, in front of which stands the mark that asks for any letter case. -/
def spliced : Reading :=
  ⟨0, false, .opened none, [(Frame.opened none).push ⟨empty, 0⟩ |>.push ⟨atStart, 0⟩]⟩

/-- The reader after a sign that repeats the last part, which must be there. A question mark behind
a repetition would ask for as few rounds as possible, which is not offered. -/
def repeatLast? (r : Reading) (make : Pattern → Pattern) : Option Reading :=
  match r.frame.parts with
  | [] => none
  | w :: ws =>
    some { r with repeated := true, frame := { r.frame with parts := w.within make :: ws } }

/-- The reader after a part. -/
def push (r : Reading) (p : Pattern) (nesting : Nat) : Reading :=
  { r with repeated := false, frame := r.frame.push ⟨p, nesting⟩ }

/-- The reader after one more sign. -/
def step? (r : Reading) : Lexeme → Option Reading
  | .one set nesting => some (r.push (.one set) nesting)
  | .atStart => some (r.push .atStart 0)
  | .atEnd => some (r.push .atEnd 0)
  | .openGroup true => some ⟨r.groups + 1, false, .opened (some r.groups), r.frame :: r.outer⟩
  | .openGroup false => some ⟨r.groups, false, .opened none, r.frame :: r.outer⟩
  | .closeGroup =>
    match r.outer with
    | [] => none
    | f :: outer => some ⟨r.groups, false, f.push r.frame.close, outer⟩
  | .bar => some { r with repeated := false, frame := r.frame.bar }
  | .star => r.repeatLast? anyTimes
  | .plus => r.repeatLast? onceOrMore
  | .opt => if r.repeated then none else r.repeatLast? .opt

/-- The pattern that was read, if no group is open and none lies too deep. -/
def finish? (r : Reading) : Option Pattern :=
  match r.outer with
  | [] => if r.frame.content.nesting ≤ maxNesting then some r.frame.content.pattern else none
  | _ => none

end Reading

/-- The pattern that the signs behind `^(?:` write. -/
def ofLexemes? (signs : List Lexeme) : Option Pattern :=
  (signs.foldlM Reading.step? Reading.spliced).bind Reading.finish?

/-- The pattern that the text writes, spliced into `^(?:…)`. A backslash at its end makes a literal
of the bracket that follows. What is beyond the basic syntax is refused. -/
def read? (source : Text) : Option Pattern :=
  (Lexeme.read? (source ++ [')'])).bind ofLexemes?

end Pattern

end ShellSyntax
