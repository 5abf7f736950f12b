import ShellSyntax.Pattern.Basic
import ShellSyntax.Text.Cursor

/-!
Matching a pattern against the text at a cursor.

Among all ways to match, the preferred one counts: earlier alternatives before later ones, more
repetitions before fewer. All ways are followed at once, a character at a time, in their order of
preference. Two ways that stand at one part of the pattern and one place of the text go on alike, so
the later of them is given up; this also stops ways that would go round in circles.

* `Thread`: a way that waits for a character, at the part of the pattern that takes it;
* `Front`: what has been reached at a place of the text, and the ways that wait there;
* `Pattern.enter`: all ways into a pattern at a place, each handed on to what comes behind the
  pattern; `Pattern.resume`: the ways on from a part that has taken its character;
* `Pattern.matchFrom?`: the preferred match that begins at a cursor;
* `Pattern.find?`: the preferred match at the first place where there is one.
-/

namespace ShellSyntax

/-! ### Captures -/

/-- What a group took: the places before and behind it. -/
structure Capture where
  start : Cursor
  stop : Cursor
deriving DecidableEq, Repr

/-- The text a group took. -/
def Capture.text (g : Capture) : Text := g.start.textTo g.stop

/-- The bytes a group took. -/
def Capture.span (g : Capture) : Span := g.start.spanTo g.stop

/-- Where groups began and ended on one way, the latest first. -/
structure Captures where
  starts : List (Nat × Cursor)
  stops : List (Nat × Cursor)
deriving DecidableEq, Repr

namespace Captures

/-- No group has begun. -/
def none : Captures := ⟨[], []⟩

/-- A group begins. -/
def start (index : Nat) (here : Cursor) (cs : Captures) : Captures :=
  { cs with starts := (index, here) :: cs.starts }

/-- A group ends. -/
def stop (index : Nat) (here : Cursor) (cs : Captures) : Captures :=
  { cs with stops := (index, here) :: cs.stops }

/-- What a group took the last time, if it took part. -/
def get? (cs : Captures) (index : Nat) : Option Capture :=
  (cs.starts.lookup index).bind fun a => (cs.stops.lookup index).map fun b => ⟨a, b⟩

end Captures

/-- A match of a pattern: the place behind it, and what groups took. -/
structure PatternMatch where
  stop : Cursor
  captures : Captures
deriving DecidableEq, Repr

/-! ### Places in a pattern -/

/-- The way from the whole pattern to a part of it, the last turn first: `false` leads to the first
or only pattern in a form, `true` to the second. Its length comes first, so that most places are
told apart at a glance. -/
structure Place where
  depth : Nat
  turns : List Bool
deriving DecidableEq, Repr

namespace Place

/-- The whole pattern. -/
def whole : Place := ⟨0, []⟩

/-- The first part of a part. -/
def first (p : Place) : Place := ⟨p.depth + 1, false :: p.turns⟩

/-- The second part of a part. -/
def second (p : Place) : Place := ⟨p.depth + 1, true :: p.turns⟩

end Place

/-! ### Fronts -/

/-- A way that waits for a character of a set. -/
structure Thread where
  place : Place
  set : CharSet
  captures : Captures
deriving DecidableEq, Repr

/-- What has been reached at one place of the text. -/
structure Front where
  /-- The parts of the pattern that a way has come to. -/
  seen : List Place
  /-- The ways that wait for a character, the most preferred last. -/
  waiting : List Thread
  /-- The way that is complete. Ways that are preferred less do not count any more. -/
  complete : Option Captures
deriving DecidableEq, Repr

namespace Front

/-- Nothing has been reached. -/
def none : Front := ⟨[], [], .none⟩

/-- The ways that wait, the most preferred first. -/
def threads (f : Front) : List Thread := f.waiting.reverse

/-- The front after a way comes to a part, from which it goes on unless a preferred way has been
there or is complete. -/
def visit (part : Place) (go : Front → Front) (f : Front) : Front :=
  if f.complete.isSome || f.seen.contains part then f else go { f with seen := part :: f.seen }

/-- The front after a way comes to a part that takes a character. -/
def await (part : Place) (set : CharSet) (cs : Captures) : Front → Front :=
  visit part fun f => { f with waiting := ⟨part, set, cs⟩ :: f.waiting }

/-- The front after a way comes to the end of the pattern. -/
def finish (cs : Captures) (f : Front) : Front :=
  { f with complete := f.complete <|> some cs }

/-- The match that ends here. -/
def match? (f : Front) (here : Cursor) : Option PatternMatch := f.complete.map (⟨here, ·⟩)

end Front

/-! ### Ways through a pattern -/

/-- What comes behind a pattern, for a way with the given captures. -/
abbrev Next := Captures → Front → Front

/-- A way that is given up. -/
def Next.stop : Next := fun _ f => f

namespace Pattern

/-- Goes round a repetition again, by way of `round`, or else leaves it. -/
def again (round next : Next) (part : Place) : Next := fun cs =>
  Front.visit part.second fun f => next cs (round cs f)

/-- Follows all ways into a pattern at a place of the text, in order of preference, as far as they
get without a character. -/
def enter (origin : Nat) (here : Cursor) : Pattern → Place → Next → Next
  | empty, _, next => next
  | one set, part, _ => Front.await part set
  | atStart, _, next => if here.offset = origin then next else .stop
  | atEnd, _, next => if here.rest.isEmpty then next else .stop
  | cat p q, part, next => enter origin here p part.first (enter origin here q part.second next)
  | alt p q, part, next => fun cs => Front.visit part fun f =>
      enter origin here q part.second next cs (enter origin here p part.first next cs f)
  | opt p, part, next => fun cs => Front.visit part fun f =>
      next cs (enter origin here p part.first next cs f)
  | star p, part, next => fun cs => Front.visit part fun f =>
      next cs (enter origin here p part.first
        (again (enter origin here p part.first .stop) next part) cs f)
  | plus p, part, next =>
      enter origin here p part.first (again (enter origin here p part.first .stop) next part)
  | group i p, part, next => fun cs =>
      enter origin here p part.first (fun cs => next (cs.stop i here)) (cs.start i here)

/-- Follows all ways on from a part that has taken its character. The part is given by the turns to
it. -/
def resume (origin : Nat) (here : Cursor) : Pattern → List Bool → Place → Next → Next
  | one _, [], _, next => next
  | cat p q, false :: turns, part, next =>
      resume origin here p turns part.first (enter origin here q part.second next)
  | cat _ q, true :: turns, part, next => resume origin here q turns part.second next
  | alt p _, false :: turns, part, next => resume origin here p turns part.first next
  | alt _ q, true :: turns, part, next => resume origin here q turns part.second next
  | opt p, false :: turns, part, next => resume origin here p turns part.first next
  | star p, false :: turns, part, next =>
      resume origin here p turns part.first (again (enter origin here p part.first .stop) next part)
  | plus p, false :: turns, part, next =>
      resume origin here p turns part.first (again (enter origin here p part.first .stop) next part)
  | group i p, false :: turns, part, next =>
      resume origin here p turns part.first fun cs => next (cs.stop i here)
  | _, _, _, _ => .stop

/-! ### Matches -/

/-- The front after the threads have met the character in front of `here`. -/
def advance (p : Pattern) (origin : Nat) (here : Cursor) (c : Char) (threads : List Thread) :
    Front :=
  threads.foldl
    (fun f t =>
      if t.set.mem c then
        resume origin here p t.place.turns.reverse .whole Front.finish t.captures f
      else f)
    .none

/-- The preferred match of the threads that wait in front of a text with the given offset, or else
`best`. -/
def scan (p : Pattern) (origin : Nat) :
    Text → Nat → List Thread → Option PatternMatch → Option PatternMatch
  | [], _, _, best => best
  | _, _, [], best => best
  | c :: rest, offset, threads, best =>
    let here : Cursor := ⟨offset + c.utf8Size, rest⟩
    let f := advance p origin here c threads
    scan p origin rest here.offset f.threads (f.match? here <|> best)

/-- The preferred match that begins at a place, in a search that began at the offset `origin`. -/
def matchFrom? (p : Pattern) (origin : Nat) (c : Cursor) : Option PatternMatch :=
  let f := enter origin c p .whole Front.finish .none .none
  scan p origin c.rest c.offset f.threads (f.match? c)

/-- The preferred match at the first place where there is one, from `c` on. -/
def searchFrom? (p : Pattern) (origin : Nat) (c : Cursor) : Option PatternMatch :=
  go c.offset c.rest
where
  /-- Tries the place with the given offset and text, then the places behind it. -/
  go (offset : Nat) : Text → Option PatternMatch
    | [] => matchFrom? p origin ⟨offset, []⟩
    | x :: rest =>
      matchFrom? p origin ⟨offset, x :: rest⟩ <|> go (offset + x.utf8Size) rest

/-- The preferred match at the first place where there is one, in the text from `c` on. A pattern
that asks to stand where the search begins is tried there only. -/
def find? (p : Pattern) (c : Cursor) : Option PatternMatch :=
  if p.anchored then p.matchFrom? c.offset c else p.searchFrom? c.offset c

end Pattern

end ShellSyntax
