import ShellSyntax.Language.Tokens

/-!
The tokens of a document's lines, kept from one look at it to the next.

* `CachedLine`: the state at the end of a line and its tokens, unless the line was edited since;
* `LineCache`: the lines as they were last seen, and how many of them from the top are `settled`;
* `LineCache.invalidateFrom`: a line has been edited;
* `LineCache.refresh`: bringing the cache up to date. It starts at the first line that is not
  settled and stops where a line ends in the state it ended in before, provided that no later line
  has been edited.
-/

namespace ShellSyntax

/-- What is kept of a line. -/
structure CachedLine where
  endState : LineState
  /-- The tokens, unless the line is new or has been edited. -/
  tokens : Option (List Token)
deriving DecidableEq, Repr

namespace CachedLine

/-- A line of which nothing is known. -/
def unknown : CachedLine := ⟨.root, none⟩

/-- What is kept of a line that has been tokenized. -/
def ofTokens (r : LineTokens) : CachedLine := ⟨r.endState, some r.tokens⟩

end CachedLine

/-- What is kept of a document. -/
structure LineCache where
  /-- The name of the document's language. -/
  language : Option String
  lines : List CachedLine
  /-- The number of lines from the top that need not be looked at again. -/
  settled : Nat
deriving DecidableEq, Repr

namespace LineCache

/-- The cache of a document that has not been looked at. -/
def empty : LineCache := ⟨none, [], 0⟩

/-- Forgets all lines. -/
def invalidateAll (c : LineCache) : LineCache := { c with lines := [], settled := 0 }

/-- Sets the language, in which all lines have to be looked at again. -/
def setLanguage (c : LineCache) (language : Option String) : LineCache :=
  { c with language }.invalidateAll

/-- Takes note that a line was edited. -/
def invalidateFrom (c : LineCache) (line : Nat) : LineCache :=
  { c with
    lines := c.lines.modify line fun l => { l with tokens := none }
    settled := min c.settled line }

/-- The state at the end of a settled line. -/
def lineState? (c : LineCache) (line : Nat) : Option LineState :=
  if line < c.settled then c.lines[line]?.map (·.endState) else none

/-- The cache for a document of `count` lines. If their number has changed, lines have moved, so
only the settled ones are kept. -/
def fit (c : LineCache) (count : Nat) : LineCache :=
  if c.lines.length = count then c
  else
    let keep := min c.settled count
    { c with
      lines := c.lines.take keep ++ List.replicate (count - keep) .unknown
      settled := keep }

/-- Tokenizes lines from a state on, given what was kept of them. -/
def update (l : Language) : LineState → List Text → List CachedLine → List CachedLine
  | s, line :: lines, old :: rest =>
    let found := l.tokenizeLine line s
    .ofTokens found ::
      if found.endState = old.endState ∧ rest.all (·.tokens.isSome) then rest
      else update l found.endState lines rest
  | _, _, rest => rest

/-- The cache after its document has been looked at. -/
def refresh (c : LineCache) (l : Language) (lines : List Text) : LineCache :=
  let c := c.fit lines.length
  let start := min c.settled lines.length
  let kept := c.lines.take start
  let state := kept.getLast?.elim .root (·.endState)
  { c with
    lines := kept ++ update l state (lines.drop start) (c.lines.drop start)
    settled := lines.length }

theorem length_update (l : Language) (s : LineState) (lines : List Text) (old : List CachedLine) :
    (update l s lines old).length = old.length := by
  induction lines generalizing s old with
  | nil => simp [update]
  | cons line lines ih =>
    cases old with
    | nil => simp [update]
    | cons o rest =>
      rw [update, List.length_cons, List.length_cons]
      split
      · rfl
      · rw [ih]

/-- The tokens of all lines. -/
def tokens (c : LineCache) : List (List Token) :=
  c.lines.map fun l => l.tokens.getD []

end LineCache

end ShellSyntax
