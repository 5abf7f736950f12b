import ShellSyntax.Language.Basic

/-!
The tokens of a line, and the state it leaves behind.

* `Language.tokensOf`: the tokens of one match;
* `Language.step`: the tokens at a cursor: those of the first rule of the current state that
  matches, or else one character of plain text;
* `Language.tokenizeLine`, `Language.tokenizeLines`: the tokens of a line, and of lines of which
  each goes on in the state that the one before it left.
-/

namespace ShellSyntax

/-- The tokens of a line and the state at its end. -/
structure LineTokens where
  tokens : List Token
  endState : LineState
deriving DecidableEq, Repr

namespace Language

/-! ### The tokens of a match -/

/-- The tokens of groups, each with its kind, and plain text in the gaps before them and before
`stop`. The gaps count from `offset`. Groups that took nothing give no token. -/
def groupTokens (stop : Nat) : Nat → List (Option Capture × TokenKind) → List Token
  | offset, [] => if offset < stop then [.ofSpan ⟨offset, stop⟩ .plain] else []
  | offset, (none, _) :: groups => groupTokens stop offset groups
  | offset, (some g, kind) :: groups =>
    let s := g.span
    if s.stop ≤ s.start then groupTokens stop offset groups
    else
      (if offset < s.start then [.ofSpan ⟨offset, s.start⟩ .plain] else []) ++
        .ofSpan s kind :: groupTokens stop s.stop groups

/-- The tokens of a match of a rule. -/
def tokensOf (l : Language) (r : Rule) (m : RuleMatch) : List Token :=
  match r.classify with
  | .fixed kind => [.ofSpan m.span kind]
  | .identifier => [.ofSpan m.span (l.identifierKind m.text)]
  | .bracket => [.ofSpan m.span (m.text.head?.elim .plain l.bracketKind)]
  | .groups kinds => groupTokens m.stop.offset m.start.offset (m.groups.zip kinds)

/-- The state after a match of a rule. A state that is entered takes the captured tag with it. -/
def stateAfter (r : Rule) (m : RuleMatch) (s : LineState) : LineState :=
  match r.transition, r.capturedTag m with
  | .push state, some tag => s.pushTagged state tag
  | transition, _ => s.apply transition

/-! ### The tokens of a line -/

/-- The first rule that matches at a place in a state and stands under its tag, with its match. -/
def firstMatch? (l : Language) (s : LineState) (c : Cursor) : Option (Rule × RuleMatch) :=
  (l.rules s.current).findSome? fun r =>
    ((r.match? c).filter (r.accepts · s.tag)).map (r, ·)

/-- What a step of the tokenizer finds: tokens, and the state and place to go on with. -/
structure Step where
  tokens : List Token
  state : LineState
  next : Cursor

/-- The step at a place where `x` is the next character and `rest` the text after it. Where no rule
matches, the character is plain text. -/
def step (l : Language) (s : LineState) (c : Cursor) (x : Char) (rest : Text) : Step :=
  match l.firstMatch? s c with
  | some (r, m) => ⟨l.tokensOf r m, stateAfter r m s, m.stop⟩
  | none =>
    let next := c.past x rest
    ⟨[.ofSpan (c.spanTo next) .plain], s, next⟩

/-- The tokens from a place on, in at most `fuel` steps. -/
def tokenizeFrom (l : Language) : Nat → LineState → Cursor → LineTokens
  | 0, s, _ => ⟨[], s⟩
  | fuel + 1, s, c =>
    match c.rest with
    | [] => ⟨[], s⟩
    | x :: rest =>
      let found := l.step s c x rest
      let later := tokenizeFrom l fuel found.state found.next
      ⟨found.tokens ++ later.tokens, later.endState⟩

/-- The tokens of a line that begins in a state. Every step takes a character, so there are no more
steps than characters. -/
def tokenizeLine (l : Language) (line : Text) (start : LineState) : LineTokens :=
  l.tokenizeFrom line.length start (.start line)

/-- The tokens of lines, the first of which begins in a state and each other where the one before
it ends. -/
def tokenizeLines (l : Language) : List Text → LineState → List LineTokens
  | [], _ => []
  | line :: lines, start =>
    let result := l.tokenizeLine line start
    result :: l.tokenizeLines lines result.endState

end Language

end ShellSyntax
