import ShellSyntax.LineState
import ShellSyntax.Pattern.Match
import ShellSyntax.Pattern.Reader
import ShellSyntax.Token

/-!
Rules of a language: a pattern, what its match means, and where it leads.

* `Classification`: how a match becomes tokens;
* `TagUse`: what a rule does with the tag of a state;
* `Rule`, with `Rule.read?` for a written pattern, which is bound to the place of the cursor;
* `RuleMatch` and `Rule.match?`: the match of a rule at a cursor. A match takes at least one
  character;
* `Rule.accepts`, `Rule.capturedTag`: the part that tags play.
-/

namespace ShellSyntax

/-- How a match becomes tokens. -/
inductive Classification where
  /-- One token of a kind. -/
  | fixed (kind : TokenKind)
  /-- One token whose kind depends on the word it is. -/
  | identifier
  /-- One token whose kind depends on the bracket it is. -/
  | bracket
  /-- A token for each group that took something. -/
  | groups (kinds : List TokenKind)
deriving DecidableEq, Repr

/-- What a rule does with tags. -/
inductive TagUse where
  | ignore
  /-- The state that the rule enters is tagged with the text of a group. -/
  | capture (group : Nat)
  /-- The match must be the tag of the state, apart from blanks around it. -/
  | close
deriving DecidableEq, Repr

/-- A rule of a language. -/
structure Rule where
  name : String
  pattern : Pattern
  classify : Classification
  transition : Transition := .stay
  /-- Whether the rule applies at the start of a line only. -/
  lineStart : Bool := false
  tag : TagUse := .ignore
deriving DecidableEq, Repr

/-- What can be wrong with a written rule. -/
inductive RuleFault where
  | invalidPattern (rule : String)
  | groupMismatch (rule : String) (groups kinds : Nat)
deriving DecidableEq, Repr

/-- The report to the user. -/
def RuleFault.message : RuleFault → String
  | invalidPattern rule => "Invalid pattern in rule '" ++ rule ++ "'"
  | groupMismatch rule groups kinds =>
    "Rule '" ++ rule ++ "' has " ++ toString groups ++ " groups but " ++ toString kinds ++
      " token kinds"

/-- A match of a rule. -/
structure RuleMatch where
  start : Cursor
  stop : Cursor
  /-- What each group took, for a rule that classifies by groups. -/
  groups : List (Option Capture)
deriving DecidableEq, Repr

namespace RuleMatch

/-- The text of a match. -/
def text (m : RuleMatch) : Text := m.start.textTo m.stop

/-- The bytes of a match. -/
def span (m : RuleMatch) : Span := m.start.spanTo m.stop

end RuleMatch

namespace Rule

/-! ### Building rules -/

/-- A rule whose pattern begins where the cursor stands. -/
def anchored (name : String) (pattern : Pattern) (classify : Classification) : Rule :=
  { name, pattern := .cat .atStart pattern, classify }

/-- A rule with a pattern that is written in the basic syntax of `Pattern.read?`. A rule that
classifies by groups has one kind for each group. -/
def read? (name : String) (source : Text) (classify : Classification) : Except RuleFault Rule :=
  match Pattern.read? source with
  | none => .error (.invalidPattern name)
  | some pattern =>
    match classify with
    | .groups kinds =>
      if pattern.groupCount = kinds.length then .ok { name, pattern, classify }
      else .error (.groupMismatch name pattern.groupCount kinds.length)
    | _ => .ok { name, pattern, classify }

/-- The rule, entering a state. -/
def pushing (state : State) (r : Rule) : Rule := { r with transition := .push state }

/-- The rule, leaving the innermost state. -/
def popping (r : Rule) : Rule := { r with transition := .pop }

/-- The rule, leaving all states. -/
def poppingAll (r : Rule) : Rule := { r with transition := .popAll }

/-- The rule, at the start of a line only. -/
def atLineStart (r : Rule) : Rule := { r with lineStart := true }

/-- The rule, tagging the state it enters with the text of a group. -/
def capturingTag (group : Nat) (r : Rule) : Rule := { r with tag := .capture group }

/-- The rule, for the tag of the innermost state only. -/
def closingTag (r : Rule) : Rule := { r with tag := .close }

/-! ### Matching -/

/-- Whether a rule may apply at a place: there is text left, and the line starts here if it must. -/
def applies (r : Rule) (c : Cursor) : Bool :=
  !c.rest.isEmpty && (!r.lineStart || c.offset = 0)

/-- The match of a rule at a place. -/
def match? (r : Rule) (c : Cursor) : Option RuleMatch :=
  if r.applies c then
    (r.pattern.find? c).bind fun found =>
      if found.stop.offset = c.offset then none
      else
        let groups := match r.classify with
          | .groups _ => (List.range r.pattern.groupCount).map found.captures.get?
          | _ => []
        some ⟨c, found.stop, groups⟩
  else none

/-- The match of a rule at an offset of a line. An offset inside a character is no place to look
at, unless the rule cannot apply there anyway. -/
def matchAt? (r : Rule) (line : Text) (offset : Nat) : Option (Option RuleMatch) :=
  if line.size ≤ offset || (r.lineStart && offset ≠ 0) then some none
  else (line.cursorAt? offset).map r.match?

/-- Whether a match stands under the tag of the innermost state. -/
def accepts (r : Rule) (m : RuleMatch) (tag : Option Text) : Bool :=
  match r.tag with
  | .close => tag = some m.text.trim
  | _ => true

/-- The tag that a match carries into the state it enters. -/
def capturedTag (r : Rule) (m : RuleMatch) : Option Text :=
  match r.tag with
  | .capture group => (m.groups[group]?.join).map Capture.text
  | _ => none

end Rule

end ShellSyntax
