import ShellSyntax.Text.Blank

/-!
What a line leaves open for the next one.

* `State`: where in the shell grammar the tokenizer stands;
* `LineState`: the states entered and not yet left, above a root that is always there. A state may
  carry a tag, the word that ends a here-document;
* `Transition`: the change of a state that a rule asks for, and `LineState.apply`.
-/

namespace ShellSyntax

/-- Where in the shell grammar a piece of text stands. -/
inductive State where
  | root
  /-- Within single quotes. -/
  | singleQuoted
  /-- Within double quotes. -/
  | doubleQuoted
  /-- In the lines of a here-document. -/
  | heredoc
  /-- Behind a dollar sign and a single quote. -/
  | ansiQuoted
  /-- Behind a dollar sign and a double quote. -/
  | localeQuoted
  /-- Behind a dollar sign and a round bracket. -/
  | substitution
  /-- Behind a dollar sign and a curly bracket. -/
  | expansion
deriving DecidableEq, Repr

namespace State

/-- All states. -/
def all : List State :=
  [root, singleQuoted, doubleQuoted, heredoc, ansiQuoted, localeQuoted, substitution, expansion]

end State

/-- A change of the state. -/
inductive Transition where
  | stay
  | push (state : State)
  | pop
  | popAll
deriving DecidableEq, Repr

/-- A state that was entered, with its tag. -/
structure Frame where
  state : State
  tag : Option Text
deriving DecidableEq, Repr

/-- The states entered and not yet left, the innermost first. Below them lies the root, which has
no tag and cannot be left. -/
structure LineState where
  entered : List Frame
deriving DecidableEq, Repr

namespace LineState

/-- The state before the first line. -/
def root : LineState := ⟨[]⟩

/-- The frame below all others. -/
def base : Frame := ⟨.root, none⟩

/-- The innermost frame. -/
def top (s : LineState) : Frame := s.entered.headD base

/-- The innermost state. -/
def current (s : LineState) : State := s.top.state

/-- The tag of the innermost state. -/
def tag (s : LineState) : Option Text := s.top.tag

/-- All frames from the base up. -/
def stack (s : LineState) : List Frame := base :: s.entered.reverse

/-- The number of frames. -/
def depth (s : LineState) : Nat := s.entered.length + 1

/-- Whether the base is the only frame. -/
def isRoot (s : LineState) : Bool := s.entered.isEmpty

/-- The state after entering another one. -/
def push (s : LineState) (state : State) : LineState := ⟨⟨state, none⟩ :: s.entered⟩

/-- The state after entering another one with a tag. -/
def pushTagged (s : LineState) (state : State) (tag : Text) : LineState :=
  ⟨⟨state, some tag⟩ :: s.entered⟩

/-- The state after leaving the innermost one, if it is not the base. -/
def pop (s : LineState) : LineState := ⟨s.entered.tail⟩

/-- The state after leaving all but the base. -/
def popAll (_ : LineState) : LineState := root

/-- The state after a change. -/
def apply (s : LineState) : Transition → LineState
  | .stay => s
  | .push state => s.push state
  | .pop => s.pop
  | .popAll => s.popAll

@[simp] theorem current_root : root.current = .root := rfl

@[simp] theorem tag_root : root.tag = none := rfl

theorem length_stack (s : LineState) : s.stack.length = s.depth := by
  simp [stack, depth]

theorem isRoot_iff (s : LineState) : s.isRoot = true ↔ s = root := by
  cases s; simp [isRoot, root]

@[simp] theorem stack_root : root.stack = [base] := rfl

theorem stack_push (s : LineState) (state : State) :
    (s.push state).stack = s.stack ++ [⟨state, none⟩] := by
  simp [stack, push]

theorem stack_pushTagged (s : LineState) (state : State) (tag : Text) :
    (s.pushTagged state tag).stack = s.stack ++ [⟨state, some tag⟩] := by
  simp [stack, pushTagged]

/-- The frames determine the state. -/
theorem stack_injective {s t : LineState} (h : s.stack = t.stack) : s = t :=
  congrArg mk (List.reverse_inj.mp (List.cons.inj h).2)

/-- What is entered is what is left next. -/
theorem pop_push (s : LineState) (state : State) : (s.push state).pop = s := rfl

theorem pop_pushTagged (s : LineState) (state : State) (tag : Text) :
    (s.pushTagged state tag).pop = s := rfl

/-- The base cannot be left. -/
theorem pop_root : root.pop = root := rfl

end LineState

end ShellSyntax
