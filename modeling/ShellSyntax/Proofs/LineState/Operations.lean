import Mathlib.Data.List.Infix
import Mathlib.Tactic.Common
import ShellSyntax.LineState

/-!
Line states after any operations.

* `LineState.Operation`, `LineState.perform`, `LineState.run`: what can be done to a line state, and
  the state after one operation and after several;
* `LineState.Operation.onFrames`, `LineState.replay`: the same done to a plain list of frames, of
  which the first is never lost. `LineState.stack_run_root`: these are the frames of the state;
* `LineState.Answers`: what can be asked of a state. `LineState.answers_eq`: the frames tell it;
* `LineState.run_eq_self`: operations that never take a state below its depth, and end there, give
  it back.
-/

namespace ShellSyntax

namespace LineState

/-- What can be done to a line state. -/
inductive Operation where
  | push (state : State)
  | pushTagged (state : State) (tag : Text)
  | pop
  | popAll
  | apply (transition : Transition)
deriving DecidableEq, Repr

/-- The state after an operation. -/
def perform (s : LineState) : Operation → LineState
  | .push state => s.push state
  | .pushTagged state tag => s.pushTagged state tag
  | .pop => s.pop
  | .popAll => s.popAll
  | .apply transition => s.apply transition

/-- The state after operations. -/
def run (s : LineState) (ops : List Operation) : LineState := ops.foldl perform s

@[simp] lemma run_nil (s : LineState) : s.run [] = s := rfl

@[simp] lemma run_cons (s : LineState) (op : Operation) (ops : List Operation) :
    s.run (op :: ops) = (s.perform op).run ops := rfl

/-! ### The frames of a state -/

/-- The frames of a plain list, from the base up, after an operation. The first frame always stays,
and the operation is about those above it. -/
def Operation.onFrames (fs : List Frame) : Operation → List Frame
  | push state | apply (.push state) => fs ++ [⟨state, none⟩]
  | pushTagged state tag => fs ++ [⟨state, some tag⟩]
  | pop | apply .pop => fs.take 1 ++ (fs.drop 1).dropLast
  | popAll | apply .popAll => fs.take 1
  | apply .stay => fs

/-- The frames of a plain list after operations, from the base up, where the base is all there is at
the start. -/
def replay (ops : List Operation) : List Frame := ops.foldl Operation.onFrames [base]

lemma stack_pop (s : LineState) : s.pop.stack = s.stack.take 1 ++ (s.stack.drop 1).dropLast :=
  congrArg (base :: ·) List.dropLast_reverse.symm

lemma stack_apply (s : LineState) (transition : Transition) :
    (s.apply transition).stack = (Operation.apply transition).onFrames s.stack := by
  cases transition with
  | stay => rfl
  | push state => exact s.stack_push state
  | pop => exact s.stack_pop
  | popAll => rfl

/-- An operation does to the frames of a state what it does to a plain list. -/
lemma stack_perform (s : LineState) (op : Operation) :
    (s.perform op).stack = op.onFrames s.stack := by
  cases op with
  | push state => exact s.stack_push state
  | pushTagged state tag => exact s.stack_pushTagged state tag
  | pop => exact s.stack_pop
  | popAll => rfl
  | apply transition => exact s.stack_apply transition

lemma stack_run (s : LineState) (ops : List Operation) :
    (s.run ops).stack = ops.foldl Operation.onFrames s.stack := by
  induction ops generalizing s with
  | nil => rfl
  | cons op ops ih => rw [run_cons, ih, stack_perform, List.foldl_cons]

lemma stack_run_root (ops : List Operation) : (root.run ops).stack = replay ops :=
  stack_run root ops

/-! ### What can be asked of a state -/

/-- What can be asked of a line state. -/
structure Answers where
  current : State
  tag : Option Text
  depth : ℕ
  isRoot : Bool
deriving DecidableEq, Repr

/-- What a state answers. -/
def answers (s : LineState) : Answers := ⟨s.current, s.tag, s.depth, s.isRoot⟩

/-- The answers of a plain list of frames, from the base up: they are about its last frame, and
about the number of frames. -/
def Answers.ofFrames (fs : List Frame) : Answers :=
  let top := fs.getLast?.getD base
  ⟨top.state, top.tag, fs.length, fs.length = 1⟩

lemma getLast?_stack (s : LineState) : s.stack.getLast? = some s.top := by
  obtain ⟨_ | ⟨f, fs⟩⟩ := s
  · rfl
  · rw [stack, List.reverse_cons, ← List.cons_append, List.getLast?_concat]
    rfl

lemma isRoot_eq (s : LineState) : s.isRoot = decide (s.stack.length = 1) := by
  obtain ⟨_ | ⟨f, fs⟩⟩ := s <;> simp [isRoot, stack]

/-- A state answers what the list of its frames answers. -/
lemma answers_eq (s : LineState) : s.answers = .ofFrames s.stack := by
  rw [Answers.ofFrames, getLast?_stack, ← isRoot_eq, length_stack]
  rfl

/-! ### Operations above a state -/

/-- An operation puts a frame on top of a list or takes frames off it, and leaves the others where
they are. -/
lemma prefix_onFrames (fs : List Frame) (op : Operation) :
    fs <+: op.onFrames fs ∨ op.onFrames fs <+: fs := by
  have hpush : ∀ f : Frame, fs <+: fs ++ [f] := fun f => List.prefix_append fs [f]
  have hpop : fs.take 1 ++ (fs.drop 1).dropLast <+: fs := by
    conv_rhs => rw [← List.take_append_drop 1 fs]
    exact (List.prefix_append_right_inj _).mpr (List.dropLast_prefix _)
  have hpopAll : fs.take 1 <+: fs := List.take_prefix 1 fs
  cases op with
  | push state => exact Or.inl (hpush _)
  | pushTagged state tag => exact Or.inl (hpush _)
  | pop => exact Or.inr hpop
  | popAll => exact Or.inr hpopAll
  | apply transition =>
      cases transition with
      | stay => exact Or.inl (List.prefix_refl fs)
      | push state => exact Or.inl (hpush _)
      | pop => exact Or.inr hpop
      | popAll => exact Or.inr hpopAll

variable {s t : LineState}

/-- A state that stands on another one does so after an operation that does not go below it. -/
lemma stack_prefix_perform (h : s.stack <+: t.stack) {op : Operation}
    (hdepth : s.depth ≤ (t.perform op).depth) : s.stack <+: (t.perform op).stack := by
  rw [← length_stack, ← length_stack] at hdepth
  rw [stack_perform] at hdepth ⊢
  rcases prefix_onFrames t.stack op with hgrows | hshrinks
  · exact h.trans hgrows
  · exact List.prefix_of_prefix_length_le h hshrinks hdepth

lemma stack_prefix_run (h : s.stack <+: t.stack) {ops : List Operation}
    (hdepth : ∀ before, before <+: ops → s.depth ≤ (t.run before).depth) :
    s.stack <+: (t.run ops).stack := by
  induction ops generalizing t with
  | nil => exact h
  | cons op ops ih =>
      have hstep := stack_prefix_perform h
        (hdepth [op] (List.cons_prefix_cons.mpr ⟨rfl, List.nil_prefix⟩))
      refine ih hstep fun before hbefore => ?_
      exact hdepth (op :: before) (List.cons_prefix_cons.mpr ⟨rfl, hbefore⟩)

/-- **What is opened and closed again leaves no trace.** Operations that never go below the depth of
a state, and end at it, give the state back. -/
lemma run_eq_self {ops : List Operation}
    (hdepth : ∀ before, before <+: ops → s.depth ≤ (s.run before).depth)
    (hend : (s.run ops).depth = s.depth) : s.run ops = s := by
  have hkept := stack_prefix_run (List.prefix_refl s.stack) hdepth
  refine (stack_injective (hkept.eq_of_length ?_)).symm
  rw [length_stack, length_stack, hend]

end LineState

end ShellSyntax
