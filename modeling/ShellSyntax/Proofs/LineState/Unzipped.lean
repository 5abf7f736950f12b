import Mathlib.Data.List.Basic
import Mathlib.Tactic.Common
import ShellSyntax.Proofs.LineState.Operations

/-!
Line states whose states and tags are kept in two lists.

* `UnzippedState`: the states and, apart from them, their tags. Each operation has to change both
  lists, and nothing in the type keeps these together;
* `LineState.unzipped`: the two lists of a line state. `LineState.unzipped_perform`: what is done to
  the line state is done to them, and `LineState.answers_unzipped`: they give the same answers;
* `UnzippedState.IsStack`: the two lists are one stack, that of some frames;
* `UnzippedState.isStack_run`: so they are after any operations, of the frames that the operations
  put on a plain list.
-/

namespace ShellSyntax

/-- The states entered and not yet left, and their tags, as two lists from the base up. -/
structure UnzippedState where
  states : List State
  /-- The tag of each state, if it has one. -/
  tags : List (Option Text)
deriving DecidableEq, Repr

namespace UnzippedState

/-- The two lists before the first line. -/
def root : UnzippedState := ⟨[.root], [none]⟩

/-- The innermost state. -/
def current (u : UnzippedState) : State := u.states.getLast?.getD .root

/-- The tag of the innermost state. -/
def tag (u : UnzippedState) : Option Text := u.tags.getLast?.join

/-- The number of states. -/
def depth (u : UnzippedState) : ℕ := u.states.length

/-- Whether no state is above the base. -/
def isRoot (u : UnzippedState) : Bool := u.states.length ≤ 1

/-- The two lists after entering a state. -/
def push (u : UnzippedState) (state : State) : UnzippedState :=
  ⟨u.states ++ [state], u.tags ++ [none]⟩

/-- The two lists after entering a state with a tag. -/
def pushTagged (u : UnzippedState) (state : State) (tag : Text) : UnzippedState :=
  ⟨u.states ++ [state], u.tags ++ [some tag]⟩

/-- The two lists after leaving the innermost state, if it is not the only one. -/
def pop (u : UnzippedState) : UnzippedState :=
  if 1 < u.states.length then ⟨u.states.dropLast, u.tags.dropLast⟩ else u

/-- The two lists, cut down to their first entries. -/
def popAll (u : UnzippedState) : UnzippedState := ⟨u.states.take 1, u.tags.take 1⟩

/-- The two lists after a change. -/
def apply (u : UnzippedState) : Transition → UnzippedState
  | .stay => u
  | .push state => u.push state
  | .pop => u.pop
  | .popAll => u.popAll

/-- The two lists after an operation. -/
def perform (u : UnzippedState) : LineState.Operation → UnzippedState
  | .push state => u.push state
  | .pushTagged state tag => u.pushTagged state tag
  | .pop => u.pop
  | .popAll => u.popAll
  | .apply transition => u.apply transition

/-- The two lists after operations. -/
def run (u : UnzippedState) (ops : List LineState.Operation) : UnzippedState := ops.foldl perform u

/-- What the two lists answer. -/
def answers (u : UnzippedState) : LineState.Answers := ⟨u.current, u.tag, u.depth, u.isRoot⟩

/-- The two lists are one stack, that of some frames from the base up. -/
structure IsStack (u : UnzippedState) (fs : List Frame) : Prop where
  length_eq : u.states.length = u.tags.length
  length_pos : 1 ≤ u.states.length
  head_states : u.states.head? = some .root
  head_tags : u.tags.head? = some none
  zip_eq : List.zipWith Frame.mk u.states u.tags = fs
  answers_eq : u.answers = .ofFrames fs

end UnzippedState

namespace LineState

/-- The states and the tags of a line state, in two lists. -/
def unzipped (s : LineState) : UnzippedState := ⟨s.stack.map Frame.state, s.stack.map Frame.tag⟩

/-! ### The same operations -/

lemma unzipped_push (s : LineState) (state : State) :
    (s.push state).unzipped = s.unzipped.push state := by
  rw [unzipped, stack_push, List.map_append, List.map_append]
  rfl

lemma unzipped_pushTagged (s : LineState) (state : State) (tag : Text) :
    (s.pushTagged state tag).unzipped = s.unzipped.pushTagged state tag := by
  rw [unzipped, stack_pushTagged, List.map_append, List.map_append]
  rfl

/-- The base is all there is, or both lists lose their last entry. -/
lemma unzipped_pop (s : LineState) : s.pop.unzipped = s.unzipped.pop := by
  obtain ⟨_ | ⟨f, fs⟩⟩ := s
  · rfl
  · have hstack : stack ⟨f :: fs⟩ = stack ⟨fs⟩ ++ [f] := by
      rw [stack, List.reverse_cons]
      rfl
    have hlength : 1 < (unzipped ⟨f :: fs⟩).states.length := by
      rw [unzipped, List.length_map, length_stack, depth, List.length_cons]
      omega
    rw [UnzippedState.pop, if_pos hlength, unzipped, unzipped, hstack, List.map_append,
      List.map_append, List.map_singleton, List.map_singleton, List.dropLast_concat,
      List.dropLast_concat]
    rfl

lemma unzipped_apply (s : LineState) (transition : Transition) :
    (s.apply transition).unzipped = s.unzipped.apply transition := by
  cases transition with
  | stay => rfl
  | push state => exact s.unzipped_push state
  | pop => exact s.unzipped_pop
  | popAll => rfl

/-- An operation does to the two lists of a line state what it does to the line state. -/
lemma unzipped_perform (s : LineState) (op : Operation) :
    (s.perform op).unzipped = s.unzipped.perform op := by
  cases op with
  | push state => exact s.unzipped_push state
  | pushTagged state tag => exact s.unzipped_pushTagged state tag
  | pop => exact s.unzipped_pop
  | popAll => rfl
  | apply transition => exact s.unzipped_apply transition

lemma unzipped_run (s : LineState) (ops : List Operation) :
    s.unzipped.run ops = (s.run ops).unzipped := by
  induction ops generalizing s with
  | nil => rfl
  | cons op ops ih =>
      rw [run_cons, ← ih, unzipped_perform]
      rfl

/-! ### The same answers -/

lemma zip_unzipped (s : LineState) :
    List.zipWith Frame.mk s.unzipped.states s.unzipped.tags = s.stack := by
  rw [unzipped, List.zipWith_map_left, List.zipWith_map_right, List.zipWith_self]
  exact List.map_id _

lemma depth_unzipped (s : LineState) : s.unzipped.depth = s.depth := by
  rw [UnzippedState.depth, unzipped, List.length_map, length_stack]

/-- The two lists of a line state answer what it answers. -/
lemma answers_unzipped (s : LineState) : s.unzipped.answers = s.answers := by
  have hcurrent : s.unzipped.current = s.current := by
    rw [UnzippedState.current, unzipped, List.getLast?_map, getLast?_stack]
    rfl
  have htag : s.unzipped.tag = s.tag := by
    rw [UnzippedState.tag, unzipped, List.getLast?_map, getLast?_stack]
    rfl
  have hisRoot : s.unzipped.isRoot = s.isRoot := by
    rw [isRoot_eq, UnzippedState.isRoot, unzipped, List.length_map, length_stack, depth]
    exact decide_eq_decide.mpr (by omega)
  rw [UnzippedState.answers, hcurrent, htag, depth_unzipped, hisRoot]
  rfl

lemma unzipped_injective {s t : LineState} (h : s.unzipped = t.unzipped) : s = t := by
  apply stack_injective
  rw [← zip_unzipped s, ← zip_unzipped t, h]

/-- The two lists of a line state are the stack of its frames. -/
lemma isStack_unzipped (s : LineState) : s.unzipped.IsStack s.stack where
  length_eq := by rw [unzipped, List.length_map, List.length_map]
  length_pos := by
    rw [unzipped, List.length_map, length_stack]
    exact Nat.le_add_left 1 _
  head_states := rfl
  head_tags := rfl
  zip_eq := s.zip_unzipped
  answers_eq := s.answers_unzipped.trans s.answers_eq

end LineState

namespace UnzippedState

open LineState (Operation replay)

/-- **Two lists, one stack.** After any operations the lists of the states and of their tags are
equally long, with the untagged root at their bottom; together they are the frames of the plain list
that the same operations have been done to, and of the line state, and give the same answers. Two
runs of operations lead to the same lists just if they lead to the same frames. Further operations
that never go below the depth reached, and end at it, give the lists and the line state back. To
leave all states is among them only where there is none above the base. -/
theorem isStack_run (ops : List Operation) :
    let u := root.run ops
    let s := LineState.root.run ops
    u.IsStack (replay ops)
      ∧ (s.unzipped = u ∧ s.stack = replay ops ∧ s.answers = .ofFrames (replay ops))
      ∧ (∀ others, (root.run others = u ↔ replay others = replay ops)
        ∧ (LineState.root.run others = s ↔ replay others = replay ops))
      ∧ ∀ later, (∀ before, before <+: later → u.depth ≤ (u.run before).depth) →
        (u.run later).depth = u.depth → u.run later = u ∧ s.run later = s := by
  intro u s
  have hrun : ∀ ops, root.run ops = (LineState.root.run ops).unzipped := LineState.root.unzipped_run
  have hstack : s.stack = replay ops := LineState.stack_run_root ops
  have hu : s.unzipped = u := (hrun ops).symm
  have hstates : ∀ others, LineState.root.run others = s ↔ replay others = replay ops := by
    intro others
    rw [← LineState.stack_run_root others, ← hstack]
    exact ⟨congrArg _, LineState.stack_injective⟩
  refine ⟨?_, ⟨hu, hstack, hstack ▸ s.answers_eq⟩, fun others => ⟨?_, hstates others⟩, ?_⟩
  · rw [← hu, ← hstack]
    exact s.isStack_unzipped
  · rw [← hstates others, ← hu, hrun others]
    exact ⟨LineState.unzipped_injective, congrArg _⟩
  · intro later hdepth hend
    -- the depths are those of the line state, of which this is known
    simp only [← hu, LineState.unzipped_run, LineState.depth_unzipped] at hdepth hend ⊢
    have hback : s.run later = s := LineState.run_eq_self hdepth hend
    exact ⟨congrArg _ hback, hback⟩

/-- Quotes and a substitution that are opened and closed within a here-document leave its tag. -/
theorem isStack_run_quotedSubstitution :
    let u := root.run [.pop, .pushTagged .heredoc ['A'], .popAll, .pushTagged .heredoc ['B']]
    let later : List Operation :=
      [.push .doubleQuoted, .apply (.push .substitution), .apply .stay, .apply .pop, .pop]
    ((∀ before, before <+: later → u.depth ≤ (u.run before).depth)
        ∧ (u.run later).depth = u.depth)
      ∧ u.run later = u ∧ (u.run later).tag = some ['B'] := by
  intro u later
  have hdepth : ∀ before, before <+: later → u.depth ≤ (u.run before).depth := by
    have hinits : ∀ before ∈ later.inits, u.depth ≤ (u.run before).depth := by decide
    exact fun before hbefore => hinits before ((List.mem_inits _ _).mpr hbefore)
  have hback := ((isStack_run _).2.2.2 later hdepth rfl).1
  exact ⟨⟨hdepth, rfl⟩, hback, hback ▸ rfl⟩

end UnzippedState

end ShellSyntax
