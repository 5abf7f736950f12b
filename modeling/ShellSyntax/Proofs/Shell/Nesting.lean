import Mathlib.Data.List.Basic
import Mathlib.Data.List.Induction
import Mathlib.Tactic.Common
import ShellSyntax.Proofs.LineCache.Refresh
import ShellSyntax.Proofs.Shell.Opening

/-!
How the states of the shell language are nested.

* `Shell.HasShape`: above the base stand here-documents, each with its tag, and above these nothing,
  a quote, an expansion, or an expansion within double quotes;
* `Shell.moves`, `Shell.move_of_mem_rules`: what the rules of a state can do to the stack;
* `Shell.Nested`: the same states, built from the root. `Shell.Nested.apply`,
  `Shell.Nested.pushTagged`: each rule leads from such states to such states.
  `Shell.nested_iff_hasShape`: the two descriptions agree;
* `Shell.opener`, `Language.IsShell.exists_endAfter`: each of these states is entered by some lines;
* `Language.IsShell.reachable_iff_hasShape`: so they are just the states that lines of shell text
  leave behind.
-/

namespace ShellSyntax

namespace Shell

/-! ### The shape of the stack -/

/-- What can stand above the here-documents: nothing, a quote or an expansion, or an expansion
within double quotes. -/
def innermost : List (List State) :=
  [] :: bodies.map ([·]) ++ expansions.map ([.doubleQuoted, ·])

/-- The frames of here-documents with the given tags, and of other states above them, from the base
up. -/
def frames (tags : List Text) (inner : List State) : List Frame :=
  LineState.base :: tags.map (⟨.heredoc, some ·⟩) ++ inner.map (⟨·, none⟩)

/-- Above the base stand here-documents with their tags, and at most a quote and an expansion. -/
def HasShape (s : LineState) : Prop :=
  ∃ tags inner, (∀ w ∈ tags, IsTag w) ∧ inner ∈ innermost ∧ s.stack = frames tags inner

namespace HasShape

variable {s : LineState}

lemma root_notMem (h : HasShape s) : State.root ∉ s.stack.tail.map Frame.state := by
  have hinnermost : ∀ inner ∈ innermost, State.root ∉ inner := by decide
  obtain ⟨tags, inner, -, hinner, hstack⟩ := h
  rw [hstack, frames, List.cons_append, List.tail_cons, List.map_append, List.map_map, List.map_map]
  intro hroot
  rcases List.mem_append.mp hroot with hroot | hroot
  · obtain ⟨w, -, heq⟩ := List.mem_map.mp hroot
    cases heq
  · obtain ⟨b, hb, rfl⟩ := List.mem_map.mp hroot
    exact hinnermost inner hinner hb

lemma exists_tag (h : HasShape s) :
    ∀ f ∈ s.stack, f.state = .heredoc → ∃ w, f.tag = some w ∧ IsTag w := by
  have hinnermost : ∀ inner ∈ innermost, State.heredoc ∉ inner := by decide
  obtain ⟨tags, inner, htags, hinner, hstack⟩ := h
  intro f hf hheredoc
  rw [hstack, frames, List.cons_append, List.mem_cons, List.mem_append] at hf
  rcases hf with rfl | hf | hf
  · cases hheredoc
  · obtain ⟨w, hw, rfl⟩ := List.mem_map.mp hf
    exact ⟨w, rfl, htags w hw⟩
  · obtain ⟨b, hb, rfl⟩ := List.mem_map.mp hf
    obtain rfl : b = .heredoc := hheredoc
    exact absurd hb (hinnermost inner hinner)

/-- Only the base, here-documents and double quotes have anything above them. -/
lemma mem_dropLast (h : HasShape s) :
    ∀ f ∈ s.stack.dropLast, f.state ∈ [State.root, .heredoc, .doubleQuoted] := by
  have hinnermost : ∀ inner ∈ innermost, ∀ b ∈ inner.dropLast, b = .doubleQuoted := by decide
  obtain ⟨tags, inner, -, hinner, hstack⟩ := h
  have hbelow : ∀ f ∈ LineState.base :: tags.map (⟨.heredoc, some ·⟩),
      f.state ∈ [State.root, .heredoc, .doubleQuoted] := by
    intro f hf
    rcases List.mem_cons.mp hf with rfl | hf
    · decide
    · obtain ⟨w, -, rfl⟩ := List.mem_map.mp hf
      exact List.mem_cons_of_mem _ List.mem_cons_self
  intro f hf
  rw [hstack, frames] at hf
  by_cases hnil : inner = []
  · rw [hnil, List.map_nil, List.append_nil] at hf
    exact hbelow f ((List.dropLast_sublist _).subset hf)
  · rw [List.dropLast_append_of_ne_nil (by simpa using hnil), ← List.map_dropLast] at hf
    rcases List.mem_append.mp hf with hf | hf
    · exact hbelow f hf
    · obtain ⟨b, hb, rfl⟩ := List.mem_map.mp hf
      simp [hinnermost inner hinner b hb]

end HasShape

/-! ### What the rules do to the stack -/

/-- What the rules of a state can do to the stack, apart from the opening of a here-document. -/
def moves : State → List Transition
  | .root => .stay :: bodies.map .push
  | .heredoc => .pop :: .stay :: bodies.map .push
  | .singleQuoted => [.stay, .popAll]
  | .doubleQuoted => .stay :: .popAll :: expansions.map .push
  | .ansiQuoted | .localeQuoted | .substitution | .expansion => [.stay, .pop]

/-- A rule makes one of the moves of its state and captures no tag, or it opens a here-document. -/
lemma move_of_mem_rules (s : State) : ∀ r ∈ rules s,
    (r.transition ∈ moves s ∧ (r.tag = .ignore ∨ r.tag = .close))
      ∨ ((s = .root ∨ s = .heredoc) ∧ r.transition = .push .heredoc ∧ r.tag = .capture tagGroup
        ∧ hasGroups r = true) := by
  cases s <;> decide

/-- The opening of a here-document captures its tag. -/
lemma exists_capturedTag {s : State} {r : Rule} (hr : r ∈ rules s) (hgroups : hasGroups r = true)
    (htag : r.tag = .capture tagGroup) {c : Cursor} {m : RuleMatch} (h : r.match? c = some m) :
    ∃ w, IsTag w ∧ r.capturedTag m = some w := by
  obtain ⟨-, a, b, d, e, hparts, -, -, -, -, -, hne, hchars⟩ := parts_of_match hr hgroups h
  have hword : IsTag (d.textTo e) := ⟨hne, fun x hx => (mem_tagChar x).mp (hchars x hx)⟩
  refine ⟨d.textTo e, hword, ?_⟩
  rw [Rule.capturedTag, htag, hparts]
  rfl

lemma moves_body : ∀ b ∈ bodies, ∀ t ∈ moves b, t = .stay ∨ t = .pop ∨ t = .popAll
    ∨ (b = .doubleQuoted ∧ ∃ b' ∈ expansions, .push b' = t) := by
  decide

/-! ### Nested states -/

/-- The states within here-documents, or within none. -/
inductive WithinHeredocs : LineState → Prop where
  | root : WithinHeredocs .root
  | heredoc {s : LineState} {w : Text} (h : WithinHeredocs s) (hw : IsTag w) :
      WithinHeredocs (s.pushTagged .heredoc w)

/-- The states that can be nested: here-documents, then a quote or an expansion, or an expansion
within double quotes. -/
inductive Nested : LineState → Prop where
  | heredocs {s : LineState} (h : WithinHeredocs s) : Nested s
  | body {s : LineState} {b : State} (h : WithinHeredocs s) (hb : b ∈ bodies) : Nested (s.push b)
  | quoted {s : LineState} {b : State} (h : WithinHeredocs s) (hb : b ∈ expansions) :
      Nested ((s.push .doubleQuoted).push b)

namespace WithinHeredocs

variable {s : LineState}

lemma current (h : WithinHeredocs s) : s = .root ∨ s.current = .heredoc := by
  cases h with
  | root => exact Or.inl rfl
  | heredoc h hw => exact Or.inr rfl

lemma pop (h : WithinHeredocs s) : WithinHeredocs s.pop := by
  cases h with
  | root => exact .root
  | heredoc h hw => exact h

end WithinHeredocs

namespace Nested

variable {s : LineState} {t : Transition}

/-- The moves of the innermost state lead to nested states again. -/
lemma apply (h : Nested s) (ht : t ∈ moves s.current) : Nested (s.apply t) := by
  cases h with
  | heredocs h =>
      have hmoves : t = .pop ∨ t = .stay ∨ ∃ b ∈ bodies, Transition.push b = t := by
        rcases h.current with rfl | hcurrent
        · simpa [moves] using Or.inr (List.mem_cons.mp ht)
        · rw [hcurrent] at ht
          simpa [moves] using ht
      rcases hmoves with rfl | rfl | ⟨b, hb, rfl⟩
      · exact .heredocs h.pop
      · exact .heredocs h
      · exact .body h hb
  | @body s b h hb =>
      rcases moves_body b hb t ht with rfl | rfl | rfl | ⟨rfl, b, hb, rfl⟩
      · exact .body h hb
      · exact .heredocs h
      · exact .heredocs .root
      · exact .quoted h hb
  | @quoted s b h hb =>
      have hmoves : ∀ b ∈ expansions, ∀ t ∈ moves b, t = .stay ∨ t = .pop := by decide
      rcases hmoves b hb t ht with rfl | rfl
      · exact .quoted h hb
      · exact .body h (by decide)

/-- Opening a here-document where there is neither quote nor expansion leads to nested states. -/
lemma pushTagged (h : Nested s) (hs : s.current = .root ∨ s.current = .heredoc) {w : Text}
    (hw : IsTag w) : Nested (s.pushTagged .heredoc w) := by
  have hbodies : ∀ b ∈ bodies, ¬(b = .root ∨ b = .heredoc) := by decide
  have hexpansions : ∀ b ∈ expansions, ¬(b = .root ∨ b = .heredoc) := by decide
  cases h with
  | heredocs h => exact .heredocs (.heredoc h hw)
  | body h hb => exact absurd hs (hbodies _ hb)
  | quoted h hb => exact absurd hs (hexpansions _ hb)

end Nested

/-! ### Nested states and the shape of the stack -/

lemma exists_stack_eq (tags : List Text) (inner : List State) :
    ∃ s : LineState, s.stack = frames tags inner :=
  ⟨⟨(frames tags inner).tail.reverse⟩, by rw [LineState.stack, List.reverse_reverse]; rfl⟩

lemma frames_concat_tag (tags : List Text) (w : Text) :
    frames (tags ++ [w]) [] = frames tags [] ++ [⟨.heredoc, some w⟩] := by
  simp [frames]

lemma frames_concat (tags : List Text) (inner : List State) (b : State) :
    frames tags (inner ++ [b]) = frames tags inner ++ [⟨b, none⟩] := by
  simp [frames]

lemma withinHeredocs_iff {s : LineState} :
    WithinHeredocs s ↔ ∃ tags, (∀ w ∈ tags, IsTag w) ∧ s.stack = frames tags [] := by
  constructor
  · intro h
    induction h with
    | root => exact ⟨[], by simp, rfl⟩
    | @heredoc s w h hw ih =>
        obtain ⟨tags, htags, hstack⟩ := ih
        refine ⟨tags ++ [w], ?_, ?_⟩
        · exact List.forall_mem_append.mpr ⟨htags, List.forall_mem_singleton.mpr hw⟩
        · rw [LineState.stack_pushTagged, hstack, frames_concat_tag]
  · rintro ⟨tags, htags, hstack⟩
    induction tags using List.reverseRecOn generalizing s with
    | nil =>
        obtain rfl : s = .root := LineState.stack_injective hstack
        exact .root
    | append_singleton tags w ih =>
        obtain ⟨htags, hw⟩ := List.forall_mem_append.mp htags
        obtain ⟨below, hbelow⟩ := exists_stack_eq tags []
        obtain rfl : s = below.pushTagged .heredoc w := by
          refine LineState.stack_injective ?_
          rw [hstack, LineState.stack_pushTagged, hbelow, frames_concat_tag]
        exact .heredoc (ih htags hbelow) (List.forall_mem_singleton.mp hw)

/-- The nested states are those whose stack has the shape. -/
lemma nested_iff_hasShape {s : LineState} : Nested s ↔ HasShape s := by
  constructor
  · intro h
    cases h with
    | heredocs h =>
        obtain ⟨tags, htags, hstack⟩ := withinHeredocs_iff.mp h
        exact ⟨tags, [], htags, by decide, hstack⟩
    | @body s b h hb =>
        obtain ⟨tags, htags, hstack⟩ := withinHeredocs_iff.mp h
        refine ⟨tags, [b], htags, by simp [innermost, hb], ?_⟩
        rw [LineState.stack_push, hstack]
        exact (frames_concat tags [] b).symm
    | @quoted s b h hb =>
        obtain ⟨tags, htags, hstack⟩ := withinHeredocs_iff.mp h
        refine ⟨tags, [.doubleQuoted, b], htags, by simp [innermost, hb], ?_⟩
        rw [LineState.stack_push, LineState.stack_push, hstack]
        simp [frames]
  · rintro ⟨tags, inner, htags, hinner, hstack⟩
    obtain ⟨below, hbelow⟩ := exists_stack_eq tags []
    have h : WithinHeredocs below := withinHeredocs_iff.mpr ⟨tags, htags, hbelow⟩
    -- nothing above the here-documents, one body, or a body within double quotes
    rw [innermost, List.cons_append, List.mem_cons, List.mem_append] at hinner
    rcases hinner with rfl | hinner | hinner
    · exact .heredocs (withinHeredocs_iff.mpr ⟨tags, htags, hstack⟩)
    · obtain ⟨b, hb, rfl⟩ := List.mem_map.mp hinner
      obtain rfl : s = below.push b := by
        refine LineState.stack_injective ?_
        rw [hstack, LineState.stack_push, hbelow]
        exact frames_concat tags [] b
      exact .body h hb
    · obtain ⟨b, hb, rfl⟩ := List.mem_map.mp hinner
      obtain rfl : s = (below.push .doubleQuoted).push b := by
        refine LineState.stack_injective ?_
        rw [hstack, LineState.stack_push, LineState.stack_push, hbelow]
        simp [frames]
      exact .quoted h hb

/-! ### Entering states -/

/-- The text that enters a state. -/
def opener : State → Text
  | .root | .heredoc => []
  | .singleQuoted => [singleQuote]
  | .doubleQuoted => [doubleQuote]
  | .ansiQuoted => ['$', singleQuote]
  | .localeQuoted => ['$', doubleQuote]
  | .substitution => ['$', '(']
  | .expansion => ['$', '\x7b']

lemma exists_opener_eq : ∀ b ∈ bodies,
    ∃ x rest, opener b = x :: rest ∧ heredocEnd.pattern.begins x = false := by
  intro b hb
  rw [bodies] at hb
  simp only [List.mem_cons, List.not_mem_nil, or_false] at hb
  rcases hb with rfl | rfl | rfl | rfl | rfl | rfl <;> exact ⟨_, _, rfl, by decide⟩

/-- At a place a rule enters a state without a tag, and takes the rest of the line. -/
def EntersAt (s : LineState) (b : State) (c : Cursor) : Prop :=
  ∃ r m, shell.firstMatch? s c = some (r, m) ∧ r.transition = .push b ∧ r.capturedTag m = none
    ∧ m.stop.rest = []

lemma entersAt_bodies : ∀ b ∈ bodies, EntersAt .root b (.start (opener b)) := by
  intro b hb
  rw [bodies] at hb
  simp only [List.mem_cons, List.not_mem_nil, or_false] at hb
  rcases hb with rfl | rfl | rfl | rfl | rfl | rfl <;> exact ⟨_, _, rfl, rfl, rfl, rfl⟩

lemma entersAt_expansions (s : LineState) :
    ∀ b ∈ expansions, EntersAt (s.push .doubleQuoted) b (.start (opener b)) := by
  intro b hb
  rw [expansions] at hb
  simp only [List.mem_cons, List.not_mem_nil, or_false] at hb
  rcases hb with rfl | rfl <;> exact ⟨_, _, rfl, rfl, rfl, rfl⟩

end Shell

namespace Language

variable {l : Language} {s : LineState}

lemma endAfter_concat (lines : List Text) (line : Text) (s : LineState) :
    l.endAfter (lines ++ [line]) s = (l.tokenizeLine line (l.endAfter lines s)).endState := by
  rw [endAfter, List.foldl_concat]
  rfl

/-- What lines leave is the state behind one of some lines. -/
lemma exists_endState_of_endAfter {lines : List Text} (h : l.endAfter lines .root = s) :
    ∃ lines, ∃ r ∈ l.tokenizeLines lines .root, r.endState = s := by
  rcases List.eq_nil_or_concat' lines with rfl | ⟨before, line, rfl⟩
  · exact ⟨[[]], _, List.mem_singleton_self _, h⟩
  · refine ⟨before ++ [line], l.tokenizeLine line (l.endAfter before .root), ?_, ?_⟩
    · rw [tokenizeLines_append]
      exact List.mem_append_right _ (List.mem_singleton_self _)
    · rw [← endAfter_concat, h]

namespace IsShell

open Shell

/-- A step leads from nested states to nested states. -/
lemma nested_step (hl : l.IsShell) (h : Nested s) (c : Cursor) (x : Char) (rest : Text) :
    Nested (l.step s c x rest).state := by
  cases hfound : l.firstMatch? s c with
  | none =>
      rw [step_of_none hfound]
      exact h
  | some found =>
      obtain ⟨r, m⟩ := found
      obtain ⟨hr, hm, -⟩ := firstMatch?_eq_some hfound
      rw [hl.rules_eq] at hr
      rw [step_of_match hfound]
      show Nested (stateAfter r m s)
      rcases move_of_mem_rules s.current r hr with ⟨hmove, htag⟩ | ⟨hs, hpush, htag, hgroups⟩
      · have hnone : r.capturedTag m = none := by
          rcases htag with htag | htag <;> rw [Rule.capturedTag, htag]
        rw [stateAfter_of_none hnone]
        exact h.apply hmove
      · obtain ⟨w, hw, hcaptured⟩ := exists_capturedTag hr hgroups htag hm
        have hafter : stateAfter r m s = s.pushTagged .heredoc w := by
          rw [stateAfter, hpush, hcaptured]
        rw [hafter]
        exact h.pushTagged hs hw

/-- A run leads from nested states to nested states. -/
lemma nested_tokenizeFrom (hl : l.IsShell) (h : Nested s) (fuel : ℕ) (c : Cursor) :
    Nested (l.tokenizeFrom fuel s c).endState := by
  induction fuel generalizing s c with
  | zero => exact h
  | succ fuel ih =>
      cases hrest : c.rest with
      | nil =>
          rw [tokenizeFrom_of_nil _ s hrest]
          exact h
      | cons x rest =>
          rw [tokenizeFrom_succ fuel s hrest]
          exact ih (hl.nested_step h c x rest) _

/-- All states on the way are nested. -/
lemma nested_visitsFrom (hl : l.IsShell) (h : Nested s) (fuel : ℕ) (c : Cursor) :
    ∀ v ∈ l.visitsFrom fuel s c, Nested v.state := by
  induction fuel generalizing s c with
  | zero => exact fun v hv => absurd hv List.not_mem_nil
  | succ fuel ih =>
      intro v hv
      cases hrest : c.rest with
      | nil =>
          rw [visitsFrom_of_nil _ s hrest] at hv
          cases hv
      | cons x rest =>
          rw [visitsFrom_succ fuel s hrest] at hv
          rcases List.mem_cons.mp hv with rfl | hv
          · exact h
          · exact ih (hl.nested_step h c x rest) _ v hv

lemma nested_endAfter (hl : l.IsShell) (h : Nested s) (lines : List Text) :
    Nested (l.endAfter lines s) := by
  induction lines generalizing s with
  | nil => exact h
  | cons line lines ih => exact ih (hl.nested_tokenizeFrom h _ _)

lemma nested_tokenizeLines (hl : l.IsShell) (h : Nested s) (lines : List Text) :
    ∀ r ∈ l.tokenizeLines lines s, Nested r.endState := by
  induction lines generalizing s with
  | nil => exact fun r hr => absurd hr List.not_mem_nil
  | cons line lines ih =>
      have hline : Nested (l.tokenizeLine line s).endState := hl.nested_tokenizeFrom h _ _
      intro r hr
      rcases List.mem_cons.mp hr with rfl | hr
      · exact hline
      · exact ih hline r hr

/-- All shell languages find the same matches. -/
lemma firstMatch?_eq_shell (hl : l.IsShell) (s : LineState) (c : Cursor) :
    l.firstMatch? s c = shell.firstMatch? s c := by
  rw [firstMatch?, firstMatch?, hl.rules_eq]
  rfl

/-- A line that is one match leaves the state behind that match. -/
lemma endState_of_firstMatch {line : Text} {r : Rule} {m : RuleMatch}
    (hfound : l.firstMatch? s (.start line) = some (r, m)) (hstop : m.stop.rest = []) :
    (l.tokenizeLine line s).endState = stateAfter r m s := by
  cases line with
  | nil =>
      have happlies := (Rule.match?_eq_some_iff.mp (firstMatch?_eq_some hfound).2.1).1
      cases happlies
  | cons x rest =>
      have hrest : (Cursor.start (x :: rest)).rest = x :: rest := rfl
      rw [tokenizeLine, List.length_cons, tokenizeFrom_succ _ s hrest, step_of_match hfound,
        tokenizeFrom_of_nil _ _ hstop]

/-- Within here-documents, what no end of one can begin with is found as outside of them. -/
lemma firstMatch?_withinHeredocs (hl : l.IsShell) (h : WithinHeredocs s) {c : Cursor} {x : Char}
    {rest : Text} (hrest : c.rest = x :: rest) (hx : heredocEnd.pattern.begins x = false) :
    l.firstMatch? s c = shell.firstMatch? .root c := by
  have hends : ¬EndsAt s.tag c := by
    rintro ⟨m, hm, -⟩
    rw [match?_eq_none_of_begins heredocEnd_mem hrest hx] at hm
    cases hm
  rcases h.current with rfl | hcurrent
  · exact hl.firstMatch?_eq_shell _ _
  · rw [hl.firstMatch?_heredoc hcurrent hends, hl.firstMatch?_eq_shell]

/-- A line that enters a state leaves it on the stack. -/
lemma endState_of_entersAt {b : State} {t : LineState} {line : Text}
    (hsame : l.firstMatch? s (.start line) = shell.firstMatch? t (.start line))
    (h : EntersAt t b (.start line)) : (l.tokenizeLine line s).endState = s.push b := by
  obtain ⟨r, m, hfound, hpush, hnone, hstop⟩ := h
  rw [endState_of_firstMatch (hsame.trans hfound) hstop, stateAfter_of_none hnone, hpush]
  rfl

lemma endState_opener (hl : l.IsShell) (h : WithinHeredocs s) {b : State} (hb : b ∈ bodies) :
    (l.tokenizeLine (opener b) s).endState = s.push b := by
  obtain ⟨x, rest, hopener, hx⟩ := exists_opener_eq b hb
  exact endState_of_entersAt (hl.firstMatch?_withinHeredocs h hopener hx) (entersAt_bodies b hb)

lemma exists_endAfter_withinHeredocs (hl : l.IsShell) (h : WithinHeredocs s) :
    ∃ lines, l.endAfter lines .root = s := by
  induction h with
  | root => exact ⟨[], rfl⟩
  | @heredoc s w h hw ih =>
      obtain ⟨lines, hlines⟩ := ih
      obtain ⟨m, hfound, htag, hstop⟩ := firstMatch?_openingLine hw
      have hsame := hl.firstMatch?_withinHeredocs h (c := .start (openingLine w)) rfl (by decide)
      have hline : (l.tokenizeLine (openingLine w) s).endState = s.pushTagged .heredoc w := by
        rw [endState_of_firstMatch (hsame.trans hfound) hstop, stateAfter, htag]
        rfl
      refine ⟨lines ++ [openingLine w], ?_⟩
      rw [endAfter_concat, hlines, hline]

/-- Nested states are left by some lines. -/
lemma exists_endAfter (hl : l.IsShell) (h : Nested s) : ∃ lines, l.endAfter lines .root = s := by
  cases h with
  | heredocs h => exact hl.exists_endAfter_withinHeredocs h
  | @body s b h hb =>
      obtain ⟨lines, hlines⟩ := hl.exists_endAfter_withinHeredocs h
      have hline := hl.endState_opener h hb
      exact ⟨lines ++ [opener b], by rw [endAfter_concat, hlines, hline]⟩
  | @quoted s b h hb =>
      obtain ⟨lines, hlines⟩ := hl.exists_endAfter_withinHeredocs h
      have hquote := hl.endState_opener h (b := .doubleQuoted) (by decide)
      have hline : (l.tokenizeLine (opener b) (s.push .doubleQuoted)).endState
          = (s.push .doubleQuoted).push b :=
        endState_of_entersAt (hl.firstMatch?_eq_shell _ _) (entersAt_expansions s b hb)
      refine ⟨lines ++ [opener .doubleQuoted] ++ [opener b], ?_⟩
      rw [endAfter_concat, endAfter_concat, hlines, hquote, hline]

/-- **The states that lines of shell text leave behind are those of a certain shape**: above the
base stand here-documents with their tags, and above these nothing, a quote, an expansion, or an
expansion within double quotes. All states on the way have that shape too. So the root does not
come again above the base, here-documents have a tag, and nothing stands above a body other than
that of double quotes. -/
theorem reachable_iff_hasShape (hl : l.IsShell) (s : LineState) :
    ((∃ lines, ∃ r ∈ l.tokenizeLines lines .root, r.endState = s) ↔ HasShape s)
      ∧ (∀ lines line, ∀ v ∈ l.visits line (l.endAfter lines .root), HasShape v.state)
      ∧ (HasShape s → State.root ∉ s.stack.tail.map Frame.state
        ∧ (∀ f ∈ s.stack, f.state = .heredoc → ∃ w, f.tag = some w ∧ IsTag w)
        ∧ ∀ f ∈ s.stack.dropLast, f.state ∈ [State.root, .heredoc, .doubleQuoted]) := by
  have hroot : Nested .root := .heredocs .root
  refine ⟨⟨?_, ?_⟩, ?_, ?_⟩
  · rintro ⟨lines, r, hr, rfl⟩
    exact nested_iff_hasShape.mp (hl.nested_tokenizeLines hroot lines r hr)
  · intro h
    obtain ⟨lines, hlines⟩ := hl.exists_endAfter (nested_iff_hasShape.mpr h)
    exact exists_endState_of_endAfter hlines
  · intro lines line v hv
    have hstart := hl.nested_endAfter hroot lines
    exact nested_iff_hasShape.mp (hl.nested_visitsFrom hstart _ _ v hv)
  · exact fun h => ⟨h.root_notMem, h.exists_tag, h.mem_dropLast⟩

/-- Two here-documents, double quotes and an expansion within them can be open at once, but no
expansion within single quotes. -/
theorem reachable_iff_hasShape_nestedHeredocs :
    shell.IsShell
      ∧ (∃ lines, ∃ r ∈ shell.tokenizeLines lines .root, r.endState =
        ⟨[⟨.expansion, none⟩, ⟨.doubleQuoted, none⟩, ⟨.heredoc, some ['B']⟩,
          ⟨.heredoc, some ['A']⟩]⟩)
      ∧ ¬∃ lines, ∃ r ∈ shell.tokenizeLines lines .root, r.endState =
        ⟨[⟨.expansion, none⟩, ⟨.singleQuoted, none⟩]⟩ := by
  have hshell : shell.IsShell := Or.inl rfl
  have htag : ∀ x, IsTagChar x → IsTag [x] :=
    fun x hx => ⟨List.cons_ne_nil _ _, List.forall_mem_singleton.mpr hx⟩
  have hA : IsTag ['A'] := htag 'A' (by simp [IsTagChar])
  have hB : IsTag ['B'] := htag 'B' (by simp [IsTagChar])
  refine ⟨hshell, ?_, fun h => ?_⟩
  · exact (reachable_iff_hasShape hshell _).1.mpr
      ⟨[['A'], ['B']], [.doubleQuoted, .expansion], by simp [hA, hB], by decide, rfl⟩
  · obtain ⟨hreach, -, hshape⟩ := reachable_iff_hasShape hshell
      ⟨[⟨.expansion, none⟩, ⟨.singleQuoted, none⟩]⟩
    have hbelow := (hshape (hreach.mp h)).2.2 ⟨.singleQuoted, none⟩ (by decide)
    revert hbelow
    decide

end IsShell

end Language

end ShellSyntax
