import Mathlib.Data.List.Forall2
import Mathlib.Tactic.Common
import ShellSyntax.Proofs.Pattern.LetterCase
import ShellSyntax.Proofs.Shell.Heredoc

/-!
The shell language looks at no letter case.

A line is compared with the same line in small letters, layer by layer.

* `Shell.match?_asciiLower`: a rule of the table matches the same characters of both;
* `Language.IsShell.tokensOf_asciiLower`: so its tokens are the same, words included;
* `Language.IsShell.firstMatch?_asciiLower`: the rules that are found are the same, save where the
  tag of a here-document is looked at, which keeps its letter case;
* `Language.IsShell.tokenizeFrom_asciiLower`: so from step to step both runs stay together, and
  leave the same states behind but for the letter case of their tags;
* `Language.IsShell.tokenizeLine_sameLetters`: so do the runs over two lines that differ in letter
  case only, as both are compared with the same line in small letters.
-/

namespace ShellSyntax

/-- A match of a rule in the text with small letters. -/
def RuleMatch.asciiLower (m : RuleMatch) : RuleMatch :=
  ⟨m.start.asciiLower, m.stop.asciiLower, m.groups.map (Option.map Capture.asciiLower)⟩

lemma RuleMatch.text_asciiLower (m : RuleMatch) : m.asciiLower.text = m.text.asciiLower :=
  Cursor.textTo_asciiLower m.start m.stop

/-! ### States -/

/-- The frame with its tag in small letters. -/
def Frame.asciiLower (f : Frame) : Frame := { f with tag := f.tag.map Text.asciiLower }

namespace LineState

/-- The state with its tags in small letters. -/
def asciiLower (s : LineState) : LineState := ⟨s.entered.map Frame.asciiLower⟩

/-- Two states are the same but for the case of letters of ASCII in their tags. -/
def SameLetters (s t : LineState) : Prop :=
  List.Forall₂ (fun f g : Frame => f.state = g.state ∧ Option.Rel Text.SameLetters f.tag g.tag)
    s.stack t.stack

lemma top_asciiLower (s : LineState) : s.asciiLower.top = s.top.asciiLower := by
  cases hs : s.entered <;> simp only [top, asciiLower, hs] <;> rfl

lemma current_asciiLower (s : LineState) : s.asciiLower.current = s.current := by
  rw [current, top_asciiLower]
  rfl

lemma stack_asciiLower (s : LineState) : s.asciiLower.stack = s.stack.map Frame.asciiLower := by
  rw [stack, asciiLower, ← List.map_reverse]
  rfl

lemma SameLetters.of_asciiLower {s t : LineState} (h : s.asciiLower = t.asciiLower) :
    SameLetters s t := by
  have hframe : ∀ f g : Frame, f.asciiLower = g.asciiLower →
      f.state = g.state ∧ Option.Rel Text.SameLetters f.tag g.tag := by
    rintro ⟨state, tag⟩ ⟨state', tag'⟩ hfg
    obtain ⟨rfl, htag⟩ := Frame.mk.inj hfg
    refine ⟨rfl, ?_⟩
    cases tag with
    | none =>
        cases tag' with
        | none => exact .none
        | some w' => cases htag
    | some w =>
        cases tag' with
        | none => cases htag
        | some w' => exact .some (Option.some.inj htag)
  have hstack : s.stack.map Frame.asciiLower = t.stack.map Frame.asciiLower := by
    rw [← stack_asciiLower, ← stack_asciiLower, h]
  rw [← List.forall₂_eq_eq_eq, List.forall₂_map_left_iff, List.forall₂_map_right_iff] at hstack
  exact hstack.imp hframe

end LineState

/-! ### Matches of rules -/

namespace Shell

lemma caseless_rules (s : State) : ∀ r ∈ rules s, r.pattern.caseless = true := by
  cases s <;> decide

/-- A rule of the table matches the same characters in the text with small letters. -/
lemma match?_asciiLower {s : State} {r : Rule} (hr : r ∈ rules s) (c : Cursor) :
    r.match? c.asciiLower = (r.match? c).map RuleMatch.asciiLower := by
  have happlies : r.applies c.asciiLower = r.applies c := by
    rw [Rule.applies, Rule.applies, Cursor.asciiLower, Text.asciiLower, List.isEmpty_map]
  -- the preferred way is the first one, and the ways are the same one by one
  have hfind : r.pattern.find? c.asciiLower = (r.pattern.find? c).map PatternMatch.asciiLower := by
    rw [Pattern.find?_eq_head? (steady_rules s r hr) (anchored_rules s r hr),
      Pattern.find?_eq_head? (steady_rules s r hr) (anchored_rules s r hr), ← List.head?_map,
      ← Pattern.ways_asciiLower (caseless_rules s r hr)]
    rfl
  have hgroups : ∀ cs : Captures, r.groupsOf cs.asciiLower
      = (r.groupsOf cs).map (Option.map Capture.asciiLower) := by
    intro cs
    rw [Rule.groupsOf, Rule.groupsOf]
    split
    · rw [List.map_map]
      exact List.map_congr_left fun i _ => cs.get?_asciiLower i
    · rfl
  rw [Rule.match?, Rule.match?, happlies, hfind]
  cases r.applies c with
  | false => rfl
  | true =>
      cases r.pattern.find? c with
      | none => rfl
      | some found =>
          show (if found.stop.offset = c.offset then none
            else some (⟨c.asciiLower, found.stop.asciiLower,
              r.groupsOf found.captures.asciiLower⟩ : RuleMatch))
            = (if found.stop.offset = c.offset then none
              else some (⟨c, found.stop, r.groupsOf found.captures⟩ : RuleMatch)).map
                RuleMatch.asciiLower
          rw [hgroups]
          split <;> rfl

/-- Only the end of a here-document looks at the tag. -/
lemma eq_heredocEnd (s : State) :
    ∀ r ∈ rules s, r.tag = .close → r = heredocEnd ∧ s = .heredoc := by
  cases s <;> decide

end Shell

/-! ### Steps -/

namespace Language

lemma groupTokens_asciiLower (stop offset : ℕ) (groups : List (Option Capture × TokenKind)) :
    groupTokens stop offset (groups.map (Prod.map (Option.map Capture.asciiLower) id))
      = groupTokens stop offset groups := by
  induction groups generalizing offset with
  | nil => rfl
  | cons g groups ih =>
      obtain ⟨_ | g, kind⟩ := g
      · exact ih offset
      · have hspan : g.asciiLower.span = g.span := rfl
        simp only [List.map_cons, Prod.map_apply, Option.map_some, groupTokens, hspan, ih, id]

lemma capturedTag_asciiLower (r : Rule) (m : RuleMatch) :
    r.capturedTag m.asciiLower = (r.capturedTag m).map Text.asciiLower := by
  rw [Rule.capturedTag, Rule.capturedTag]
  split
  · rename_i i htag
    rw [RuleMatch.asciiLower, List.getElem?_map]
    rcases m.groups[i]? with _ | _ | g
    · rfl
    · rfl
    · exact congrArg some g.text_asciiLower
  · rfl

lemma stateAfter_asciiLower (r : Rule) (m : RuleMatch) (s : LineState) :
    stateAfter r m.asciiLower s.asciiLower = (stateAfter r m s).asciiLower := by
  have hpop : s.asciiLower.pop = s.pop.asciiLower :=
    congrArg LineState.mk List.map_tail.symm
  rw [stateAfter, stateAfter, capturedTag_asciiLower]
  cases r.transition with
  | stay | popAll => rfl
  | pop => exact hpop
  | push state => cases r.capturedTag m <;> rfl

namespace IsShell

variable {l : Language} {s : LineState} {c : Cursor}

/-- The tokens of a match do not depend on the case of letters. -/
lemma tokensOf_asciiLower (hl : l.IsShell) (r : Rule) (m : RuleMatch) :
    l.tokensOf r m.asciiLower = l.tokensOf r m := by
  have hspan : m.asciiLower.span = m.span := rfl
  cases hclassify : r.classify with
  | fixed kind => simp only [tokensOf, hclassify, hspan]
  | identifier =>
      simp only [tokensOf, hclassify, hspan, identifierKind, RuleMatch.text_asciiLower,
        Text.lowercase_asciiLower]
  | bracket =>
      have hbrackets : l.brackets = shell.brackets := by
        rcases hl with rfl | ⟨s, rfl⟩ <;> rfl
      have hkind : ∀ x : Char, l.bracketKind x.toLower = l.bracketKind x := by
        intro x
        rw [bracketKind, bracketKind, hbrackets]
        exact apply_toLower (f := shell.bracketKind) (by decide) x
      simp only [tokensOf, hclassify, hspan, RuleMatch.text_asciiLower]
      cases m.text with
      | nil => rfl
      | cons x t => exact congrArg (fun kind => [Token.ofSpan m.span kind]) (hkind x)
  | groups kinds =>
      have hzip : m.asciiLower.groups.zip kinds
          = (m.groups.zip kinds).map (Prod.map (Option.map Capture.asciiLower) id) :=
        List.zip_map_left
      simp only [tokensOf, hclassify]
      rw [hzip]
      exact groupTokens_asciiLower _ _ _

/-- The rule that is found does not depend on the case of letters, unless a line begins in a
here-document with a tag. -/
lemma firstMatch?_asciiLower (hl : l.IsShell)
    (hs : c.offset = 0 → s.current = .heredoc → s.tag = none) :
    l.firstMatch? s.asciiLower c.asciiLower
      = (l.firstMatch? s c).map (Prod.map id RuleMatch.asciiLower) := by
  rw [firstMatch?, firstMatch?, LineState.current_asciiLower, hl.rules_eq, List.map_findSome?,
    ← List.head?_filterMap, ← List.head?_filterMap]
  refine congrArg List.head? (List.filterMap_congr fun r hr => ?_)
  simp only [Function.comp_apply, Shell.match?_asciiLower hr]
  by_cases htag : r.tag = .close
  · -- the end of a here-document needs a tag, and the start of a line
    obtain ⟨rfl, hcurrent⟩ := Shell.eq_heredocEnd _ r hr htag
    cases hm : Shell.heredocEnd.match? c with
    | none => rfl
    | some m =>
        have hnone := hs (Shell.of_match?_heredocEnd hm).1 hcurrent
        have hnone' : s.asciiLower.tag = none := by
          rw [LineState.tag, LineState.top_asciiLower]
          exact congrArg (Option.map Text.asciiLower) hnone
        rw [hnone, hnone']
        rfl
  · simp only [Rule.accepts_of_ne htag]
    cases r.match? c <;> rfl

/-- A step in the line with small letters finds the same tokens, and comes to the same place and
state but for the letter case of tags. -/
lemma step_asciiLower (hl : l.IsShell)
    (hs : c.offset = 0 → s.current = .heredoc → s.tag = none) (x : Char) (rest : Text) :
    l.step s.asciiLower c.asciiLower x.toLower rest.asciiLower
      = ⟨(l.step s c x rest).tokens, (l.step s c x rest).state.asciiLower,
          (l.step s c x rest).next.asciiLower⟩ := by
  have hsame := hl.firstMatch?_asciiLower hs
  cases hfound : l.firstMatch? s c with
  | none =>
      rw [hfound] at hsame
      rw [step_of_none hsame, step_of_none hfound, ← Cursor.asciiLower_past]
      rfl
  | some found =>
      obtain ⟨r, m⟩ := found
      rw [hfound] at hsame
      rw [step_of_match hsame, step_of_match hfound, ← hl.tokensOf_asciiLower r m,
        ← stateAfter_asciiLower]
      rfl

/-! ### Lines -/

/-- From step to step the run over the line with small letters stays with the run over the line. -/
lemma tokenizeFrom_asciiLower (hl : l.IsShell) (fuel : ℕ)
    (hs : c.offset = 0 → s.current = .heredoc → s.tag = none) :
    l.tokenizeFrom fuel s.asciiLower c.asciiLower
      = ⟨(l.tokenizeFrom fuel s c).tokens, (l.tokenizeFrom fuel s c).endState.asciiLower⟩ := by
  induction fuel generalizing s c with
  | zero => rfl
  | succ fuel ih =>
      cases hrest : c.rest with
      | nil =>
          have hnil : c.asciiLower.rest = [] := congrArg Text.asciiLower hrest
          rw [tokenizeFrom_of_nil _ _ hrest, tokenizeFrom_of_nil _ _ hnil]
      | cons x rest =>
          -- behind the first step the line does not begin any more
          have hlt := lt_step (l := l) s c x rest
          have hlater := ih (s := (l.step s c x rest).state) (c := (l.step s c x rest).next)
            fun hzero => absurd hzero (by omega)
          rw [tokenizeFrom_succ _ _ hrest, tokenizeFrom_succ _ _ (Cursor.rest_asciiLower hrest),
            hl.step_asciiLower hs, hlater]

/-- **The shell language looks at no letter case.** Two lines that differ in the case of letters of
ASCII only have the same tokens, and leave the same states behind but for the case of letters in
tags, unless they begin in a here-document with a tag, whose end does look at letter case. -/
theorem tokenizeLine_sameLetters (hl : l.IsShell) {line line' : Text}
    (h : line.SameLetters line') {start : LineState}
    (hstart : start.current = .heredoc → start.tag = none) :
    (l.tokenizeLine line start).tokens = (l.tokenizeLine line' start).tokens
      ∧ (l.tokenizeLine line start).endState.SameLetters (l.tokenizeLine line' start).endState := by
  have hsmall : ∀ t : Text, l.tokenizeLine t.asciiLower start.asciiLower
      = ⟨(l.tokenizeLine t start).tokens, (l.tokenizeLine t start).endState.asciiLower⟩ := by
    intro t
    rw [tokenizeLine, t.length_asciiLower]
    exact hl.tokenizeFrom_asciiLower (c := .start t) t.length fun _ => hstart
  have hsame := (hsmall line).symm.trans ((congrArg (l.tokenizeLine · _) h).trans (hsmall line'))
  obtain ⟨htokens, hend⟩ := LineTokens.mk.inj hsame
  exact ⟨htokens, .of_asciiLower hend⟩

/-- The tag of a here-document keeps its letter case, and all else loses it. -/
theorem tokenizeLine_sameLetters_opening :
    let line : Text := "ECHO $Home <<Eof".toList
    let line' : Text := "echo $HOME <<eof".toList
    (shell.IsShell ∧ line.SameLetters line'
        ∧ (LineState.root.current = .heredoc → LineState.root.tag = none))
      ∧ (shell.tokenizeLine line .root).tokens = (shell.tokenizeLine line' .root).tokens
      ∧ (shell.tokenizeLine line .root).endState.SameLetters
        (shell.tokenizeLine line' .root).endState := by
  have hshell : shell.IsShell := Or.inl rfl
  have hsame : Text.SameLetters "ECHO $Home <<Eof".toList "echo $HOME <<eof".toList := by decide
  exact ⟨⟨hshell, hsame, fun _ => rfl⟩, tokenizeLine_sameLetters hshell hsame fun _ => rfl⟩

end IsShell

end Language

end ShellSyntax
