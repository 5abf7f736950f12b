import Mathlib.Data.List.Basic
import Mathlib.Data.List.TakeWhile
import Mathlib.Tactic.Common
import ShellSyntax.Proofs.Shell.Rules

/-!
The lines of a here-document.

* `Shell.IsTag`: the words that can be the tag of a here-document;
* `Shell.heredocEnd`: the rule for the line that ends a here-document, which goes before those of
  the root. `Shell.match?_heredocEnd`: it matches a line that is such a word, apart from blanks
  around it, and takes all of it;
* `LineState.Above`: one state is another, put above a here-document instead of the root.
  `Language.IsShell.step_above`, `Language.IsShell.tokenizeFrom_above`: from two such states the
  tokenizer gives the same tokens, and comes to two such states again, unless a quote that closes
  leaves all states;
* `Language.IsShell.tokenizeLine_heredoc`: a line of a here-document is its end if it is its tag,
  and else it looks like a line outside of it.
-/

namespace ShellSyntax

/-! ### Blanks around a text -/

/-- A text is what is left of it without the blanks at its ends, and blanks around that. -/
lemma Text.exists_blanks (t : Text) : ∃ before after : Text, t = before ++ (t.trim ++ after)
    ∧ (∀ x ∈ before, isBlank x = true) ∧ ∀ x ∈ after, isBlank x = true := by
  have hstart : t = t.takeWhile isBlank ++ t.trimStart := List.takeWhile_append_dropWhile.symm
  have hend : t.trimStart = t.trim ++ (t.trimStart.reverse.takeWhile isBlank).reverse := by
    have hreverse := congrArg List.reverse
      (List.takeWhile_append_dropWhile (p := isBlank) (l := t.trimStart.reverse)).symm
    rwa [List.reverse_append, List.reverse_reverse] at hreverse
  refine ⟨_, _, by rw [← hend]; exact hstart, ?_, ?_⟩
  · exact fun x hx => List.mem_takeWhile_imp hx
  · exact fun x hx => List.mem_takeWhile_imp (List.mem_reverse.mp hx)

namespace Shell

/-! ### Tags -/

/-- The characters of tags: letters and digits of ASCII, the underscore and the hyphen, and the two
characters outside ASCII that are case variants of letters. -/
def IsTagChar (x : Char) : Prop :=
  ('A' ≤ x ∧ x ≤ 'Z') ∨ ('a' ≤ x ∧ x ≤ 'z') ∨ ('0' ≤ x ∧ x ≤ '9') ∨ x = '_' ∨ x = '-'
    ∨ x = '\u017f' ∨ x = '\u212a'

/-- The words that can be the tag of a here-document. -/
structure IsTag (w : Text) : Prop where
  nonempty : w ≠ []
  chars : ∀ x ∈ w, IsTagChar x

lemma mem_tagChar (x : Char) : tagChar.mem x = true ↔ IsTagChar x := by
  have hranges : tagChar = .of [('-', '-'), ('0', '9'), ('A', 'Z'), ('_', '_'), ('a', 'z'),
      ('\u017f', '\u017f'), ('\u212a', '\u212a')] := by decide
  have heq : ∀ d : Char, x = d ↔ x.toNat = d.toNat := fun d => Char.toNat_inj.symm
  have hle : ∀ c d : Char, c ≤ d ↔ c.toNat ≤ d.toNat := fun _ _ => Iff.rfl
  rw [hranges, IsTagChar, heq, heq, heq, heq]
  simp only [CharSet.mem, CharSet.of, Unicode.Ranges.contains, Unicode.Ranges.containsCode,
    List.map_cons, List.map_nil, List.any_cons, List.any_nil, Bool.or_false, Bool.or_eq_true,
    decide_eq_true_eq, hle, Char.reduceToNat]
  omega

/-! ### The end of a here-document -/

open Pattern in
/-- The rule for the line that ends a here-document. -/
def heredocEnd : Rule :=
  (fixed "heredoc_end" .heredoc (sequence
    [star (one .blanks), plus (one tagChar), star (one .blanks), atEnd])).atLineStart
      |>.closingTag |>.popping

/-- The rules in the lines of a here-document are its end, and those outside of quotes. -/
lemma rules_heredoc : rules .heredoc = heredocEnd :: rootRules := rfl

lemma heredocEnd_mem : heredocEnd ∈ rules .heredoc := List.mem_cons_self

/-- Each way through its pattern leads to the end of the line. -/
lemma stop_of_way {c : Cursor} {n : PatternMatch}
    (h : n ∈ heredocEnd.pattern.ways c.offset ⟨c, .none⟩) : n.stop = c.finish := by
  have hreach : c.Reaches n.stop := Pattern.reaches_ways h
  obtain ⟨n₀, -, h⟩ := List.mem_flatMap.mp h
  obtain ⟨n₁, -, h⟩ := List.mem_flatMap.mp h
  obtain ⟨n₂, -, h⟩ := List.mem_flatMap.mp h
  obtain ⟨n₃, -, h⟩ := List.mem_flatMap.mp h
  obtain ⟨hend, rfl⟩ := Pattern.mem_ways_atEnd.mp h
  exact hreach.eq_finish hend

/-- The end of a here-document is at the start of a line, and takes all of it. -/
lemma of_match?_heredocEnd {c : Cursor} {m : RuleMatch} (h : heredocEnd.match? c = some m) :
    c.offset = 0 ∧ m = ⟨c, c.finish, []⟩ := by
  obtain ⟨happlies, -⟩ := Rule.match?_eq_some_iff.mp h
  obtain ⟨n, hn, rfl⟩ := mem_ways_of_match heredocEnd_mem h
  have hoffset : c.offset = 0 := by
    simpa [heredocEnd, Rule.applies, Rule.atLineStart, Rule.closingTag, Rule.popping] using
      (Bool.and_eq_true_iff.mp happlies).2
  refine ⟨hoffset, ?_⟩
  rw [← stop_of_way hn]
  rfl

open Pattern in
/-- There is a way to the end of a line that is a word of tag characters, apart from blanks around
it. -/
lemma exists_way_heredocEnd {line : Text} (h : IsTag line.trim) :
    ∃ n, n ∈ heredocEnd.pattern.ways 0 ⟨.start line, .none⟩ := by
  obtain ⟨before, after, hline, hbefore, hafter⟩ := line.exists_blanks
  have hword : ∀ x ∈ line.trim, tagChar.mem x = true :=
    fun x hx => (mem_tagChar x).mpr (h.chars x hx)
  let behindBlanks : PatternMatch := ⟨⟨0 + before.size, line.trim ++ after⟩, .none⟩
  let behindWord : PatternMatch := ⟨⟨0 + before.size + line.trim.size, after⟩, .none⟩
  let atEnd : PatternMatch := ⟨⟨0 + before.size + line.trim.size + after.size, []⟩, .none⟩
  have hblanks : behindBlanks ∈ ways 0 (star (one .blanks)) ⟨.start line, .none⟩ :=
    mem_ways_star_one.mpr ⟨before, _, hline, hbefore, rfl⟩
  have htag : behindWord ∈ ways 0 (plus (one tagChar)) behindBlanks :=
    mem_ways_plus_one.mpr ⟨line.trim, after, h.nonempty, rfl, hword, rfl⟩
  have hrest : atEnd ∈ ways 0 (star (one .blanks)) behindWord :=
    mem_ways_star_one.mpr ⟨after, [], (List.append_nil _).symm, hafter, rfl⟩
  exact ⟨atEnd, mem_ways_cat (mem_ways_atStart.mpr ⟨rfl, rfl⟩) <| mem_ways_cat hblanks <|
    mem_ways_cat htag <| mem_ways_cat hrest <| mem_ways_atEnd.mpr ⟨rfl, rfl⟩⟩

/-- A line that is a word of tag characters, apart from blanks around it, is matched by the end of a
here-document. -/
lemma match?_heredocEnd {line : Text} (h : IsTag line.trim) :
    heredocEnd.match? (.start line) = some ⟨.start line, (Cursor.start line).finish, []⟩ := by
  obtain ⟨n, hn⟩ := exists_way_heredocEnd h
  have hfind : heredocEnd.pattern.find? (.start line)
      = (heredocEnd.pattern.ways 0 ⟨.start line, .none⟩).head? :=
    Pattern.find?_eq_head? (steady_rules _ _ heredocEnd_mem) (anchored_rules _ _ heredocEnd_mem) _
  obtain ⟨found, hfound⟩ := Option.isSome_iff_exists.mp
    (List.isSome_head?.mpr (List.ne_nil_of_mem hn))
  have hstop : found.stop = (Cursor.start line).finish :=
    stop_of_way (List.mem_of_head? hfound)
  have hne : line ≠ [] := by
    rintro rfl
    exact h.nonempty rfl
  have happlies : heredocEnd.applies (.start line) = true := by
    cases line with
    | nil => exact absurd rfl hne
    | cons x line => rfl
  refine Rule.match?_eq_some_iff.mpr ⟨happlies, found, hfind.trans hfound, ?_, ?_⟩
  · rw [hstop]
    show 0 + line.size ≠ 0
    intro hsize
    exact hne (Text.eq_nil_of_size (by omega))
  · rw [hstop]
    rfl

/-- The end of a here-document with a given tag is at a place. -/
def EndsAt (tag : Option Text) (c : Cursor) : Prop :=
  ∃ m, heredocEnd.match? c = some m ∧ heredocEnd.accepts m tag = true

/-- It is not behind the start of a line. -/
lemma not_endsAt {tag : Option Text} {c : Cursor} (h : c.offset ≠ 0) : ¬EndsAt tag c := by
  rintro ⟨m, hm, -⟩
  exact h (of_match?_heredocEnd hm).1

/-- A line is the end of a here-document if it is the tag, apart from blanks around it. -/
lemma endsAt_start {w : Text} (hw : IsTag w) {line : Text} :
    EndsAt (some w) (.start line) ↔ line.trim = w := by
  have htext : (Cursor.start line).textTo (Cursor.start line).finish = line :=
    Cursor.textTo_eq (List.append_nil _).symm rfl
  have haccepts : heredocEnd.accepts ⟨.start line, (Cursor.start line).finish, []⟩ (some w) = true
      ↔ w = line.trim := by
    show decide (some w = some ((Cursor.start line).textTo (Cursor.start line).finish).trim) = true
      ↔ _
    rw [htext, decide_eq_true_eq, Option.some_inj]
  refine ⟨?_, ?_⟩
  · rintro ⟨m, hm, haccept⟩
    rw [(of_match?_heredocEnd hm).2] at haccept
    exact (haccepts.mp haccept).symm
  · rintro rfl
    exact ⟨_, match?_heredocEnd hw, haccepts.mpr rfl⟩

/-! ### The rules outside of quotes -/

/-- Outside of quotes no rule looks at the tag, and none leaves a state. -/
lemma rootRules_stay : ∀ r ∈ rootRules, r.tag ≠ .close ∧ r.transition ≠ .pop
    ∧ r.transition ≠ .popAll := by
  decide

end Shell

/-! ### Two states -/

namespace LineState

/-- The state `a` is `b`, put above the states of `s` instead of the root. -/
def Above (s a b : LineState) : Prop := a.entered = b.entered ++ s.entered

namespace Above

variable {s a b : LineState}

lemma root (s : LineState) : Above s s .root := rfl

lemma top (h : Above s a b) (hne : b.entered ≠ []) : a.top = b.top := by
  obtain ⟨f, fs, hb⟩ := List.exists_cons_of_ne_nil hne
  rw [LineState.top, LineState.top, h, hb]
  rfl

/-- After a rule that does not leave all states, nor the root, one state is still above the other.
-/
lemma stateAfter (h : Above s a b) {r : Rule} (hpop : b.entered = [] → r.transition ≠ .pop)
    (hall : r.transition ≠ .popAll) (m : RuleMatch) :
    Above s (Language.stateAfter r m a) (Language.stateAfter r m b) := by
  cases htransition : r.transition with
  | popAll => exact absurd htransition hall
  | stay =>
      simp only [Language.stateAfter, htransition]
      exact h
  | pop =>
      have hne : b.entered ≠ [] := fun hb => hpop hb htransition
      simp only [Language.stateAfter, htransition]
      show a.entered.tail = b.entered.tail ++ s.entered
      rw [h, List.tail_append_of_ne_nil hne]
  | push state =>
      have hcons : ∀ f : Frame, f :: a.entered = f :: b.entered ++ s.entered :=
        fun f => congrArg (f :: ·) h
      cases htag : r.capturedTag m with
      | none =>
          simp only [Language.stateAfter, htransition, htag]
          exact hcons ⟨state, .none⟩
      | some tag =>
          simp only [Language.stateAfter, htransition, htag]
          exact hcons ⟨state, some tag⟩

end Above

end LineState

namespace Language

variable {l : Language} {s a b : LineState} {c : Cursor}

/-- What is found depends on the innermost state and its tag only. -/
lemma firstMatch?_congr (h : a.top = b.top) : l.firstMatch? a c = l.firstMatch? b c := by
  rw [firstMatch?, firstMatch?, LineState.current, LineState.tag, h]
  rfl

/-- All states are left where a visit is paid. -/
def LeavesAll (l : Language) (v : Visit) : Prop :=
  ∃ r m, l.firstMatch? v.state v.place = some (r, m) ∧ r.transition = .popAll

namespace IsShell

/-- In a here-document, what is found is what is found outside of it, but for its end. -/
lemma firstMatch?_heredoc (hl : l.IsShell) (hs : s.current = .heredoc)
    (hends : ¬Shell.EndsAt s.tag c) : l.firstMatch? s c = l.firstMatch? .root c := by
  have hroot : ∀ tag, ∀ r ∈ Shell.rootRules,
      ((r.match? c).filter (r.accepts · tag)).map (r, ·)
        = ((r.match? c).filter (r.accepts · none)).map (r, ·) := by
    intro tag r hr
    simp only [Rule.accepts_of_ne (Shell.rootRules_stay r hr).1]
  have hend : (Shell.heredocEnd.match? c).filter (Shell.heredocEnd.accepts · s.tag) = none := by
    rw [Option.filter_eq_none_iff]
    intro m hm haccepts
    exact hends ⟨m, hm, haccepts⟩
  rw [firstMatch?, firstMatch?, hl.rules_eq, hs, Shell.rules_heredoc, List.findSome?_cons, hend]
  show Shell.rootRules.findSome? _ = Shell.rootRules.findSome? _
  rw [← List.head?_filterMap, ← List.head?_filterMap]
  exact congrArg List.head? (List.filterMap_congr (hroot s.tag))

variable {x : Char} {rest : Text}

/-- A step keeps one state above the other, unless it leaves all states. -/
lemma step_above (hl : l.IsShell) (hs : s.current = .heredoc) (hends : ¬Shell.EndsAt s.tag c)
    (h : LineState.Above s a b) (x : Char) (rest : Text) :
    (l.step a c x rest).tokens = (l.step b c x rest).tokens
      ∧ (l.step a c x rest).next = (l.step b c x rest).next
      ∧ (l.LeavesAll ⟨b, c⟩ → (l.step a c x rest).state = (l.step b c x rest).state)
      ∧ (¬l.LeavesAll ⟨b, c⟩ →
        LineState.Above s (l.step a c x rest).state (l.step b c x rest).state) := by
  -- both runs look for the same rules: those of the state that both have on top or, with nothing
  -- above the here-document, those of the root
  have hsame : l.firstMatch? a c = l.firstMatch? b c := by
    by_cases hb : b.entered = []
    · obtain rfl : b = .root := congrArg LineState.mk hb
      obtain rfl : a = s := congrArg LineState.mk h
      exact hl.firstMatch?_heredoc hs hends
    · exact firstMatch?_congr (h.top hb)
  cases hfound : l.firstMatch? b c with
  | none =>
      rw [step_of_none hfound, step_of_none (hsame.trans hfound)]
      refine ⟨rfl, rfl, ?_, fun _ => h⟩
      rintro ⟨r, m, hm, -⟩
      rw [hfound] at hm
      cases hm
  | some found =>
      obtain ⟨r, m⟩ := found
      rw [step_of_match hfound, step_of_match (hsame.trans hfound)]
      refine ⟨rfl, rfl, ?_, ?_⟩
      · rintro ⟨r', m', hm, hall⟩
        obtain ⟨rfl, rfl⟩ := Prod.mk.inj (Option.some.inj (hfound.symm.trans hm))
        simp only [stateAfter, hall]
        rfl
      · intro hstay
        -- a rule of the root leaves no state, so the here-document stays below
        refine h.stateAfter ?_ (fun hall => hstay ⟨r, m, hfound, hall⟩) m
        intro hb
        have hr := (firstMatch?_eq_some hfound).1
        obtain rfl : b = .root := congrArg LineState.mk hb
        rw [hl.rules_eq] at hr
        exact (Shell.rootRules_stay r hr).2.1

/-- The tokens from a place on are the same in two states of which one is above the other; and so it
is at the end of the line, unless all states were left. -/
lemma tokenizeFrom_above (hl : l.IsShell) (hs : s.current = .heredoc) (fuel : ℕ)
    (hends : ¬Shell.EndsAt s.tag c) (h : LineState.Above s a b) :
    (l.tokenizeFrom fuel a c).tokens = (l.tokenizeFrom fuel b c).tokens
      ∧ ((∃ v ∈ l.visitsFrom fuel b c, l.LeavesAll v) →
        (l.tokenizeFrom fuel a c).endState = (l.tokenizeFrom fuel b c).endState)
      ∧ ((¬∃ v ∈ l.visitsFrom fuel b c, l.LeavesAll v) →
        LineState.Above s (l.tokenizeFrom fuel a c).endState
          (l.tokenizeFrom fuel b c).endState) := by
  induction fuel generalizing a b c with
  | zero => exact ⟨rfl, fun ⟨v, hv, _⟩ => absurd hv List.not_mem_nil, fun _ => h⟩
  | succ fuel ih =>
      cases hrest : c.rest with
      | nil =>
          rw [tokenizeFrom_of_nil _ a hrest, tokenizeFrom_of_nil _ b hrest,
            visitsFrom_of_nil _ b hrest]
          exact ⟨rfl, fun ⟨v, hv, _⟩ => absurd hv List.not_mem_nil, fun _ => h⟩
      | cons x rest =>
          obtain ⟨htokens, hnext, hleaves, hstays⟩ := hl.step_above hs hends h x rest
          rw [tokenizeFrom_succ fuel a hrest, tokenizeFrom_succ fuel b hrest,
            visitsFrom_succ fuel b hrest, htokens, hnext, List.exists_mem_cons_iff]
          by_cases hall : l.LeavesAll ⟨b, c⟩
          · rw [hleaves hall]
            exact ⟨rfl, fun _ => rfl, fun hstay => absurd (Or.inl hall) hstay⟩
          · have hlt := lt_step (l := l) b c x rest
            obtain ⟨hlater, hleft, hstayed⟩ := ih (c := (l.step b c x rest).next)
              (Shell.not_endsAt (by omega)) (hstays hall)
            refine ⟨by rw [hlater], fun hleave => hleft (hleave.resolve_left hall), ?_⟩
            exact fun hstay => hstayed fun hlater => hstay (Or.inr hlater)

/-- The line that ends a here-document is one token, and leaves it. -/
lemma tokenizeLine_of_endsAt (hl : l.IsShell) (hs : s.current = .heredoc) {line : Text}
    (hends : Shell.EndsAt s.tag (.start line)) :
    l.tokenizeLine line s = ⟨[.ofSpan ⟨0, line.size⟩ .heredoc], s.pop⟩ := by
  obtain ⟨m, hm, haccepts⟩ := hends
  obtain ⟨-, rfl⟩ := Shell.of_match?_heredocEnd hm
  have hfound : l.firstMatch? s (.start line)
      = some (Shell.heredocEnd, ⟨.start line, (Cursor.start line).finish, []⟩) := by
    rw [firstMatch?, hl.rules_eq, hs, Shell.rules_heredoc, List.findSome?_cons, hm,
      Option.filter_some, if_pos haccepts]
    rfl
  cases line with
  | nil => exact absurd (Rule.lt_match? hm) (Nat.lt_irrefl 0)
  | cons x rest =>
      have hspan : (Cursor.start (x :: rest)).spanTo (Cursor.start (x :: rest)).finish
          = ⟨0, Text.size (x :: rest)⟩ := congrArg (Span.mk 0) (Nat.zero_add _)
      have hrest : (Cursor.start (x :: rest)).rest = x :: rest := rfl
      have hend : (Cursor.start (x :: rest)).finish.rest = [] := rfl
      rw [tokenizeLine, List.length_cons, tokenizeFrom_succ _ s hrest, step_of_match hfound,
        tokenizeFrom_of_nil _ _ hend, List.append_nil, ← hspan]
      rfl

/-- **A line of a here-document is its end if it is its tag**, apart from blanks around it: then it
is one token, and the here-document is left. **Else it looks like a line outside of it**: the tokens
are the same, and so are the states entered on the line, which stand above those at its start,
unless all states were left on the line. -/
theorem tokenizeLine_heredoc (hl : l.IsShell) {w : Text} (hs : s.current = .heredoc)
    (htag : s.tag = some w) (hw : Shell.IsTag w) (line : Text) :
    (line.trim = w → l.tokenizeLine line s = ⟨[.ofSpan ⟨0, line.size⟩ .heredoc], s.pop⟩)
      ∧ (line.trim ≠ w →
        (l.tokenizeLine line s).tokens = (l.tokenizeLine line .root).tokens
          ∧ ((∃ v ∈ l.visits line .root, l.LeavesAll v) →
            (l.tokenizeLine line s).endState = (l.tokenizeLine line .root).endState)
          ∧ ((¬∃ v ∈ l.visits line .root, l.LeavesAll v) →
            (l.tokenizeLine line s).endState.stack
              = s.stack ++ (l.tokenizeLine line .root).endState.stack.tail)) := by
  have hends : Shell.EndsAt s.tag (.start line) ↔ line.trim = w := htag ▸ Shell.endsAt_start hw
  refine ⟨fun htrim => hl.tokenizeLine_of_endsAt hs (hends.mpr htrim), fun htrim => ?_⟩
  obtain ⟨htokens, hleft, hstayed⟩ := hl.tokenizeFrom_above hs line.length
    (fun h => htrim (hends.mp h)) (LineState.Above.root s)
  refine ⟨htokens, hleft, fun hstay => ?_⟩
  have habove : (l.tokenizeLine line s).endState.entered
      = (l.tokenizeLine line .root).endState.entered ++ s.entered := hstayed hstay
  calc (l.tokenizeLine line s).endState.stack
      = LineState.base :: ((l.tokenizeLine line .root).endState.entered ++ s.entered).reverse := by
        rw [LineState.stack, habove]
    _ = LineState.base :: (s.entered.reverse
          ++ (l.tokenizeLine line .root).endState.entered.reverse) := by rw [List.reverse_append]
    _ = s.stack ++ (l.tokenizeLine line .root).endState.stack.tail := rfl

/-- The tag with blanks around it ends a here-document, and with more behind it does not. -/
theorem tokenizeLine_heredoc_tagged :
    let s : LineState := ⟨[⟨.heredoc, some ['E', 'N', 'D']⟩]⟩
    (s.current = .heredoc ∧ s.tag = some ['E', 'N', 'D'] ∧ Shell.IsTag ['E', 'N', 'D'])
      ∧ (shell.tokenizeLine [' ', 'E', 'N', 'D'] s).endState = .root
      ∧ (shell.tokenizeLine ['E', 'N', 'D', '$', '('] s).tokens
        = (shell.tokenizeLine ['E', 'N', 'D', '$', '('] .root).tokens := by
  have hword : Shell.IsTag ['E', 'N', 'D'] := ⟨List.cons_ne_nil _ _, by simp [Shell.IsTagChar]⟩
  have hends := tokenizeLine_heredoc (l := shell) (s := ⟨[⟨.heredoc, some ['E', 'N', 'D']⟩]⟩)
    (Or.inl rfl) rfl rfl hword [' ', 'E', 'N', 'D']
  have hstays := tokenizeLine_heredoc (l := shell) (s := ⟨[⟨.heredoc, some ['E', 'N', 'D']⟩]⟩)
    (Or.inl rfl) rfl rfl hword ['E', 'N', 'D', '$', '(']
  refine ⟨⟨rfl, rfl, hword⟩, ?_, (hstays.2 (by decide)).1⟩
  rw [hends.1 (by decide)]
  rfl

end IsShell

end Language

end ShellSyntax
