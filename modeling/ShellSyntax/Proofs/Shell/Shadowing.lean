import Mathlib.Data.List.Basic
import Mathlib.Tactic.Common
import ShellSyntax.Proofs.Shell.Numerals

/-!
Parts of the table of the shell language that never count.

In every list the first rule that matches wins. So what an earlier rule takes wherever a later one
could take it as well may be left out of the later one.

* `Shell.narrowed?`: what is left of a rule then, if anything; `Shell.narrowRules`: the table of
  what is left;
* `Language.outcome?`: what a step finds by a rule. `Language.step_eq`: a step finds what the first
  rule does that finds anything, so lists of rules with the same first outcome can stand for each
  other;
* `Shell.Narrows`: a list of rules finds the same as what is left of it. So do the rules for simple
  parameters, which shadow each other, and those from the marks to the numbers, and all lists of
  the table with them;
* `Language.IsShell.tokenizeLine_narrow`: so the narrower table leads to the same tokens and states.
-/

namespace ShellSyntax

namespace Shell

open Pattern

/-! ### What is left of the table -/

/-- What a name begins with. -/
def nameStart : CharSet := letter.union (.single '_')

/-- A parameter with a name. A digit behind the dollar sign is left to the rule for positions. -/
def nameRule : Rule :=
  fixed "named" .parameter (sequence [char '$', one nameStart, star (one nameChar)])

/-- A parameter that is a mark. Digits and the underscore are left to the rules in front of it. -/
def markRule : Rule :=
  fixed "special" .parameter (sequence [char '$', oneOf ['*', '@', '#', '?', '-', '$', '!']])

/-- A fraction with digits in front of its point. A point at the start is left to the marks. -/
def fractionRule : Rule :=
  fixed "float" .float
    (sequence [plus (one digit), char '.', plus (one digit),
      opt (group 0 (sequence [oneOf ['e', 'E'], opt (oneOf ['-', '+']), plus (one digit)]))])

/-- What is left of a rule without what the rules in front of it take. Of the separators, which are
among the marks, nothing is left. -/
def narrowed? (r : Rule) : Option Rule :=
  if r.name = "named" then some nameRule
  else if r.name = "special" then some markRule
  else if r.name = "float" then some fractionRule
  else if r.name = "separator" then none
  else some r

/-- The rules of each state, without what others in front of them take. -/
def narrowRules (s : State) : List Rule := (rules s).filterMap narrowed?

/-! ### Ways through patterns -/

variable {origin : ℕ} {p q q' : Pattern} {m : PatternMatch} {set set' : CharSet}

/-- Sets that agree on the next character take the same. -/
lemma take_congr (h : ∀ x ∈ m.stop.rest.head?, set.mem x = set'.mem x) :
    m.take set = m.take set' := by
  cases hrest : m.stop.rest with
  | nil => rw [m.take_nil set hrest, m.take_nil set' hrest]
  | cons x rest => rw [m.take_cons set hrest, m.take_cons set' hrest, h x (by rw [hrest]; rfl)]

lemma ways_cat_congr (h : ∀ n ∈ ways origin p m, ways origin q n = ways origin q' n) :
    ways origin (cat p q) m = ways origin (cat p q') m := by
  rw [ways, ways]
  exact List.flatMap_congr h

/-- Where there is no way through a set that is repeated once or more, no character of it is next. -/
lemma mem_eq_false_of_ways_plus (h : ways origin (plus (one set)) m = []) :
    ∀ x ∈ m.stop.rest.head?, set.mem x = false := by
  intro x hx
  obtain ⟨rest, hrest⟩ := List.head?_eq_some_iff.mp hx
  refine Bool.eq_false_iff.mpr fun hmem => ?_
  have hne : m.stop.rest.takeWhile set.mem ≠ [] := by
    rw [hrest, List.takeWhile_cons_of_pos hmem]
    exact List.cons_ne_nil _ _
  have hhead := @head?_ways_plus origin set m hne
  rw [h] at hhead
  cases hhead

/-- Where a rule of the table that may stand anywhere does not match, there is no way through its
pattern. -/
lemma ways_eq_nil_of_match? {s : State} {name : String} {kind : TokenKind}
    (hr : fixed name kind p ∈ rules s) {c : Cursor} (hnone : (fixed name kind p).match? c = none) :
    ways c.offset p ⟨c, .none⟩ = [] := by
  have hways : (fixed name kind p).pattern.ways c.offset ⟨c, .none⟩
      = ways c.offset p ⟨c, .none⟩ := ways_anchored p c .none
  rw [← hways]
  by_cases hne : c.rest = []
  · exact ways_eq_nil_of_head? (nullable_rules s _ hr) (by simp [hne])
  · have happlies : (fixed name kind p).applies c = true := by
      simp [Rule.applies, fixed, Rule.anchored, hne]
    rwa [match?_eq hr happlies, Option.map_eq_none_iff, List.head?_eq_none_iff] at hnone

/-- Rules with the same ways match the same. -/
lemma match?_fixed_congr {name : String} {kind : TokenKind} {c : Cursor}
    (hsteady : p.steady = true ∧ q.steady = true)
    (hways : ways c.offset p ⟨c, .none⟩ = ways c.offset q ⟨c, .none⟩) :
    (fixed name kind p).match? c = (fixed name kind q).match? c := by
  have hfind : ∀ {p : Pattern}, p.steady = true →
      (cat .atStart p).find? c = (ways c.offset p ⟨c, .none⟩).head? := by
    intro p hp
    rw [find?_eq_head? (by rw [steady, hp]; rfl) rfl, ways_anchored]
  have hsame : (fixed name kind p).pattern.find? c = (fixed name kind q).pattern.find? c :=
    (hfind hsteady.1).trans ((congrArg List.head? hways).trans (hfind hsteady.2).symm)
  rw [Rule.match?, Rule.match?, hsame]
  rfl

end Shell

/-! ### What a step finds by a rule -/

namespace Language

variable {l : Language} {s : LineState} {c : Cursor} {r : Rule}

/-- What a step finds by a rule, if it matches and stands under the tag. -/
def outcome? (l : Language) (s : LineState) (c : Cursor) (r : Rule) : Option Step :=
  ((r.match? c).filter (r.accepts · s.tag)).map fun m => ⟨l.tokensOf r m, stateAfter r m s, m.stop⟩

/-- A step finds what the first rule does that finds anything. -/
lemma step_eq (l : Language) (s : LineState) (c : Cursor) (x : Char) (rest : Text) :
    l.step s c x rest = ((l.rules s.current).findSome? (l.outcome? s c)).getD
      ⟨[.ofSpan (c.spanTo (c.past x rest)) .plain], s, c.past x rest⟩ := by
  have hfirst : (l.rules s.current).findSome? (l.outcome? s c) = (l.firstMatch? s c).map
      fun found => ⟨l.tokensOf found.1 found.2, stateAfter found.1 found.2 s, found.2.stop⟩ := by
    rw [firstMatch?, List.map_findSome?]
    refine congrArg (List.findSome? · _) (funext fun r => ?_)
    rw [Function.comp_apply, Option.map_map]
    rfl
  rw [hfirst]
  cases hfound : l.firstMatch? s c with
  | none => exact step_of_none hfound x rest
  | some found => exact step_of_match hfound x rest

/-- A rule that is for no tag finds something wherever it matches. -/
lemma match?_eq_none_of_outcome? (htag : r.tag ≠ .close) (h : l.outcome? s c r = none) :
    r.match? c = none := by
  rw [outcome?, Option.map_eq_none_iff, Option.filter_eq_none_iff] at h
  exact Option.eq_none_iff_forall_ne_some.mpr fun m hm =>
    h m hm (Rule.accepts_of_ne htag m s.tag)

lemma outcome?_eq_none (h : r.match? c = none) : l.outcome? s c r = none := by
  rw [outcome?, h]
  rfl

lemma outcome?_fixed_congr {name : String} {kind : TokenKind} {p q : Pattern}
    (h : (Shell.fixed name kind p).match? c = (Shell.fixed name kind q).match? c) :
    l.outcome? s c (Shell.fixed name kind p) = l.outcome? s c (Shell.fixed name kind q) := by
  rw [outcome?, outcome?, h]
  rfl

/-- Languages whose steps are the same give the same tokens. -/
lemma tokenizeFrom_congr {l l' : Language}
    (h : ∀ s c x rest, c.rest = x :: rest → l.step s c x rest = l'.step s c x rest)
    (fuel : ℕ) (s : LineState) (c : Cursor) :
    l.tokenizeFrom fuel s c = l'.tokenizeFrom fuel s c := by
  induction fuel generalizing s c with
  | zero => rfl
  | succ fuel ih =>
      cases hrest : c.rest with
      | nil => rw [tokenizeFrom_of_nil _ s hrest, tokenizeFrom_of_nil _ s hrest]
      | cons x rest =>
          rw [tokenizeFrom_succ _ s hrest, tokenizeFrom_succ _ s hrest, h s c x rest hrest, ih]

end Language

namespace Shell

open Pattern

variable {l : Language} {s : LineState} {c : Cursor}

/-! ### Lists of rules -/

/-- A list of rules finds the same as what is left of it. -/
def Narrows (l : Language) (s : LineState) (c : Cursor) (rs : List Rule) : Prop :=
  (rs.filterMap narrowed?).findSome? (l.outcome? s c) = rs.findSome? (l.outcome? s c)

lemma Narrows.append {rs rs' : List Rule} (h : Narrows l s c rs) (h' : Narrows l s c rs') :
    Narrows l s c (rs ++ rs') := by
  rw [Narrows, List.filterMap_append, List.findSome?_append, List.findSome?_append, h, h']

/-- All is left of rules that are not changed. -/
lemma narrows_of_kept {rs : List Rule} (h : ∀ r ∈ rs, narrowed? r = some r) : Narrows l s c rs := by
  have hkept : rs.filterMap narrowed? = rs := by
    rw [List.filterMap_congr h, List.filterMap_some]
  rw [Narrows, hkept]

/-- Behind a rule only those places count where it finds nothing. -/
lemma findSome?_cons_congr {α β : Type} {f : α → Option β} {a a' : α} {as as' : List α}
    (ha : f a = f a') (has : f a' = none → as.findSome? f = as'.findSome? f) :
    (a :: as).findSome? f = (a' :: as').findSome? f := by
  rw [List.findSome?_cons, List.findSome?_cons, ha]
  cases hfound : f a' with
  | none => exact has hfound
  | some b => rfl

/-! ### Simple parameters -/

/-- Where no digit is next, names begin with what is left for them to begin with. -/
lemma mem_nameChar_of_digit {x : Char} (hx : digit.mem x = false) :
    nameChar.mem x = nameStart.mem x := by
  have hunion : nameChar = nameStart.union digit := by decide
  have hproper : nameStart.ranges.Proper ∧ digit.ranges.Proper := by
    simp only [Unicode.Ranges.Proper]
    decide
  rw [hunion, CharSet.mem_union hproper.1 hproper.2, hx, Bool.or_false]

/-- The rules for simple parameters find the same as what is left of them. -/
lemma narrows_simpleParameterRules : Narrows l s c simpleParameterRules := by
  -- where a rule finds nothing, what could follow the dollar sign in it does not
  have hnext : ∀ {name kind set}, fixed name kind (cat (char '$') (plus (one set))) ∈ rules .root →
      l.outcome? s c (fixed name kind (cat (char '$') (plus (one set)))) = none →
      ∀ n ∈ ways c.offset (char '$') ⟨c, .none⟩, ∀ x ∈ n.stop.rest.head?, set.mem x = false := by
    intro name kind set hr hnone n hn
    have hnil := ways_eq_nil_of_match? hr (Language.match?_eq_none_of_outcome? nofun hnone)
    rw [ways, List.flatMap_eq_nil_iff] at hnil
    exact mem_eq_false_of_ways_plus (hnil n hn)
  show List.findSome? _ [_, nameRule, markRule] = List.findSome? _ [_, _, _]
  refine findSome?_cons_congr rfl fun hpositional => ?_
  have hdigit := hnext (by decide) hpositional
  refine findSome?_cons_congr (Language.outcome?_fixed_congr ?_) fun hnamed => ?_
  · refine match?_fixed_congr ⟨rfl, rfl⟩ (ways_cat_congr fun n hn => ?_)
    have htake : n.take nameStart = n.take nameChar :=
      take_congr fun x hx => (mem_nameChar_of_digit (hdigit n hn x hx)).symm
    show (n.take nameStart).flatMap _ = (n.take nameChar).flatMap _
    rw [htake]
    rfl
  · have hname := hnext (by decide) hnamed
    refine findSome?_cons_congr (Language.outcome?_fixed_congr ?_) fun _ => rfl
    refine match?_fixed_congr ⟨rfl, rfl⟩ (ways_cat_congr fun n hn => take_congr fun x hx => ?_)
    -- the marks that are left out are characters of names
    have hchar := hname n hn x hx
    have hleft : x ≠ '0' ∧ x ≠ '_' := by
      refine ⟨?_, ?_⟩
      · rintro rfl
        exact absurd hchar (by decide)
      · rintro rfl
        exact absurd hchar (by decide)
    rw [Bool.eq_iff_iff, CharSet.mem_ofList, CharSet.mem_ofList]
    simp [hleft]

/-! ### Marks and numbers -/

/-- The rule for marks. -/
def symbolsRule : Rule :=
  fixed "symbols" .delimiter (plus (oneOf
    ['=', '>', '<', '!', '~', '?', '&', '|', '+', '-', '*', '/', '^', ';', '.', ',']))

/-- The rule for separators. -/
def separatorRule : Rule := fixed "separator" .delimiter (oneOf [',', ';'])

/-- The rules from the marks on find the same as what is left of them. -/
lemma narrows_marks : Narrows l s c (symbolsRule :: numberRules ++ [separatorRule]) := by
  show List.findSome? _ [_, fractionRule, _, _] = List.findSome? _ [_, _, _, _, separatorRule]
  refine findSome?_cons_congr rfl fun hsymbols => ?_
  have hnone := mem_eq_false_of_ways_plus (ways_eq_nil_of_match?
    (show symbolsRule ∈ rules .root by decide)
    (Language.match?_eq_none_of_outcome? nofun hsymbols))
  have hnext : ∀ x ∈ c.rest.head?, x ≠ '.' ∧ x ∉ [',', ';'] := by
    intro x hx
    have hmem := CharSet.mem_ofList.not.mp (Bool.eq_false_iff.mp (hnone x hx))
    simp only [List.mem_cons, List.not_mem_nil, not_or] at hmem ⊢
    tauto
  have hfraction : fractionRule.match? c = (fixed "float" .float fractionPattern).match? c := by
    let point := cat (one (.single '.')) decimalsPattern
    -- without digits in front of it, a fraction would begin with a point
    have hpoint : ways c.offset point ⟨c, .none⟩ = [] :=
      ways_point_eq_nil fun rest hrest => (hnext '.' (by rw [hrest]; rfl)).1 rfl
    refine match?_fixed_congr (p := cat (plus (one digit)) point) ⟨rfl, rfl⟩ ?_
    calc ways c.offset (cat (plus (one digit)) point) ⟨c, .none⟩
        = (ways c.offset (plus (one digit)) ⟨c, .none⟩).flatMap (ways c.offset point)
          ++ ways c.offset point ⟨c, .none⟩ := by rw [hpoint, List.append_nil, ways]
      _ = (ways c.offset (star (one digit)) ⟨c, .none⟩).flatMap (ways c.offset point) := by
        rw [ways_star_one, List.flatMap_append, List.flatMap_singleton, ways_plus, ways]
      _ = ways c.offset fractionPattern ⟨c, .none⟩ := by rw [fractionPattern, ways]
  -- the marks of the last rule have been taken by the first one
  have hseparator : separatorRule.match? c = none := by
    refine match?_eq_none (show separatorRule ∈ rules .root by decide) ?_
    refine ways_eq_nil_of_head? rfl fun x hx => ?_
    have hmem := CharSet.mem_ofList.not.mpr (hnext x hx).2
    simpa [separatorRule, fixed, Rule.anchored, oneOf, begins, nullable] using hmem
  refine findSome?_cons_congr (Language.outcome?_fixed_congr hfraction) fun _ =>
    findSome?_cons_congr rfl fun _ => findSome?_cons_congr rfl fun _ => ?_
  rw [List.findSome?_cons, Language.outcome?_eq_none hseparator]

/-! ### The table -/

lemma narrows_rootRules : Narrows l s c rootRules := by
  obtain ⟨front, middle, hroot, hfront, hmiddle⟩ : ∃ front middle,
      rootRules = front ++ (simpleParameterRules
        ++ (middle ++ (symbolsRule :: numberRules ++ [separatorRule])))
      ∧ (∀ r ∈ front, narrowed? r = some r) ∧ ∀ r ∈ middle, narrowed? r = some r := by
    let front := rootRules.takeWhile (· ∉ simpleParameterRules)
    let middle := (rootRules.drop (front.length + simpleParameterRules.length)).takeWhile
      (· ≠ symbolsRule)
    exact ⟨front, middle, by decide, by decide, by decide⟩
  rw [hroot]
  exact (narrows_of_kept hfront).append <| narrows_simpleParameterRules.append <|
    (narrows_of_kept hmiddle).append narrows_marks

/-- Every list of the table finds the same as what is left of it. -/
lemma narrows_rules (state : State) : Narrows l s c (rules state) := by
  cases state with
  | root => exact narrows_rootRules
  | heredoc =>
      have hend : ∀ r ∈ [heredocEnd], narrowed? r = some r := by decide
      exact (narrows_of_kept hend).append narrows_rootRules
  | doubleQuoted =>
      obtain ⟨first, others, hrules, hfirst, hothers⟩ : ∃ first others,
          doubleQuotedRules = [first] ++ (simpleParameterRules ++ others)
          ∧ (∀ r ∈ [first], narrowed? r = some r) ∧ ∀ r ∈ others, narrowed? r = some r :=
        ⟨_, _, rfl, by decide, by decide⟩
      rw [rules, hrules]
      exact (narrows_of_kept hfirst).append <| narrows_simpleParameterRules.append <|
        narrows_of_kept hothers
  | singleQuoted | ansiQuoted | localeQuoted | substitution | expansion =>
      exact narrows_of_kept (by decide)

end Shell

namespace Language

namespace IsShell

variable {l : Language}

/-- **What earlier rules take anyway never counts in later ones.** In the table of the shell
language, separators may be left out, parameters with a name need not begin with a digit, those that
are marks need not be a zero or an underscore, and fractions need not begin with a point: all lines
have the same tokens, and leave the same states, from whatever state they begin in. -/
theorem tokenizeLine_narrow (hl : l.IsShell) (line : Text) (start : LineState) :
    { l with rules := Shell.narrowRules }.tokenizeLine line start = l.tokenizeLine line start := by
  refine tokenizeFrom_congr (fun s c x rest _ => ?_) line.length start (.start line)
  have hnarrows := Shell.narrows_rules (l := l) (s := s) (c := c) s.current
  rw [step_eq, step_eq, hl.rules_eq, ← hnarrows]
  rfl

/-- The narrower table is another one, but it does not show where rules are left less to take. -/
theorem tokenizeLine_narrow_shadowed :
    let line : Text := "$1a$_ .5;0.5".toList
    (∀ s ∈ [State.root, .heredoc, .doubleQuoted], Shell.narrowRules s ≠ Shell.rules s)
      ∧ shell.IsShell ∧ { shell with rules := Shell.narrowRules }.tokenizeLine line .root
        = shell.tokenizeLine line .root :=
  ⟨by decide, Or.inl rfl, tokenizeLine_narrow (Or.inl rfl) _ _⟩

end IsShell

end Language

end ShellSyntax
