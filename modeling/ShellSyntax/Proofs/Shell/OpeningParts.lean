import Mathlib.Data.List.Basic
import Mathlib.Tactic.Common
import ShellSyntax.Proofs.Pattern.CharSet
import ShellSyntax.Proofs.Pattern.Runs
import ShellSyntax.Proofs.Shell.Heredoc

/-!
What opens a here-document, and which tag it has.

* `Shell.OpeningParts`: the five parts of an opening; `Shell.openingParts?`: the parts of an opening
  at the start of a text, by its operator;
* `Shell.head?_ways_tag`, `Shell.head?_ways_behindOperator`: the preferred way through the pattern
  of a tag, and through all behind an operator, takes just these parts;
* `Shell.TakesOneOf`: a pattern takes one of some texts, the first ones preferred. So do the
  patterns of the two operators;
* `Shell.match?_opening`: an opening matches where one of its operators has all parts behind it, and
  its groups are these parts;
* `Shell.matchAt?_openings`: where the rules of the table for here-documents and here-strings match.
-/

namespace ShellSyntax.Shell

open Pattern

/-! ### The parts of an opening -/

instance : DecidablePred IsTagChar := fun x => decidable_of_iff _ (mem_tagChar x)

/-- The quotes that may stand around a tag. -/
def isTagQuote (x : Char) : Bool := x ∈ [singleQuote, doubleQuote, backquote]

/-- The parts of an opening. The tag stands in quotes or not; they need not be the same on both
sides. -/
structure OpeningParts where
  operator : Text
  blanks : Text
  quote : Text
  tag : Text
  closer : Text
deriving DecidableEq

namespace OpeningParts

/-- The parts in their order. -/
def texts (p : OpeningParts) : List Text := [p.operator, p.blanks, p.quote, p.tag, p.closer]

/-- The match of an opening whose parts stand behind a place. Its groups are the parts. -/
def matchFrom (p : OpeningParts) (c : Cursor) : RuleMatch :=
  let behindOperator := c.behind p.operator
  let behindBlanks := behindOperator.behind p.blanks
  let behindQuote := behindBlanks.behind p.quote
  let behindTag := behindQuote.behind p.tag
  let stop := behindTag.behind p.closer
  ⟨c, stop, [some ⟨c, behindOperator⟩, some ⟨behindOperator, behindBlanks⟩,
    some ⟨behindBlanks, behindQuote⟩, some ⟨behindQuote, behindTag⟩, some ⟨behindTag, stop⟩]⟩

end OpeningParts

/-- The parts of an opening with an operator, by the text behind the operator: all blanks, a quote
if there is one, as many characters of tags as there are, and again a quote if there is one. Without
a tag it is no opening. -/
def behindOperator? (operator t : Text) : Option OpeningParts :=
  let blanks := t.takeWhile isBlank
  let t := t.drop blanks.length
  let quote := Text.leading isTagQuote t
  let t := t.drop quote.length
  let tag := t.takeWhile (IsTagChar ·)
  let t := t.drop tag.length
  if tag = [] then none else some ⟨operator, blanks, quote, tag, Text.leading isTagQuote t⟩

/-- The parts of the opening at the start of a text that has an operator. -/
def openingWith? (t operator : Text) : Option OpeningParts :=
  if operator <+: t then behindOperator? operator (t.drop operator.length) else none

/-- The parts of the opening at the start of a text that has one of some operators, the first one
that succeeds. -/
def openingParts? (operators : List Text) (t : Text) : Option OpeningParts :=
  operators.findSome? (openingWith? t)

lemma operator_eq {operator t : Text} {p : OpeningParts} (h : behindOperator? operator t = some p) :
    operator = p.operator := by
  simp only [behindOperator?] at h
  split at h
  · cases h
  · rw [← Option.some.inj h]

/-- The operators of here-documents. -/
def heredocOperators : List Text := [['<', '<', '-'], ['<', '<']]

/-- The operator of here-strings. -/
def herestringOperators : List Text := [['<', '<', '<']]

/-! ### Behind the operator -/

/-- The quotes that may stand around a tag. -/
def tagQuotes : CharSet := .ofList [singleQuote, doubleQuote, backquote]

/-- The pattern of a tag, with the quote behind it. -/
def tagPattern : Pattern := cat (group 3 (plus (one tagChar))) (group 4 (opt (one tagQuotes)))

/-- The pattern behind the operator. -/
def behindOperator : Pattern :=
  cat (group 1 (star (one .blanks))) <| cat (group 2 (opt (one tagQuotes))) tagPattern

variable {origin : ℕ}

lemma ways_cat_group (i : ℕ) (p q : Pattern) (m : PatternMatch) :
    ways origin (cat (group i p) q) m
      = (ways origin p (m.opened i)).flatMap fun n => ways origin q (n.closed i) := by
  rw [ways, ways, List.flatMap_map]

lemma shuns_closed {i : ℕ} {q : Pattern} {set : CharSet} (h : Shuns (ways origin q) set) :
    Shuns (fun n => ways origin q (n.closed i)) set :=
  fun n x rest hrest hx => h (n.closed i) x rest hrest hx

/-- What the groups behind the operator take. -/
def OpeningParts.captures (p : OpeningParts) (c : Cursor) (cs : Captures) : Captures :=
  let behindBlanks := c.behind p.blanks
  let behindQuote := behindBlanks.behind p.quote
  let behindTag := behindQuote.behind p.tag
  let stop := behindTag.behind p.closer
  let cs := (cs.start 1 c).stop 1 behindBlanks
  let cs := (cs.start 2 behindBlanks).stop 2 behindQuote
  let cs := (cs.start 3 behindQuote).stop 3 behindTag
  (cs.start 4 behindTag).stop 4 stop

lemma mem_tagQuotes : tagQuotes.mem = isTagQuote := CharSet.mem_ofList_eq _

lemma mem_tagChar_eq : tagChar.mem = fun x => decide (IsTagChar x) := by
  funext x
  rw [Bool.eq_iff_iff, mem_tagChar, decide_eq_true_eq]

/-- The preferred way through a tag takes all its characters, and the quote if there is one. -/
lemma head?_ways_tag (c : Cursor) (cs : Captures) :
    let tag := c.rest.takeWhile (IsTagChar ·)
    let d := c.behind tag
    let stop := d.behind (Text.leading isTagQuote d.rest)
    (ways origin tagPattern ⟨c, cs⟩).head?
      = if tag = [] then none
        else some ⟨stop, (((cs.start 3 c).stop 3 d).start 4 d).stop 4 stop⟩ := by
  intro tag d stop
  have hrun : c.rest.takeWhile tagChar.mem = tag := by rw [mem_tagChar_eq]
  by_cases hempty : tag = []
  · rw [if_pos hempty, tagPattern, ways_cat_group, ways_plus_eq_nil (hrun.trans hempty)]
    rfl
  · let cs' := (cs.start 3 c).stop 3 d
    have hword : (ways origin (group 3 (plus (one tagChar))) ⟨c, cs⟩).head? = some ⟨d, cs'⟩ := by
      have hplus := @head?_ways_plus origin _ ⟨c, cs.start 3 c⟩
        (fun hnil => hempty (hrun.symm.trans hnil))
      rw [hrun] at hplus
      exact head?_ways_group (m := ⟨c, cs⟩) hplus
    have hcloser : (ways origin (group 4 (opt (one tagQuotes))) ⟨d, cs'⟩).head?
        = some ⟨stop, (cs'.start 4 d).stop 4 stop⟩ := by
      have hopt := @head?_ways_opt origin tagQuotes ⟨d, cs'.start 4 d⟩
      rw [mem_tagQuotes] at hopt
      exact head?_ways_group (m := ⟨d, cs'⟩) hopt
    rw [if_neg hempty]
    exact head?_ways_cat hword hcloser

/-- The preferred way through the pattern behind an operator takes the parts of the opening. -/
lemma head?_ways_behindOperator (operator : Text) (c : Cursor) (cs : Captures) :
    (ways origin behindOperator ⟨c, cs⟩).head? = (behindOperator? operator c.rest).map fun p =>
      ⟨(((c.behind p.blanks).behind p.quote).behind p.tag).behind p.closer, p.captures c cs⟩ := by
  -- neither blanks nor a quote need be given back, since none of them can stand in what follows
  have hblanks : Shuns (ways origin (cat (group 2 (opt (one tagQuotes))) tagPattern)) .blanks := by
    have hquotes : CharSet.blanks.Apart tagQuotes := by decide
    have htag : CharSet.blanks.Apart tagChar := by decide
    refine shuns_ways rfl fun x hx => ?_
    simp [tagPattern, begins, nullable, hquotes.mem_eq_false hx, htag.mem_eq_false hx]
  have hquote : Shuns (ways origin tagPattern) tagQuotes := by
    have htag : tagQuotes.Apart tagChar := by decide
    refine shuns_ways rfl fun x hx => ?_
    simp [tagPattern, begins, nullable, htag.mem_eq_false hx]
  let b := c.behind (c.rest.takeWhile isBlank)
  let d := b.behind (Text.leading isTagQuote b.rest)
  let cs' := (((cs.start 1 c).stop 1 b).start 2 b).stop 2 d
  have htag : (ways origin behindOperator ⟨c, cs⟩).head?
      = (ways origin tagPattern ⟨d, cs'⟩).head? := by
    rw [behindOperator, ways_cat_group, head?_flatMap_star (shuns_closed hblanks), ways_cat_group,
      head?_flatMap_opt (shuns_closed hquote), mem_tagQuotes]
    rfl
  let tag := d.rest.takeWhile (IsTagChar ·)
  have hparts : behindOperator? operator c.rest
      = if tag = [] then none
        else some ⟨operator, c.rest.takeWhile isBlank, Text.leading isTagQuote b.rest, tag,
          Text.leading isTagQuote (d.behind tag).rest⟩ := rfl
  rw [htag, hparts, head?_ways_tag]
  by_cases hempty : tag = []
  · rw [if_pos hempty, if_pos hempty]
    rfl
  · rw [if_neg hempty, if_neg hempty]
    rfl

/-! ### Operators -/

/-- A pattern takes one of some texts, the first ones preferred. -/
def TakesOneOf (p : Pattern) (ts : List Text) : Prop :=
  ∀ origin m, ways origin p m
    = ts.flatMap fun t => if t <+: m.stop.rest then [⟨m.stop.behind t, m.captures⟩] else []

lemma takesOneOf_char (x : Char) : TakesOneOf (char x) [[x]] := by
  intro origin m
  rw [char, ways]
  cases hrest : m.stop.rest with
  | nil => simp [m.take_nil _ hrest]
  | cons y rest =>
      have hprefix : [x] <+: y :: rest ↔ y = x := by simp [List.cons_prefix_cons, eq_comm]
      rw [m.take_cons _ hrest, List.flatMap_singleton]
      simp only [CharSet.mem_single, hprefix]
      split
      · rename_i hy
        rw [← hy, Cursor.behind_cons hrest, Cursor.behind_nil]
      · rfl

namespace TakesOneOf

variable {p q : Pattern} {ts us : List Text}

lemma cat (hp : TakesOneOf p ts) (hq : TakesOneOf q us) :
    TakesOneOf (cat p q) (ts.flatMap fun t => us.map (t ++ ·)) := by
  intro origin m
  rw [ways, hp, List.flatMap_assoc, List.flatMap_assoc]
  refine List.flatMap_congr fun t _ => ?_
  rw [List.flatMap_map]
  by_cases ht : t <+: m.stop.rest
  · rw [if_pos ht, List.flatMap_singleton, hq]
    refine List.flatMap_congr fun u _ => ?_
    simp only [Cursor.prefix_behind ht, Cursor.behind_append]
  · rw [if_neg ht, List.flatMap_nil]
    refine (List.flatMap_eq_nil_iff.mpr fun u _ => if_neg fun h => ht ?_).symm
    exact (List.prefix_append t u).trans h

lemma opt (hp : TakesOneOf p ts) : TakesOneOf (opt p) (ts ++ [[]]) := by
  intro origin m
  rw [ways, hp, List.flatMap_append, List.flatMap_singleton, if_pos List.nil_prefix,
    Cursor.behind_nil]

end TakesOneOf

lemma takesOneOf_heredoc :
    TakesOneOf (sequence [char '<', char '<', opt (char '-')]) heredocOperators :=
  (takesOneOf_char '<').cat ((takesOneOf_char '<').cat (takesOneOf_char '-').opt)

lemma takesOneOf_herestring :
    TakesOneOf (sequence [char '<', char '<', char '<']) herestringOperators :=
  (takesOneOf_char '<').cat ((takesOneOf_char '<').cat (takesOneOf_char '<'))

variable {operator : Pattern} {ts : List Text}

/-- The preferred way through an opening has one of its operators with all parts behind it. -/
lemma head?_ways_opening (h : TakesOneOf operator ts) (c : Cursor) (cs : Captures) :
    (ways origin (cat (group 0 operator) behindOperator) ⟨c, cs⟩).head?
      = (openingParts? ts c.rest).map fun p =>
        ⟨(p.matchFrom c).stop,
          p.captures (c.behind p.operator) ((cs.start 0 c).stop 0 (c.behind p.operator))⟩ := by
  rw [ways_cat_group, h, List.flatMap_assoc, List.head?_flatMap, openingParts?,
    List.map_findSome?]
  refine congrArg (List.findSome? · ts) (funext fun t => ?_)
  show _ = (openingWith? c.rest t).map _
  rw [openingWith?]
  by_cases ht : t <+: c.rest
  · rw [if_pos ht]
    show (List.flatMap _ (if t <+: c.rest then _ else [])).head? = _
    rw [if_pos ht, List.flatMap_singleton]
    refine (head?_ways_behindOperator t (c.behind t) _).trans (Option.map_congr fun p hp => ?_)
    obtain rfl := operator_eq hp
    rfl
  · rw [if_neg ht]
    show (List.flatMap _ (if t <+: c.rest then _ else [])).head? = _
    rw [if_neg ht]
    rfl

/-- An opening matches where one of its operators has all parts behind it, and its groups are these
parts. -/
lemma match?_opening {s : State} {r : Rule} (hr : r ∈ rules s)
    (hpattern : r.pattern = cat .atStart (cat (group 0 operator) behindOperator))
    (hclassify : r.classify = .groups openingKinds) (hstart : r.lineStart = false)
    (hgroups : operator.groupCount = 0) (h : TakesOneOf operator ts) {c : Cursor}
    (hne : c.rest ≠ []) :
    r.match? c = (openingParts? ts c.rest).map (·.matchFrom c) := by
  have happlies : r.applies c = true := by
    simp [Rule.applies, hstart, hne]
  have hways : r.pattern.ways c.offset ⟨c, .none⟩
      = ways c.offset (cat (group 0 operator) behindOperator) ⟨c, .none⟩ := by
    rw [hpattern]
    exact ways_anchored _ c .none
  have hcount : r.pattern.groupCount = 5 := by
    simp [hpattern, behindOperator, tagPattern, groupCount, hgroups]
  rw [match?_eq hr happlies, hways, head?_ways_opening h, Option.map_map]
  refine Option.map_congr fun p _ => ?_
  show (⟨c, _, r.groupsOf _⟩ : RuleMatch) = _
  simp only [Rule.groupsOf, hclassify, hcount]
  rfl

/-! ### The texts of the parts -/

/-- Each part stands behind the one before it. -/
lemma prefix_of_openingParts? {c : Cursor} {p : OpeningParts}
    (h : openingParts? ts c.rest = some p) :
    p.operator <+: c.rest ∧ p.blanks <+: (c.behind p.operator).rest
      ∧ p.quote <+: ((c.behind p.operator).behind p.blanks).rest
      ∧ p.tag <+: (((c.behind p.operator).behind p.blanks).behind p.quote).rest
      ∧ p.closer
        <+: ((((c.behind p.operator).behind p.blanks).behind p.quote).behind p.tag).rest := by
  obtain ⟨operator, -, h⟩ := List.exists_of_findSome?_eq_some h
  rw [openingWith?] at h
  split at h
  · rename_i hoperator
    simp only [behindOperator?] at h
    split at h
    · cases h
    · obtain rfl := Option.some.inj h
      exact ⟨hoperator, List.takeWhile_prefix _, Text.leading_isPrefix _ _, List.takeWhile_prefix _,
        Text.leading_isPrefix _ _⟩
  · cases h

/-- The groups of the match hold the texts of the parts, and together they are the text of the
match. -/
lemma texts_matchFrom {c : Cursor} {p : OpeningParts} (h : openingParts? ts c.rest = some p) :
    (p.matchFrom c).groups.map (·.map Capture.text) = p.texts.map some
      ∧ (p.matchFrom c).text = p.texts.flatten := by
  obtain ⟨hoperator, hblanks, hquote, htag, hcloser⟩ := prefix_of_openingParts? h
  refine ⟨?_, ?_⟩
  · simp only [OpeningParts.matchFrom, OpeningParts.texts, Capture.text, List.map_cons,
      List.map_nil, Option.map_some, Cursor.textTo_behind hoperator, Cursor.textTo_behind hblanks,
      Cursor.textTo_behind hquote, Cursor.textTo_behind htag, Cursor.textTo_behind hcloser]
  · -- the parts one after the other
    simp only [← Cursor.behind_append] at hquote htag hcloser
    have hblanks := (Cursor.prefix_behind hoperator).mp hblanks
    have hquote := (Cursor.prefix_behind hblanks).mp hquote
    have htag := (Cursor.prefix_behind hquote).mp htag
    have hcloser := (Cursor.prefix_behind htag).mp hcloser
    have hall : p.texts.flatten <+: c.rest := by
      simpa [OpeningParts.texts] using hcloser
    have hstop : (p.matchFrom c).stop = c.behind p.texts.flatten := by
      simp [OpeningParts.matchFrom, OpeningParts.texts, ← Cursor.behind_append]
    show c.textTo (p.matchFrom c).stop = _
    rw [hstop, Cursor.textTo_behind hall]

/-! ### Where here-documents and here-strings open -/

/-- The rule for the opening of a here-document. -/
def heredocOpening : Rule :=
  ((Rule.anchored "heredoc" (opening (sequence [char '<', char '<', opt (char '-')]))
    (.groups openingKinds)).pushing .heredoc).capturingTag tagGroup

/-- The rule for the opening of a here-string. -/
def herestringOpening : Rule :=
  .anchored "herestring" (opening (sequence [char '<', char '<', char '<'])) (.groups openingKinds)

lemma eq_heredocOpening (s : State) : ∀ r ∈ rules s, r.name = "heredoc" → r = heredocOpening := by
  cases s <;> decide

lemma eq_herestringOpening (s : State) :
    ∀ r ∈ rules s, r.name = "herestring" → r = herestringOpening := by
  cases s <;> decide

/-- The tag of a here-document is the tag of its opening. -/
lemma capturedTag_matchFrom {c : Cursor} {p : OpeningParts}
    (h : openingParts? ts c.rest = some p) :
    heredocOpening.capturedTag (p.matchFrom c) = some p.tag := by
  obtain ⟨-, -, -, htag, -⟩ := prefix_of_openingParts? h
  show some (Capture.text _) = some p.tag
  rw [Capture.text, Cursor.textTo_behind htag]

/-- In front of a third angle bracket there is no opening of a here-document. -/
lemma openingParts?_of_herestring {t : Text} (h : ['<', '<', '<'] <+: t) :
    openingParts? heredocOperators t = none := by
  obtain ⟨rest, rfl⟩ := h
  have hblank : isBlank '<' = false := by decide
  have hquote : isTagQuote '<' = false := by decide
  have htag : ¬IsTagChar '<' := by decide
  simp [openingParts?, heredocOperators, openingWith?, behindOperator?, Text.leading, hblank,
    hquote, htag]

/-- Without a tag behind it, the hyphen of an operator is one itself. -/
lemma isSome_openingParts?_of_hyphen {t : Text} (h : ['<', '<', '-'] <+: t) :
    (openingParts? heredocOperators t).isSome := by
  obtain ⟨rest, rfl⟩ := h
  have hblank : isBlank '-' = false := by decide
  have hquote : isTagQuote '-' = false := by decide
  have htag : IsTagChar '-' := by decide
  have hwithout : (openingWith? (['<', '<', '-'] ++ rest) ['<', '<']).isSome := by
    simp [openingWith?, behindOperator?, Text.leading, hblank, hquote, htag]
  rw [openingParts?, heredocOperators, List.findSome?_isSome_iff]
  exact ⟨['<', '<'], by simp, hwithout⟩

/-- **What opens a here-document, and which tag it has.** At each place of a line that has text
behind it, the rule for here-documents matches just if one of its two operators stands there, with
blanks, a quote or none, and at least one character of a tag behind it; the first operator that
succeeds counts. The match has five groups that follow each other without gaps: the operator, all
blanks, the quote if there is one, all characters of the tag, and a quote if there is one. The tag
is what the fourth one took. Two angle brackets in front of a third never open one, and in front of
a hyphen they always do. The rule for here-strings has the same parts with three angle brackets, and
no tag is taken from it. -/
theorem matchAt?_openings {line : Text} {pos : ℕ} {c : Cursor} (hc : line.cursorAt? pos = some c)
    (hpos : pos < line.size) :
    (∀ s, ∀ r ∈ rules s, r.name = "heredoc" →
        r.matchAt? line pos = some ((openingParts? heredocOperators c.rest).map (·.matchFrom c))
          ∧ ∀ p, openingParts? heredocOperators c.rest = some p →
            r.capturedTag (p.matchFrom c) = some p.tag)
      ∧ (∀ s, ∀ r ∈ rules s, r.name = "herestring" →
        r.matchAt? line pos = some ((openingParts? herestringOperators c.rest).map (·.matchFrom c))
          ∧ ∀ m, r.capturedTag m = none)
      ∧ (∀ ts p, openingParts? ts c.rest = some p →
        (p.matchFrom c).groups.map (·.map Capture.text) = p.texts.map some
          ∧ (p.matchFrom c).text = p.texts.flatten)
      ∧ (['<', '<', '<'] <+: c.rest → openingParts? heredocOperators c.rest = none)
      ∧ (['<', '<', '-'] <+: c.rest → (openingParts? heredocOperators c.rest).isSome) := by
  obtain ⟨hreach, rfl⟩ := Cursor.Reaches.of_cursorAt? hc
  have hne : c.rest ≠ [] := by
    intro hnil
    have hsize := hreach.size_eq
    rw [hnil] at hsize
    exact Nat.lt_irrefl _ (hsize ▸ hpos)
  refine ⟨fun s r hr hname => ⟨?_, fun p hp => ?_⟩, fun s r hr hname => ⟨?_, fun m => ?_⟩,
    fun ts p hp => texts_matchFrom hp, openingParts?_of_herestring,
    isSome_openingParts?_of_hyphen⟩
  · obtain rfl := eq_heredocOpening s r hr hname
    rw [Rule.matchAt?_eq hreach, match?_opening hr rfl rfl rfl rfl takesOneOf_heredoc hne]
  · obtain rfl := eq_heredocOpening s r hr hname
    exact capturedTag_matchFrom hp
  · obtain rfl := eq_herestringOpening s r hr hname
    rw [Rule.matchAt?_eq hreach, match?_opening hr rfl rfl rfl rfl takesOneOf_herestring hne]
  · obtain rfl := eq_herestringOpening s r hr hname
    rfl

/-- A hyphen behind the operator is part of the operator if a tag follows, and else it is the
tag. -/
theorem matchAt?_openings_hyphen :
    heredocOpening ∈ rules .root
      ∧ heredocOpening.matchAt? ['<', '<', '-', ' ', 'A'] 0
        = some (some ((⟨['<', '<', '-'], [' '], [], ['A'], []⟩ : OpeningParts).matchFrom
          (.start ['<', '<', '-', ' ', 'A'])))
      ∧ heredocOpening.matchAt? ['<', '<', '-', ' '] 0
        = some (some ((⟨['<', '<'], [], [], ['-'], []⟩ : OpeningParts).matchFrom
          (.start ['<', '<', '-', ' ']))) := by
  have hmem : heredocOpening ∈ rules .root := by decide
  have hfirst : ∀ line : Text, line.cursorAt? 0 = some (.start line) :=
    fun line => (Cursor.Reaches.refl (.start line)).cursorAt?
  have hword := ((matchAt?_openings (hfirst ['<', '<', '-', ' ', 'A']) (by decide)).1
    .root _ hmem rfl).1
  have hnone := ((matchAt?_openings (hfirst ['<', '<', '-', ' ']) (by decide)).1
    .root _ hmem rfl).1
  refine ⟨hmem, hword.trans ?_, hnone.trans ?_⟩
  · decide
  · decide

end ShellSyntax.Shell
