import Mathlib.Data.List.Basic
import Mathlib.Tactic.Common
import ShellSyntax.Proofs.Pattern.Reading
import ShellSyntax.Proofs.Rule.Match

/-!
Where the match of a written rule begins.

The rules here are those whose pattern is written in the basic syntax of `Pattern.read?`. It has no
word boundary and nothing else that looks at what stands around a passage, so a passage is one
through its own text as well.

* `Pattern.Passes.offset_eq`, `Pattern.searchFrom?_eq_matchFrom?`: a pattern that asks to stand
  where the search begins is matched there, or the search finds nothing;
* `Cursor.between`, `Pattern.Passes.between`: what lies around a passage does not matter to it;
* `Pattern.Matches`: a text is matched by a pattern from its first character to its last;
* `Rule.bound_matchAt?`: the match of a written rule begins at the cursor, and its text is matched
  by the pattern, unless a bar stands outside of all groups. With such a bar a match may lie
  anywhere behind the cursor: `Rule.matchAt?_strayBar`.
-/

namespace ShellSyntax

/-! ### Places of a part of a line -/

namespace Cursor

/-- A place of a line as a place of the text from `a` to `b`. -/
def between (a b c : Cursor) : Cursor := ⟨c.offset - a.offset, c.textTo b⟩

lemma between_self (a b : Cursor) : a.between b a = .start (a.textTo b) := by
  rw [between, Nat.sub_self, start]

/-- The next character is the same one. -/
lemma between_past {a b c : Cursor} {x : Char} {rest : Text} (hrest : c.rest = x :: rest)
    (ha : a.offset ≤ c.offset) (hb : (c.past x rest).Reaches b) :
    (a.between b c).rest = x :: (c.past x rest).textTo b
      ∧ a.between b (c.past x rest) = (a.between b c).past x ((c.past x rest).textTo b) := by
  have hnext : c.textTo (c.past x rest) = [x] := textTo_eq (t := [x]) hrest rfl
  have htext := (Reaches.past hrest).textTo_append hb
  rw [hnext] at htext
  refine ⟨htext.symm, ?_⟩
  have hoffset : c.offset + x.utf8Size - a.offset = c.offset - a.offset + x.utf8Size := by omega
  show (⟨c.offset + x.utf8Size - a.offset, _⟩ : Cursor) = _
  rw [hoffset]
  rfl

end Cursor

namespace Pattern

variable {p q : Pattern} {origin : ℕ} {m n : PatternMatch}

/-! ### Patterns that ask to stand where the search begins -/

lemma Passes.offset_eq (h : Passes origin p m n) (hp : p.anchored = true) :
    m.stop.offset = origin := by
  induction h with
  | atStart h => exact h
  | cat _ _ ih _ => exact ih hp
  | group _ ih => exact ih hp
  | _ => cases hp

/-- The search for such a pattern finds nothing behind the place where it begins. -/
lemma searchFrom?_eq_matchFrom? (hp : p.anchored = true) (c : Cursor) :
    p.searchFrom? c.offset c = p.matchFrom? c.offset c := by
  obtain ⟨offset, rest⟩ := c
  cases rest with
  | nil => rfl
  | cons x rest =>
      have hlater : p.searchFrom? offset ⟨offset + x.utf8Size, rest⟩ = none := by
        refine Option.eq_none_iff_forall_ne_some.mpr fun n hn => ?_
        obtain ⟨a, hreach, hpass⟩ := passes_searchFrom? hn
        have hstart : a.offset = offset := hpass.offset_eq hp
        have hle : offset + x.utf8Size ≤ a.offset := hreach.offset_le
        have hpos := x.utf8Size_pos
        omega
      show (p.matchFrom? offset ⟨offset, x :: rest⟩
        <|> p.searchFrom? offset ⟨offset + x.utf8Size, rest⟩) = _
      rw [hlater, Option.orElse_eq_orElse, Option.orElse_eq_or, Option.or_none]

/-! ### Passages through sequences -/

lemma passes_ofParts_cons {ps : List Pattern} :
    Passes origin (ofParts (p :: ps)) m n
      ↔ ∃ k, Passes origin p m k ∧ Passes origin (ofParts ps) k n := by
  cases ps with
  | nil =>
      refine ⟨fun h => ⟨n, h, .empty⟩, ?_⟩
      rintro ⟨k, h, hempty⟩
      cases hempty
      exact h
  | cons q ps =>
      refine ⟨?_, ?_⟩
      · intro h
        cases h with
        | cat hp hps => exact ⟨_, hp, hps⟩
      · rintro ⟨k, hp, hps⟩
        exact .cat hp hps

/-- A pattern that is spread out into its parts has the same passages. -/
lemma passes_ofParts_parts : Passes origin (ofParts p.parts) m n ↔ Passes origin p m n := by
  induction p generalizing m n with
  | cat p q _ ih =>
      rw [parts, passes_ofParts_cons]
      refine ⟨?_, ?_⟩
      · rintro ⟨k, hp, hq⟩
        exact .cat hp (ih.mp hq)
      · intro h
        cases h with
        | cat hp hq => exact ⟨_, hp, ih.mpr hq⟩
  | _ => rfl

/-- Behind the start of the text, there is just the pattern that follows. -/
lemma passes_of_atStart (h : Passes origin (sequence [empty, atStart, q]) m n) :
    Passes origin q m n := by
  have hparts : sequence [empty, atStart, q] = ofParts (atStart :: q.parts) := by
    simp [sequence, parts]
  rw [hparts, passes_ofParts_cons] at h
  obtain ⟨k, hstart, hq⟩ := h
  cases hstart
  exact passes_ofParts_parts.mp hq

/-! ### Texts that are matched -/

/-- What lies around a passage does not matter to it, as no form of a pattern looks further than to
the ends of the text. -/
lemma Passes.between {a b : Cursor} (h : Passes a.offset p m n) (ha : a.offset ≤ m.stop.offset)
    (hb : n.stop.Reaches b) (cs : Captures) :
    ∃ cs', Passes 0 p ⟨a.between b m.stop, cs⟩ ⟨a.between b n.stop, cs'⟩ := by
  induction h generalizing cs with
  | empty => exact ⟨cs, .empty⟩
  | one h =>
      -- the next character lies in front of `b`, so it is there in the part as well
      obtain ⟨x, rest, hrest, hx, rfl⟩ := PatternMatch.mem_take.mp h
      obtain ⟨hrest', hpast⟩ := Cursor.between_past hrest ha hb
      refine ⟨cs, .one (PatternMatch.mem_take.mpr ⟨x, _, hrest', hx, ?_⟩)⟩
      rw [hpast]
  | atStart h =>
      refine ⟨cs, .atStart ?_⟩
      rw [Cursor.between, h, Nat.sub_self]
  | atEnd h =>
      -- what ends at the end of the line ends at the end of the part
      refine ⟨cs, .atEnd ?_⟩
      rw [Cursor.between, Cursor.textTo, h, Cursor.textWithin]
  | cat hp hq ihp ihq =>
      obtain ⟨cs₁, h₁⟩ := ihp ha (hq.grows.reaches.trans hb) cs
      obtain ⟨cs₂, h₂⟩ := ihq (Nat.le_trans ha hp.grows.reaches.offset_le) hb cs₁
      exact ⟨cs₂, .cat h₁ h₂⟩
  | altLeft _ ih =>
      obtain ⟨cs', h'⟩ := ih ha hb cs
      exact ⟨cs', .altLeft h'⟩
  | altRight _ ih =>
      obtain ⟨cs', h'⟩ := ih ha hb cs
      exact ⟨cs', .altRight h'⟩
  | optSome _ ih =>
      obtain ⟨cs', h'⟩ := ih ha hb cs
      exact ⟨cs', .optSome h'⟩
  | optNone => exact ⟨cs, .optNone⟩
  | starNil => exact ⟨cs, .starNil⟩
  | starSnoc hrounds hp ihs ihp =>
      obtain ⟨cs₁, h₁⟩ := ihs ha (hp.grows.reaches.trans hb) cs
      obtain ⟨cs₂, h₂⟩ := ihp (Nat.le_trans ha hrounds.grows.reaches.offset_le) hb cs₁
      exact ⟨cs₂, .starSnoc h₁ h₂⟩
  | plus hrounds hp ihs ihp =>
      obtain ⟨cs₁, h₁⟩ := ihs ha (hp.grows.reaches.trans hb) cs
      obtain ⟨cs₂, h₂⟩ := ihp (Nat.le_trans ha hrounds.grows.reaches.offset_le) hb cs₁
      exact ⟨cs₂, .plus h₁ h₂⟩
  | @group i p m n _ ih =>
      obtain ⟨cs', h'⟩ := ih ha hb (cs.start i (a.between b m.stop))
      exact ⟨_, .group (m := ⟨a.between b m.stop, cs⟩) h'⟩

/-- A pattern matches a text from its first character to its last. -/
def Matches (p : Pattern) (t : Text) : Prop :=
  ∃ n, Passes 0 p ⟨.start t, .none⟩ n ∧ n.stop.rest = []

/-- The text of a match that begins where the search does is matched. -/
lemma matches_textTo {c : Cursor} (h : p.matchFrom? c.offset c = some n) :
    p.Matches (c.textTo n.stop) := by
  obtain ⟨cs, hpass⟩ := (passes_matchFrom? h).between (Nat.le_refl _) (.refl _) .none
  rw [Cursor.between_self] at hpass
  exact ⟨_, hpass, Cursor.textTo_self n.stop⟩

end Pattern

namespace Rule

variable {r rule : Rule} {c : Cursor} {m : RuleMatch}

/-! ### The matches of written rules -/

lemma read?_pattern {name : String} {source : Text} {classify : Classification}
    (h : read? name source classify = .ok r) : Pattern.read? source = some r.pattern := by
  rw [read?] at h
  split at h
  · cases h
  · rename_i pattern hpattern
    rw [hpattern]
    split at h
    · split at h
      · exact congrArg some (congrArg Rule.pattern (Except.ok.inj h))
      · cases h
    · exact congrArg some (congrArg Rule.pattern (Except.ok.inj h))

/-- A match at an offset of a line is a match at the place with this offset. -/
lemma matchAt?_eq_some {line : Text} {offset : ℕ} (h : r.matchAt? line offset = some (some m)) :
    (Cursor.start line).Reaches m.start ∧ m.start.offset = offset
      ∧ r.match? m.start = some m := by
  rw [matchAt?] at h
  split at h
  · cases h
  · obtain ⟨c, hc, hm⟩ := Option.map_eq_some_iff.mp h
    obtain ⟨hreach, hoffset⟩ := Cursor.Reaches.of_cursorAt? hc
    rw [start_match? hm]
    exact ⟨hreach, hoffset, hm⟩

/-- The match `m` of a rule begins at an offset of a line, and the rule has matched its text. -/
structure Bound (r : Rule) (line : Text) (offset : ℕ) (m : RuleMatch) : Prop where
  offset_eq : m.start.offset = offset
  /-- The bytes of the match are those of its text. -/
  slice_eq : line.slice? m.span = some m.text
  /-- What is found first from the cursor on is what begins there. -/
  found : ∃ n, r.pattern.searchFrom? offset m.start = some n
    ∧ r.pattern.matchFrom? offset m.start = some n ∧ n.stop = m.stop
  /-- The text of the match is matched from its first character to its last. -/
  matched : r.pattern.Matches m.text

/-- This holds of each match of a pattern that asks to stand where the search begins. -/
lemma bound_of_anchored (hanchored : r.pattern.anchored = true) {line : Text} {offset : ℕ}
    (h : r.matchAt? line offset = some (some m)) : r.Bound line offset m := by
  obtain ⟨hreach, rfl, hmatch⟩ := matchAt?_eq_some h
  obtain ⟨-, n, hn, -, hm⟩ := match?_eq_some_iff.mp hmatch
  rw [Pattern.find?, if_pos hanchored] at hn
  have hstop : n.stop = m.stop := (congrArg RuleMatch.stop hm).symm
  have hsearch : r.pattern.searchFrom? m.start.offset m.start = some n :=
    (Pattern.searchFrom?_eq_matchFrom? hanchored m.start).trans hn
  have hmatched : r.pattern.Matches (m.start.textTo m.stop) := hstop ▸ Pattern.matches_textTo hn
  exact ⟨rfl, hreach.slice? (reaches_match? hmatch), ⟨n, hsearch, hn, hstop⟩, hmatched⟩

/-- **The match of a written rule begins at the cursor**, and its text is matched by the pattern,
unless a bar stands outside of all groups. If the text that was written is a pattern by itself,
there is no such bar, and this pattern has matched the text. This is about patterns in the syntax of
`Pattern.read?`: behind a word boundary, the text alone need not be matched. -/
theorem bound_matchAt? {name : String} {source : Text} {classify : Classification}
    (h : read? name source classify = .ok rule) (hr : r.pattern = rule.pattern) :
    (Pattern.strayBar source = false →
      ∀ line offset m, r.matchAt? line offset = some (some m) → r.Bound line offset m)
    ∧ ∀ p, Pattern.standalone? source = some p → Pattern.strayBar source = false
      ∧ ∀ line offset m, r.matchAt? line offset = some (some m) → p.Matches m.text := by
  have hread : Pattern.read? source = some r.pattern := hr ▸ read?_pattern h
  have hbound : Pattern.strayBar source = false →
      ∀ line offset m, r.matchAt? line offset = some (some m) → r.Bound line offset m := by
    intro hbar line offset m hm
    obtain ⟨ps, hpattern⟩ := Pattern.exists_of_read? hread hbar
    exact bound_of_anchored (hpattern ▸ Pattern.anchored_sequence_atStart ps) hm
  refine ⟨hbound, fun p hp => ?_⟩
  have hbar := Pattern.strayBar_of_standalone? hp
  refine ⟨hbar, fun line offset m hm => ?_⟩
  obtain ⟨n, hpass, hend⟩ := (hbound hbar line offset m hm).matched
  rw [Pattern.read?_of_standalone? hp hread] at hpass
  exact ⟨n, Pattern.passes_of_atStart hpass, hend⟩

/-- An `a` and then, in a group, a `b` or a `c`. -/
def choicePattern : Pattern :=
  .cat (.one (.ofVariants 'a')) (.group 0 (.one (.of [('B', 'C'), ('b', 'c')])))

/-- A rule for this pattern. -/
def choice : Rule := .anchored "choice" choicePattern (.fixed .string)

/-- The rule can be written as a pattern by itself. It can also be written with a bracket that ends
the group around the text, since the bar is inside of the group that follows. -/
theorem bound_matchAt?_choice :
    read? "choice" "a)(b|c".toList (.fixed .string) = .ok choice
      ∧ Pattern.strayBar "a)(b|c".toList = false
      ∧ read? "choice" "a(b|c)".toList (.fixed .string) = .ok choice
      ∧ Pattern.standalone? "a(b|c)".toList = some choicePattern
      ∧ ∃ m, choice.matchAt? ['x', 'a', 'c'] 1 = some (some m)
        ∧ choice.Bound ['x', 'a', 'c'] 1 m ∧ choicePattern.Matches m.text := by
  have hsplit : read? "choice" "a)(b|c".toList (.fixed .string) = .ok choice := rfl
  have hbar : Pattern.strayBar "a)(b|c".toList = false := rfl
  have hwhole : read? "choice" "a(b|c)".toList (.fixed .string) = .ok choice := rfl
  have hp : Pattern.standalone? "a(b|c)".toList = some choicePattern := rfl
  have hm : choice.matchAt? ['x', 'a', 'c'] 1 = some (some ⟨⟨1, ['a', 'c']⟩, ⟨3, []⟩, []⟩) := rfl
  have hbound := (bound_matchAt? hsplit rfl).1 hbar _ _ _ hm
  have hmatched := ((bound_matchAt? hwhole rfl).2 _ hp).2 _ _ _ hm
  exact ⟨hsplit, hbar, hwhole, hp, _, hm, hbound, hmatched⟩

/-- A rule with a bar behind a bracket that ends the group around the text. -/
def stray : Rule where
  name := "stray"
  pattern := .alt (.cat .atStart (.one (.ofVariants 'a'))) (.group 0 (.one (.ofVariants 'b')))
  classify := .fixed .string

/-- With a bar outside of all groups, the text of a match need not be matched, and there need not be
a match that begins at the cursor. -/
theorem matchAt?_strayBar :
    read? "stray" "a)|(b".toList (.fixed .string) = .ok stray
      ∧ Pattern.strayBar "a)|(b".toList = true
      ∧ ∃ m, stray.matchAt? ['x', 'b'] 0 = some (some m) ∧ m.text = ['x', 'b']
        ∧ stray.pattern.matchFrom? 0 m.start = none ∧ ¬stray.pattern.Matches m.text := by
  refine ⟨rfl, rfl, ⟨⟨0, ['x', 'b']⟩, ⟨2, []⟩, []⟩, rfl, rfl, rfl, ?_⟩
  rintro ⟨n, hpass, -⟩
  -- Neither alternative can take the `x`.
  cases hpass with
  | altLeft hleft =>
      cases hleft with
      | cat hstart hone =>
          cases hstart
          cases hone with
          | one h => cases h
  | altRight hright =>
      cases hright with
      | group hone =>
          cases hone with
          | one h => cases h

end Rule

end ShellSyntax
