import Mathlib.Data.List.Basic
import Mathlib.Tactic.Common
import ShellSyntax.Proofs.Pattern.Lockstep
import ShellSyntax.Proofs.Pattern.Passage
import ShellSyntax.Rule

/-!
What the match of a rule is.

* `Pattern.reaches_find?`, `Pattern.within_find?`: the match of any pattern ends in the same line,
  at or behind the place where it was looked for, and what its groups took lies within it;
* `Pattern.find?_eq_head?`: the match of a steady pattern that is bound to the cursor is the most
  preferred way;
* `Rule.match?_eq_some_iff`: when a rule matches, and what its match holds;
* `Rule.start_match?`, `Rule.reaches_match?`, `Rule.lt_match?`: a match begins at the cursor and
  gets on;
* `Rule.groups_within`: the groups of a match lie within it;
* `Rule.Built`: the rules that can be built. Those that classify by groups have one kind for each.
-/

namespace ShellSyntax

namespace Pattern

variable {p : Pattern}

/-- A match ends in the same line, at or behind the place where it was looked for. -/
lemma reaches_find? {c : Cursor} {m : PatternMatch} (h : p.find? c = some m) :
    c.Reaches m.stop := by
  obtain ⟨a, hreach, hpass⟩ := passes_find? h
  exact hreach.trans hpass.grows.reaches

/-- What a group of a match took lies within the match. -/
lemma within_find? {c : Cursor} {m : PatternMatch} (h : p.find? c = some m) {i : ℕ} {g : Capture}
    (hg : m.captures.get? i = some g) :
    c.Reaches g.start ∧ g.start.Reaches g.stop ∧ g.stop.Reaches m.stop := by
  obtain ⟨a, hreach, hpass⟩ := passes_find? h
  obtain ⟨b, hstart, hg⟩ := Option.bind_eq_some_iff.mp hg
  obtain ⟨d, hstop, rfl⟩ := Option.map_eq_some_iff.mp hg
  rcases hpass.grows.captures i with ⟨hnone, -⟩ | ⟨b', d', hstart', hstop', hb, hbd, hd⟩
  · cases hnone.symm.trans hstart
  · obtain rfl := Option.some.inj (hstart'.symm.trans hstart)
    obtain rfl := Option.some.inj (hstop'.symm.trans hstop)
    exact ⟨hreach.trans hb, hbd, hd⟩

/-- The match of a steady pattern that is bound to the cursor is its most preferred way. -/
lemma find?_eq_head? (hp : p.steady) (hanchored : p.anchored) (c : Cursor) :
    p.find? c = (p.ways c.offset ⟨c, .none⟩).head? := by
  rw [find?, if_pos hanchored, matchFrom?_eq_head? hp]

end Pattern

namespace Rule

variable {r : Rule} {c : Cursor} {m : RuleMatch}

/-- What the groups of a rule took, if the rule classifies by groups. -/
def groupsOf (r : Rule) (cs : Captures) : List (Option Capture) :=
  match r.classify with
  | .groups _ => (List.range r.pattern.groupCount).map cs.get?
  | _ => []

/-- A rule matches where its pattern takes something, and may apply. -/
lemma match?_eq_some_iff :
    r.match? c = some m ↔ r.applies c = true ∧ ∃ found, r.pattern.find? c = some found
      ∧ found.stop.offset ≠ c.offset ∧ m = ⟨c, found.stop, r.groupsOf found.captures⟩ := by
  rw [match?]
  split
  · rename_i happlies
    rw [Option.bind_eq_some_iff]
    refine ⟨?_, ?_⟩
    · rintro ⟨found, hfound, h⟩
      split at h
      · cases h
      · rename_i hne
        exact ⟨happlies, found, hfound, hne, (Option.some.inj h).symm⟩
    · rintro ⟨-, found, hfound, hne, rfl⟩
      refine ⟨found, hfound, ?_⟩
      rw [if_neg hne]
      rfl
  · rename_i happlies
    simp [happlies]

lemma start_match? (h : r.match? c = some m) : m.start = c := by
  obtain ⟨-, found, -, -, rfl⟩ := match?_eq_some_iff.mp h
  rfl

lemma reaches_match? (h : r.match? c = some m) : c.Reaches m.stop := by
  obtain ⟨-, found, hfound, -, rfl⟩ := match?_eq_some_iff.mp h
  exact Pattern.reaches_find? hfound

/-- A match takes at least one character. -/
lemma lt_match? (h : r.match? c = some m) : c.offset < m.stop.offset := by
  obtain ⟨-, found, hfound, hne, rfl⟩ := match?_eq_some_iff.mp h
  exact Nat.lt_of_le_of_ne (Pattern.reaches_find? hfound).offset_le (Ne.symm hne)

/-- The groups of a match lie within it. -/
lemma groups_within (h : r.match? c = some m) {g : Capture} (hg : some g ∈ m.groups) :
    c.Reaches g.start ∧ g.start.Reaches g.stop ∧ g.stop.Reaches m.stop := by
  obtain ⟨-, found, hfound, -, rfl⟩ := match?_eq_some_iff.mp h
  have hgroups : some g ∈ r.groupsOf found.captures := hg
  rw [groupsOf] at hgroups
  split at hgroups
  · obtain ⟨i, -, hi⟩ := List.mem_map.mp hgroups
    exact Pattern.within_find? hfound hi
  · cases hgroups

/-- A rule that is not for a tag stands under any. -/
lemma accepts_of_ne (h : r.tag ≠ .close) (m : RuleMatch) (tag : Option Text) :
    r.accepts m tag = true := by
  rw [accepts]
  split
  · rename_i hclose
    exact absurd hclose h
  · rfl

/-- At a place of a line no rule faults. -/
lemma matchAt?_eq {line : Text} (h : (Cursor.start line).Reaches c) :
    r.matchAt? line c.offset = some (r.match? c) := by
  have hsize := h.size_eq
  rw [matchAt?]
  split
  · rename_i hnone
    rw [Bool.or_eq_true, decide_eq_true_eq] at hnone
    rw [match?, if_neg]
    rcases hnone with hend | hstart
    · rw [applies, Text.eq_nil_of_size (t := c.rest) (by omega)]
      simp
    · simp only [Bool.and_eq_true, decide_eq_true_eq] at hstart
      simp [applies, hstart]
  · rw [h.cursorAt?]
    rfl

/-! ### Rules as they can be built -/

/-- A rule that was built from a pattern, written or put together, with one kind for each group if
it classifies by groups. -/
inductive Built : Rule → Prop where
  | read {name : String} {source : Text} {classify : Classification} {r : Rule}
      (h : read? name source classify = .ok r) : Built r
  | anchored {name : String} {pattern : Pattern} {classify : Classification}
      (h : ∀ kinds, classify = .groups kinds → pattern.groupCount = kinds.length) :
      Built (.anchored name pattern classify)
  | pushing {r : Rule} (state : State) (h : Built r) : Built (r.pushing state)
  | popping {r : Rule} (h : Built r) : Built r.popping
  | poppingAll {r : Rule} (h : Built r) : Built r.poppingAll
  | atLineStart {r : Rule} (h : Built r) : Built r.atLineStart
  | capturingTag {r : Rule} (group : ℕ) (h : Built r) : Built (r.capturingTag group)
  | closingTag {r : Rule} (h : Built r) : Built r.closingTag

lemma Built.groupCount_eq (h : r.Built) {kinds : List TokenKind}
    (hkinds : r.classify = .groups kinds) : r.pattern.groupCount = kinds.length := by
  induction h with
  | @read name source classify r h =>
      rw [read?] at h
      split at h
      · cases h
      · split at h
        · rename_i kinds'
          split at h
          · rename_i hcount
            obtain rfl := Except.ok.inj h
            obtain rfl : kinds' = kinds := Classification.groups.inj hkinds
            exact hcount
          · cases h
        · rename_i hnone
          obtain rfl := Except.ok.inj h
          exact absurd hkinds (hnone kinds)
  | anchored h => exact (Nat.zero_add _).trans (h kinds hkinds)
  | pushing _ _ ih | popping _ ih | poppingAll _ ih | atLineStart _ ih | capturingTag _ _ ih
  | closingTag _ ih => exact ih hkinds

/-- The groups of a match of such a rule have one kind each. -/
lemma Built.map_fst_zip (h : r.Built) (hm : r.match? c = some m) {kinds : List TokenKind}
    (hkinds : r.classify = .groups kinds) : (m.groups.zip kinds).map Prod.fst = m.groups := by
  obtain ⟨-, found, -, -, rfl⟩ := match?_eq_some_iff.mp hm
  refine List.map_fst_zip (Nat.le_of_eq ?_)
  show (r.groupsOf found.captures).length = kinds.length
  rw [groupsOf, hkinds, List.length_map, List.length_range, h.groupCount_eq hkinds]

end Rule

end ShellSyntax
