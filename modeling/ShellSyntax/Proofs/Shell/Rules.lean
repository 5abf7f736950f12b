import Mathlib.Data.List.Basic
import Mathlib.Tactic.Common
import ShellSyntax.Proofs.Language.Tiling
import ShellSyntax.Proofs.Pattern.Preferred
import ShellSyntax.Settings

/-!
The table of the shell language.

* `Language.IsShell`: a language is the shell language, with or without a user's words. All of them
  have the rules of `Shell.rules`;
* `Shell.steady_rules`, `Shell.anchored_rules`, `Shell.nullable_rules`: all patterns of the table
  are steady and bound to the cursor, so that each match is the most preferred way, and need a
  character;
* `Shell.match?_eq_none`, `Shell.match?_eq_some`, `Shell.match?_eq`: where a rule of the table
  matches;
* `Shell.bodies`: the states between quotes and between brackets;
* `Shell.mem_openingRules`: only the openings of here-documents and here-strings classify by groups;
* `Shell.Parts`, `Shell.parts_of_match`: the five groups of an opening follow each other without
  gaps, and the tag is a word;
* `Shell.covers_tokensOf`: the tokens of any match of the table cover it.
-/

namespace ShellSyntax

/-- A language is the shell language, with or without a user's words. -/
def Language.IsShell (l : Language) : Prop := l = shell ∨ ∃ s : Settings, l = s.language

lemma Language.IsShell.rules_eq {l : Language} (h : l.IsShell) : l.rules = Shell.rules := by
  rcases h with rfl | ⟨s, rfl⟩ <;> rfl

namespace Shell

open Pattern

/-! ### The patterns of the table -/

lemma steady_rules (s : State) : ∀ r ∈ rules s, r.pattern.steady = true := by
  cases s <;> decide

lemma anchored_rules (s : State) : ∀ r ∈ rules s, r.pattern.anchored = true := by
  cases s <;> decide

/-- The match of a rule of the table is the most preferred way through its pattern. -/
lemma mem_ways_of_match {s : State} {r : Rule} (hr : r ∈ rules s) {c : Cursor} {m : RuleMatch}
    (h : r.match? c = some m) : ∃ n ∈ r.pattern.ways c.offset ⟨c, .none⟩,
      m = ⟨c, n.stop, r.groupsOf n.captures⟩ := by
  obtain ⟨-, n, hfound, -, rfl⟩ := Rule.match?_eq_some_iff.mp h
  rw [find?_eq_head? (steady_rules s r hr) (anchored_rules s r hr)] at hfound
  exact ⟨n, List.mem_of_head? hfound, rfl⟩

lemma nullable_rules (s : State) : ∀ r ∈ rules s, r.pattern.nullable = false := by
  cases s <;> decide

/-- A rule of the table does not match where there is no way through its pattern. -/
lemma match?_eq_none {s : State} {r : Rule} (hr : r ∈ rules s) {c : Cursor}
    (hnil : r.pattern.ways c.offset ⟨c, .none⟩ = []) : r.match? c = none := by
  refine Option.eq_none_iff_forall_ne_some.mpr fun m hm => ?_
  obtain ⟨n, hn, -⟩ := mem_ways_of_match hr hm
  rw [hnil] at hn
  cases hn

/-- A rule of the table does not match where its pattern cannot begin with the next character. -/
lemma match?_eq_none_of_begins {s : State} {r : Rule} (hr : r ∈ rules s) {c : Cursor} {x : Char}
    {rest : Text} (hrest : c.rest = x :: rest) (hx : r.pattern.begins x = false) :
    r.match? c = none :=
  match?_eq_none hr (ways_eq_nil (nullable_rules s r hr) hrest hx)

/-- A rule of the table that may apply matches the preferred way through its pattern. -/
lemma match?_eq_some {s : State} {r : Rule} (hr : r ∈ rules s) {c : Cursor} {n : PatternMatch}
    (happlies : r.applies c = true) (hn : (r.pattern.ways c.offset ⟨c, .none⟩).head? = some n) :
    r.match? c = some ⟨c, n.stop, r.groupsOf n.captures⟩ := by
  have hfind : r.pattern.find? c = some n := by
    rw [find?_eq_head? (steady_rules s r hr) (anchored_rules s r hr), hn]
  have hlt : c.offset < n.stop.offset :=
    lt_ways (m := ⟨c, .none⟩) (nullable_rules s r hr) (List.mem_of_head? hn)
  exact Rule.match?_eq_some_iff.mpr ⟨happlies, n, hfind, by omega, rfl⟩

/-- A rule of the table matches just where there is a way through its pattern, and takes the
preferred one. -/
lemma match?_eq {s : State} {r : Rule} (hr : r ∈ rules s) {c : Cursor}
    (happlies : r.applies c = true) :
    r.match? c = (r.pattern.ways c.offset ⟨c, .none⟩).head?.map fun n =>
      ⟨c, n.stop, r.groupsOf n.captures⟩ := by
  cases hn : (r.pattern.ways c.offset ⟨c, .none⟩).head? with
  | none => exact match?_eq_none hr (List.head?_eq_none_iff.mp hn)
  | some n => exact match?_eq_some hr happlies hn

/-- The states that can be entered from the text of a script or of a here-document. -/
def bodies : List State :=
  [.singleQuoted, .doubleQuoted, .ansiQuoted, .localeQuoted, .substitution, .expansion]

/-- The states that can be entered from within double quotes. -/
def expansions : List State := [.substitution, .expansion]

/-- Whether a rule classifies by groups. -/
def hasGroups (r : Rule) : Bool :=
  match r.classify with
  | .groups _ => true
  | _ => false

/-- Only the openings of here-documents and here-strings classify by groups. -/
lemma mem_openingRules (s : State) : ∀ r ∈ rules s, hasGroups r = true → r ∈ openingRules := by
  cases s <;> decide

/-! ### The parts of an opening -/

/-- What the groups of an opening took: operator, blanks, quote, tag and quote, each right behind
the one before it. The tag is a word. -/
def Parts (c stop : Cursor) (groups : List (Option Capture)) : Prop :=
  ∃ a b d e : Cursor,
    groups = [some ⟨c, a⟩, some ⟨a, b⟩, some ⟨b, d⟩, some ⟨d, e⟩, some ⟨e, stop⟩]
      ∧ c.Reaches a ∧ a.Reaches b ∧ b.Reaches d ∧ d.Reaches e ∧ e.Reaches stop
      ∧ d.textTo e ≠ [] ∧ ∀ x ∈ d.textTo e, tagChar.mem x = true

lemma parts_of_way {operator : Pattern} (hoperator : operator.groupCount = 0) {c : Cursor}
    {n : PatternMatch} (h : n ∈ (cat .atStart (opening operator)).ways c.offset ⟨c, .none⟩) :
    Parts c n.stop ((List.range 5).map n.captures.get?) := by
  obtain ⟨n₀, h₀, h⟩ := List.mem_flatMap.mp h
  obtain ⟨n₁, h₁, h⟩ := List.mem_flatMap.mp h
  obtain ⟨n₂, h₂, h⟩ := List.mem_flatMap.mp h
  obtain ⟨n₃, h₃, h⟩ := List.mem_flatMap.mp h
  obtain ⟨n₄, h₄, h₅⟩ := List.mem_flatMap.mp h
  obtain rfl : n₀ = ⟨c, .none⟩ := by simpa [ways] using h₀
  obtain ⟨hr₁, hc₁⟩ := mem_ways_group hoperator h₁
  obtain ⟨hr₂, hc₂⟩ := mem_ways_group rfl h₂
  obtain ⟨hr₃, hc₃⟩ := mem_ways_group rfl h₃
  obtain ⟨hr₄, hc₄⟩ := mem_ways_group rfl h₄
  obtain ⟨hr₅, hc₅⟩ := mem_ways_group rfl h₅
  -- the tag, within its group
  obtain ⟨n', hn', heq⟩ := List.mem_map.mp h₄
  obtain ⟨t, rest, hne, hrest, ht, rfl⟩ := mem_ways_plus_one.mp hn'
  have htag : n₃.stop.textTo n₄.stop = t := Cursor.textTo_eq (by rw [← heq]; exact hrest)
    (by rw [← heq]; rfl)
  refine ⟨n₁.stop, n₂.stop, n₃.stop, n₄.stop, ?_, hr₁, hr₂, hr₃, hr₄, hr₅, ?_, ?_⟩
  · rw [hc₅, hc₄, hc₃, hc₂, hc₁]
    rfl
  · rwa [htag]
  · rwa [htag]

lemma parts_of_match {s : State} {r : Rule} (hr : r ∈ rules s) (hgroups : hasGroups r = true)
    {c : Cursor} {m : RuleMatch} (h : r.match? c = some m) :
    r.classify = .groups openingKinds ∧ Parts c m.stop m.groups := by
  obtain ⟨n, hn, rfl⟩ := mem_ways_of_match hr h
  have hopening := mem_openingRules s r hr hgroups
  rw [openingRules, List.mem_cons, List.mem_singleton] at hopening
  rcases hopening with rfl | rfl
  · exact ⟨rfl, parts_of_way rfl hn⟩
  · exact ⟨rfl, parts_of_way rfl hn⟩

/-- The tokens of a match cover it. -/
lemma covers_tokensOf {l : Language} {s : State} {r : Rule} (hr : r ∈ rules s) {c : Cursor}
    {m : RuleMatch} (h : r.match? c = some m) : Covers c m.stop (l.tokensOf r m) := by
  cases hgroups : hasGroups r with
  | false =>
      refine Language.covers_tokensOf h fun kinds hkinds => ?_
      rw [hasGroups, hkinds] at hgroups
      cases hgroups
  | true =>
      obtain ⟨hclassify, a, b, d, e, heq, hca, hab, hbd, hde, hstop, -⟩ :=
        parts_of_match hr hgroups h
      have hmap : (m.groups.zip openingKinds).map Prod.fst = m.groups := by
        rw [heq]
        rfl
      have hwithin : ∀ g, some g ∈ m.groups →
          c.Reaches g.start ∧ c.Reaches g.stop ∧ g.stop.Reaches m.stop := by
        intro g hg
        obtain ⟨hstart, hg, hstop⟩ := Rule.groups_within h hg
        exact ⟨hstart, hstart.trans hg, hstop⟩
      have horder : InOrder c.offset m.groups := by
        rw [heq]
        exact .cons (Nat.le_refl _) hca <| .cons (Nat.le_refl _) hab <|
          .cons (Nat.le_refl _) hbd <| .cons (Nat.le_refl _) hde <|
          .cons (Nat.le_refl _) hstop trivial
      rw [Language.tokensOf, hclassify, Rule.start_match? h]
      exact Language.covers_groupTokens _ (.refl c) (Rule.reaches_match? h) (by rwa [hmap])
        (by rwa [hmap])

end Shell

end ShellSyntax
