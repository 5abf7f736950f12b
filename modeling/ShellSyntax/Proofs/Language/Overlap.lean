import Mathlib.Data.List.Basic
import Mathlib.Data.List.Chain
import Mathlib.Data.List.ReduceOption
import Mathlib.Tactic.Common
import ShellSyntax.Proofs.Language.Tiling

/-!
Tokens that overlap.

Groups within groups, and groups that are repeated, can make the tokens of a match go back in the
line.

* `Ordered`: of the groups of a match that took something, each begins at or behind the end of the
  one before it. `inOrder_iff` compares this with the order that tiles a match;
* `Language.exists_mem_groupTokens`, `Language.between_groupTokens`: in whatever order groups stand,
  each byte of a match lies in a token, and each token within the match;
* `Language.inOrder_of_contiguous`: tokens that follow each other come from groups in order;
* `Language.Ends`: the run over a line without a bound on the steps;
* `Language.Faultless`: where the tokenizer looks for a match, no rule faults, and what is cut out
  of the line for a match can be cut out;
* `Language.tokenizeLine_covers`: the tokens of a line cover it, whatever the language. They make it
  up just if the groups of each match are in order.
-/

namespace ShellSyntax

/-! ### Groups in order -/

/-- The groups that took something. -/
def tookSome (groups : List (Option Capture)) : List Capture :=
  groups.reduceOption.filter fun g => g.start.offset < g.stop.offset

/-- Of the groups that took something, each begins at or behind the end of the one before it. -/
def Ordered (groups : List (Option Capture)) : Prop :=
  (tookSome groups).IsChain fun g h => g.stop.offset ≤ h.start.offset

/-- The tokens follow each other: each begins where the one before it ends. -/
def Contiguous (tokens : List Token) : Prop := tokens.IsChain fun t u => t.stop = u.start

lemma inOrder_iff {offset : ℕ} {groups : List (Option Capture)} :
    InOrder offset groups
      ↔ (∀ g ∈ (tookSome groups).head?, offset ≤ g.start.offset) ∧ Ordered groups := by
  induction groups generalizing offset with
  | nil => simp [InOrder, tookSome, Ordered]
  | cons group groups ih =>
      cases group with
      | none => exact ih
      | some g =>
          rw [InOrder]
          split
          · rename_i hempty
            have hskip : tookSome (some g :: groups) = tookSome groups := by
              rw [tookSome, List.reduceOption_cons_of_some,
                List.filter_cons_of_neg (by simpa using hempty)]
              rfl
            rw [ih, Ordered, Ordered, hskip]
          · rename_i hnonempty
            have hcons : tookSome (some g :: groups) = g :: tookSome groups := by
              rw [tookSome, List.reduceOption_cons_of_some,
                List.filter_cons_of_pos (by simpa using hnonempty)]
              rfl
            rw [ih, Ordered, Ordered, hcons, List.isChain_cons]
            simp

lemma Tiles.contiguous {first last : ℕ} {tokens : List Token} (h : Tiles first last tokens) :
    Contiguous tokens := by
  induction tokens generalizing first with
  | nil => exact .nil
  | cons t tokens ih =>
      obtain ⟨-, -, hrest⟩ := h
      refine List.isChain_cons.mpr ⟨fun u hu => ?_, ih hrest⟩
      obtain ⟨later, rfl⟩ := List.head?_eq_some_iff.mp hu
      exact hrest.1.symm

lemma Tiles.lt {first last : ℕ} {tokens : List Token} (h : Tiles first last tokens) :
    ∀ t ∈ tokens, t.start < t.stop := by
  induction tokens generalizing first with
  | nil => exact fun t ht => absurd ht List.not_mem_nil
  | cons t tokens ih => exact List.forall_mem_cons.mpr ⟨h.2.1, ih h.2.2⟩

namespace Language

variable {l : Language} {s : LineState} {a b c : Cursor} {r : Rule} {m : RuleMatch}

/-! ### The tokens of groups -/

section GroupTokens

variable {groups : List (Option Capture × TokenKind)} {g : Capture} {kind : TokenKind}
  {offset stop : ℕ}

lemma groupTokens_of_le (h : g.stop.offset ≤ g.start.offset) :
    groupTokens stop offset ((some g, kind) :: groups) = groupTokens stop offset groups := by
  rw [groupTokens]
  exact if_pos h

lemma groupTokens_of_lt (h : g.start.offset < g.stop.offset) :
    groupTokens stop offset ((some g, kind) :: groups)
      = (if offset < g.start.offset then [.ofSpan ⟨offset, g.start.offset⟩ .plain] else [])
        ++ .ofSpan g.span kind :: groupTokens stop g.stop.offset groups := by
  rw [groupTokens]
  exact if_neg (Nat.not_le_of_lt h)

/-- Each byte of a match lies in a token, in whatever order its groups stand. -/
lemma exists_mem_groupTokens {n : ℕ} (hle : offset ≤ n) (hlt : n < stop) :
    ∃ t ∈ groupTokens stop offset groups, t.start ≤ n ∧ n < t.stop := by
  induction groups generalizing offset with
  | nil =>
      rw [groupTokens, if_pos (by omega)]
      exact ⟨_, List.mem_singleton_self _, hle, hlt⟩
  | cons group groups ih =>
      obtain ⟨group, kind⟩ := group
      cases group with
      | none => exact ih hle
      | some g =>
          rcases Nat.lt_or_ge g.start.offset g.stop.offset with hg | hg
          · rw [groupTokens_of_lt hg]
            rcases Nat.lt_or_ge n g.start.offset with hbefore | hbefore
            · refine ⟨.ofSpan ⟨offset, g.start.offset⟩ .plain, ?_, hle, hbefore⟩
              rw [if_pos (by omega)]
              exact List.mem_append_left _ (List.mem_singleton_self _)
            · rcases Nat.lt_or_ge n g.stop.offset with hwithin | hbehind
              · exact ⟨.ofSpan g.span kind, List.mem_append_right _ List.mem_cons_self, hbefore,
                  hwithin⟩
              · obtain ⟨t, ht, hn⟩ := ih hbehind
                exact ⟨t, List.mem_append_right _ (List.mem_cons_of_mem _ ht), hn⟩
          · rw [groupTokens_of_le hg]
            exact ih hle

/-- The first token begins at the start, if no group begins before it. -/
lemma le_head?_groupTokens (hgroups : ∀ g, some g ∈ groups.map Prod.fst → offset ≤ g.start.offset) :
    ∀ t ∈ (groupTokens stop offset groups).head?, offset ≤ t.start := by
  induction groups with
  | nil =>
      rw [groupTokens]
      split <;> simp [Token.ofSpan]
  | cons group groups ih =>
      have htail : ∀ g, some g ∈ groups.map Prod.fst → offset ≤ g.start.offset :=
        fun g hg => hgroups g (List.mem_cons_of_mem _ hg)
      obtain ⟨group, kind⟩ := group
      cases group with
      | none => exact ih htail
      | some g =>
          rcases Nat.lt_or_ge g.start.offset g.stop.offset with hg | hg
          · have hle : offset ≤ g.start.offset := hgroups g List.mem_cons_self
            rw [groupTokens_of_lt hg]
            split
            · simp [Token.ofSpan]
            · intro t ht
              obtain rfl := Option.some.inj ht
              exact hle
          · rw [groupTokens_of_le hg]
            exact ih htail

/-- If the tokens of groups follow each other, the groups are in order. -/
lemma inOrder_of_contiguous
    (hfirst : ∀ t ∈ (groupTokens stop offset groups).head?, offset ≤ t.start)
    (h : Contiguous (groupTokens stop offset groups)) :
    InOrder offset (groups.map Prod.fst) := by
  induction groups generalizing offset with
  | nil => trivial
  | cons group groups ih =>
      obtain ⟨group, kind⟩ := group
      cases group with
      | none => exact ih hfirst h
      | some g =>
          rw [List.map_cons, InOrder]
          rcases Nat.lt_or_ge g.start.offset g.stop.offset with hg | hg
          · rw [if_neg (Nat.not_le_of_lt hg)]
            rw [groupTokens_of_lt hg] at hfirst h
            have hlater := List.IsChain.right_of_append h
            obtain ⟨hnext, hrest⟩ := List.isChain_cons.mp hlater
            refine ⟨?_, ih (fun t ht => Nat.le_of_eq (hnext t ht)) hrest⟩
            by_contra hlt
            rw [if_neg (by omega)] at hfirst
            exact hlt (hfirst _ rfl)
          · rw [if_pos hg]
            rw [groupTokens_of_le hg] at hfirst h
            exact ih hfirst h

/-- A token lies between two places, and takes something. -/
def Between (a b : Cursor) (t : Token) : Prop :=
  ∃ c d, a.Reaches c ∧ c.Reaches d ∧ d.Reaches b ∧ c.offset < d.offset ∧ t.toSpan = c.spanTo d

lemma between_groupTokens (ha : c.Reaches a) (hb : a.Reaches b)
    (hgroups : ∀ g, some g ∈ groups.map Prod.fst →
      c.Reaches g.start ∧ g.start.Reaches g.stop ∧ g.stop.Reaches b) :
    ∀ t ∈ groupTokens b.offset a.offset groups, Between c b t := by
  induction groups generalizing a with
  | nil =>
      intro t ht
      rw [groupTokens] at ht
      split at ht
      · rename_i hlt
        obtain rfl := List.mem_singleton.mp ht
        exact ⟨a, b, ha, hb, .refl b, hlt, rfl⟩
      · cases ht
  | cons group groups ih =>
      have htail : ∀ g, some g ∈ groups.map Prod.fst →
          c.Reaches g.start ∧ g.start.Reaches g.stop ∧ g.stop.Reaches b :=
        fun g hg => hgroups g (List.mem_cons_of_mem _ hg)
      obtain ⟨group, kind⟩ := group
      cases group with
      | none => exact ih ha hb htail
      | some g =>
          obtain ⟨hstart, hstop, hend⟩ := hgroups g List.mem_cons_self
          rcases Nat.lt_or_ge g.start.offset g.stop.offset with hg | hg
          · -- a token in front of the group if it lies behind, the group's, and later ones
            intro t ht
            rw [groupTokens_of_lt hg] at ht
            rcases List.mem_append.mp ht with ht | ht
            · split at ht
              · rename_i hlt
                obtain rfl := List.mem_singleton.mp ht
                exact ⟨a, g.start, ha, ha.of_le hstart (Nat.le_of_lt hlt), hstop.trans hend, hlt,
                  rfl⟩
              · cases ht
            · rcases List.mem_cons.mp ht with rfl | ht
              · exact ⟨g.start, g.stop, hstart, hstop, hend, hg, rfl⟩
              · exact ih (hstart.trans hstop) hend htail t ht
          · -- a group that took nothing has no token
            rw [groupTokens_of_le hg]
            exact ih ha hb htail

end GroupTokens

/-! ### The tokens of a match -/

/-- A match that does not classify by groups is one token. -/
lemma exists_tokensOf_eq (hclassify : ∀ kinds, r.classify ≠ .groups kinds) :
    ∃ kind, l.tokensOf r m = [.ofSpan m.span kind] := by
  rw [tokensOf]
  cases hkinds : r.classify with
  | groups kinds => exact absurd hkinds (hclassify kinds)
  | _ => exact ⟨_, rfl⟩

/-- Each byte of a match lies in a token. -/
lemma exists_mem_tokensOf (hm : r.match? c = some m) {n : ℕ} (hle : c.offset ≤ n)
    (hlt : n < m.stop.offset) : ∃ t ∈ l.tokensOf r m, t.start ≤ n ∧ n < t.stop := by
  by_cases hclassify : ∃ kinds, r.classify = .groups kinds
  · obtain ⟨kinds, hkinds⟩ := hclassify
    rw [tokensOf, hkinds, Rule.start_match? hm]
    exact exists_mem_groupTokens hle hlt
  · obtain ⟨kind, hkind⟩ := exists_tokensOf_eq (l := l) (m := m) (not_exists.mp hclassify)
    rw [hkind, RuleMatch.span, Rule.start_match? hm]
    exact ⟨_, List.mem_singleton_self _, hle, hlt⟩

/-- The tokens of a match lie within it. -/
lemma between_tokensOf (hr : r.Built) (hm : r.match? c = some m) :
    ∀ t ∈ l.tokensOf r m, Between c m.stop t := by
  have hreach := Rule.reaches_match? hm
  by_cases hclassify : ∃ kinds, r.classify = .groups kinds
  · obtain ⟨kinds, hkinds⟩ := hclassify
    rw [tokensOf, hkinds, Rule.start_match? hm]
    refine between_groupTokens (.refl c) hreach ?_
    rw [hr.map_fst_zip hm hkinds]
    exact fun g hg => Rule.groups_within hm hg
  · obtain ⟨kind, hkind⟩ := exists_tokensOf_eq (l := l) (m := m) (not_exists.mp hclassify)
    rw [hkind, RuleMatch.span, Rule.start_match? hm]
    exact List.forall_mem_singleton.mpr
      ⟨c, m.stop, .refl c, hreach, .refl _, Rule.lt_match? hm, rfl⟩

/-- The tokens of a match that classifies by groups follow each other just if the groups are in
order. Then they cover the match. -/
lemma ordered_of_contiguous (hr : r.Built) (hm : r.match? c = some m) {kinds : List TokenKind}
    (hkinds : r.classify = .groups kinds) (h : Contiguous (l.tokensOf r m)) : Ordered m.groups := by
  have hwithin : ∀ g, some g ∈ (m.groups.zip kinds).map Prod.fst → c.offset ≤ g.start.offset := by
    rw [hr.map_fst_zip hm hkinds]
    exact fun g hg => (Rule.groups_within hm hg).1.offset_le
  rw [tokensOf, hkinds, Rule.start_match? hm] at h
  have horder := inOrder_of_contiguous (le_head?_groupTokens hwithin) h
  rw [hr.map_fst_zip hm hkinds] at horder
  exact (inOrder_iff.mp horder).2

lemma covers_of_ordered (hr : r.Built) (hm : r.match? c = some m)
    (h : ∀ kinds, r.classify = .groups kinds → Ordered m.groups) :
    Covers c m.stop (l.tokensOf r m) := by
  by_cases hclassify : ∃ kinds, r.classify = .groups kinds
  · obtain ⟨kinds, hkinds⟩ := hclassify
    have hwithin : ∀ g, some g ∈ m.groups →
        c.Reaches g.start ∧ c.Reaches g.stop ∧ g.stop.Reaches m.stop := by
      intro g hg
      obtain ⟨hstart, hg, hstop⟩ := Rule.groups_within hm hg
      exact ⟨hstart, hstart.trans hg, hstop⟩
    have hfirst : ∀ g ∈ (tookSome m.groups).head?, c.offset ≤ g.start.offset := by
      intro g hg
      have hmem : some g ∈ m.groups := List.reduceOption_mem_iff.mp
        (List.mem_of_mem_filter (List.mem_of_head? hg))
      exact (hwithin g hmem).1.offset_le
    have horder : InOrder c.offset m.groups := inOrder_iff.mpr ⟨hfirst, h kinds hkinds⟩
    rw [tokensOf, hkinds, Rule.start_match? hm]
    refine covers_groupTokens _ (.refl c) (Rule.reaches_match? hm) ?_ ?_
    · rwa [hr.map_fst_zip hm hkinds]
    · rwa [hr.map_fst_zip hm hkinds]
  · exact covers_tokensOf hm (not_exists.mp hclassify)

/-! ### The tokens of a line -/

/-- The tokenizer comes to the end of the line, in however many steps. -/
inductive Ends (l : Language) : LineState → Cursor → LineTokens → Prop where
  | nil {s : LineState} {c : Cursor} (hrest : c.rest = []) : Ends l s c ⟨[], s⟩
  | cons {s : LineState} {c : Cursor} {x : Char} {rest : Text} {later : LineTokens}
      (hrest : c.rest = x :: rest)
      (h : Ends l (l.step s c x rest).state (l.step s c x rest).next later) :
      Ends l s c ⟨(l.step s c x rest).tokens ++ later.tokens, later.endState⟩

lemma ends_tokenizeFrom {fuel : ℕ} (hfuel : c.rest.length ≤ fuel) :
    l.Ends s c (l.tokenizeFrom fuel s c) := by
  induction fuel generalizing s c with
  | zero => exact .nil (List.length_eq_zero_iff.mp (Nat.le_zero.mp hfuel))
  | succ fuel ih =>
      cases hrest : c.rest with
      | nil =>
          rw [tokenizeFrom_of_nil _ s hrest]
          exact .nil hrest
      | cons x rest =>
          have hlength := length_step (l := l) (s := s) hrest
          rw [tokenizeFrom_succ fuel s hrest]
          exact .cons hrest (ih (by omega))

/-- Where the tokenizer looks for a match, each rule of the current state can be tried, and the text
of its match and of the groups of the match can be cut out of the line. -/
def Faultless (l : Language) (line : Text) (v : Visit) : Prop :=
  ∀ r ∈ l.rules v.state.current,
    r.matchAt? line v.place.offset = some (r.match? v.place)
      ∧ ∀ m, r.match? v.place = some m → line.slice? m.span = some m.text
        ∧ ∀ g, some g ∈ m.groups → line.slice? g.span = some g.text

lemma faultless {line : Text} {v : Visit} (hplace : (Cursor.start line).Reaches v.place) :
    l.Faultless line v := by
  intro r hr
  refine ⟨Rule.matchAt?_eq hplace, fun m hm => ⟨?_, fun g hg => ?_⟩⟩
  · rw [RuleMatch.span, RuleMatch.text, Rule.start_match? hm]
    exact hplace.slice? (Rule.reaches_match? hm)
  · obtain ⟨hstart, hstop, -⟩ := Rule.groups_within hm hg
    exact (hplace.trans hstart).slice? hstop

variable {x : Char} {rest : Text}

/-- Each byte that a step takes lies in a token of the step. -/
lemma exists_mem_step {n : ℕ} (hle : c.offset ≤ n) (hlt : n < (l.step s c x rest).next.offset) :
    ∃ t ∈ (l.step s c x rest).tokens, t.start ≤ n ∧ n < t.stop := by
  cases hfound : l.firstMatch? s c with
  | none =>
      rw [step_of_none hfound] at hlt ⊢
      exact ⟨_, List.mem_singleton_self _, hle, hlt⟩
  | some found =>
      rw [step_of_match hfound] at hlt ⊢
      exact exists_mem_tokensOf (firstMatch?_eq_some hfound).2.1 hle hlt

/-- Each byte of the rest of the line lies in a token. -/
lemma exists_mem_tokenizeFrom {fuel : ℕ} (hfuel : c.rest.length ≤ fuel) {n : ℕ}
    (hle : c.offset ≤ n) (hlt : n < c.finish.offset) :
    ∃ t ∈ (l.tokenizeFrom fuel s c).tokens, t.start ≤ n ∧ n < t.stop := by
  induction fuel generalizing s c with
  | zero =>
      have hrest : c.rest = [] := List.length_eq_zero_iff.mp (Nat.le_zero.mp hfuel)
      rw [Cursor.finish, hrest, Text.size_nil] at hlt
      exact absurd hlt (Nat.not_lt_of_le hle)
  | succ fuel ih =>
      cases hrest : c.rest with
      | nil =>
          rw [Cursor.finish, hrest, Text.size_nil] at hlt
          exact absurd hlt (Nat.not_lt_of_le hle)
      | cons x rest =>
          have hlength := length_step (l := l) (s := s) hrest
          rw [tokenizeFrom_succ fuel s hrest]
          rcases Nat.lt_or_ge n (l.step s c x rest).next.offset with hhere | hlater
          · obtain ⟨t, ht, hn⟩ := exists_mem_step hle hhere
            exact ⟨t, List.mem_append_left _ ht, hn⟩
          · rw [(reaches_step (l := l) (s := s) hrest).finish_eq] at hlt
            obtain ⟨t, ht, hn⟩ := ih (by omega) hlater hlt
            exact ⟨t, List.mem_append_right _ ht, hn⟩

/-- The tokens of a step lie within what it takes. -/
lemma between_step (hl : ∀ s, ∀ r ∈ l.rules s, r.Built) (hrest : c.rest = x :: rest) :
    ∀ t ∈ (l.step s c x rest).tokens, Between c (l.step s c x rest).next t := by
  cases hfound : l.firstMatch? s c with
  | none =>
      have hx := x.utf8Size_pos
      rw [step_of_none hfound]
      exact List.forall_mem_singleton.mpr
        ⟨c, _, .refl c, .past hrest, .refl _, by show c.offset < c.offset + x.utf8Size; omega, rfl⟩
  | some found =>
      obtain ⟨hr, hm, -⟩ := firstMatch?_eq_some hfound
      rw [step_of_match hfound]
      exact between_tokensOf (hl _ _ hr) hm

/-- The tokens of a line lie within it. -/
lemma between_tokenizeLine (hl : ∀ s, ∀ r ∈ l.rules s, r.Built) (line : Text) (start : LineState) :
    ∀ t ∈ (l.tokenizeLine line start).tokens,
      Between (.start line) (Cursor.start line).finish t := by
  intro t ht
  rw [tokenizeLine, tokens_tokenizeFrom] at ht
  obtain ⟨v, hv, ht⟩ := List.mem_flatMap.mp ht
  obtain ⟨hplace, hne⟩ := reaches_visitsFrom hv
  obtain ⟨x, rest, hrest⟩ := List.exists_cons_of_ne_nil hne
  rw [tokensAt_eq hrest] at ht
  obtain ⟨a, b, ha, hab, hb, hlt, hspan⟩ := between_step hl hrest t ht
  refine ⟨a, b, hplace.trans ha, hab, ?_, hlt, hspan⟩
  have hline := hplace.trans (ha.trans hab)
  rw [hline.finish_eq]
  exact .finish b

/-- In each match of the line that classifies by groups, these are in order. -/
def GroupsOrdered (l : Language) (line : Text) (start : LineState) : Prop :=
  ∀ v ∈ l.visits line start, ∀ r m, l.firstMatch? v.state v.place = some (r, m) →
    ∀ kinds, r.classify = .groups kinds → Ordered m.groups

/-- If the tokens of a line follow each other, the groups of each match are in order. -/
lemma groupsOrdered_of_contiguous (hl : ∀ s, ∀ r ∈ l.rules s, r.Built) {line : Text}
    {start : LineState} (h : Contiguous (l.tokenizeLine line start).tokens) :
    l.GroupsOrdered line start := by
  intro v hv r m hfound kinds hkinds
  obtain ⟨hr, hm, -⟩ := firstMatch?_eq_some hfound
  obtain ⟨x, rest, hrest⟩ := List.exists_cons_of_ne_nil (reaches_visitsFrom hv).2
  obtain ⟨before, after, hvisits⟩ := List.append_of_mem hv
  have htokens : (l.tokenizeLine line start).tokens
      = before.flatMap l.tokensAt ++ (l.tokensOf r m ++ after.flatMap l.tokensAt) := by
    rw [tokenizeLine, tokens_tokenizeFrom]
    show (l.visits line start).flatMap l.tokensAt = _
    rw [hvisits, List.flatMap_append, List.flatMap_cons, tokensAt_eq hrest, step_of_match hfound]
  rw [htokens] at h
  exact ordered_of_contiguous (hl _ _ hr) hm hkinds h.right_of_append.left_of_append

/-- If the groups of each match are in order, the tokens make up the line. -/
lemma partitions_of_groupsOrdered (hl : ∀ s, ∀ r ∈ l.rules s, r.Built) {line : Text}
    {start : LineState} (h : l.GroupsOrdered line start) :
    Partitions line (l.tokenizeLine line start).tokens := by
  refine (covers_tokenizeFrom (Nat.le_refl _) fun v hv r m hfound => ?_).partitions
  obtain ⟨hr, hm, -⟩ := firstMatch?_eq_some hfound
  exact covers_of_ordered (hl _ _ hr) hm (h v hv r m hfound)

/-- **The tokens of any language cover the line**: the tokenizer comes to the end of the line, no
token is empty or begins or ends inside a character, and each byte lies in a token. **They make up
the line just if the groups of each match are in order**, which is also just when each token begins
where the one before it ends. -/
theorem tokenizeLine_covers (hl : ∀ s, ∀ r ∈ l.rules s, r.Built) (line : Text)
    (start : LineState) :
    l.Ends start (.start line) (l.tokenizeLine line start)
      ∧ (∀ v ∈ l.visits line start, l.Faultless line v)
      ∧ (∀ t ∈ (l.tokenizeLine line start).tokens, t.start < t.stop ∧ t.stop ≤ line.size
        ∧ (line.cursorAt? t.start).isSome ∧ (line.cursorAt? t.stop).isSome)
      ∧ (∀ n < line.size, ∃ t ∈ (l.tokenizeLine line start).tokens, t.start ≤ n ∧ n < t.stop)
      ∧ (Contiguous (l.tokenizeLine line start).tokens ↔ l.GroupsOrdered line start)
      ∧ (Partitions line (l.tokenizeLine line start).tokens ↔ l.GroupsOrdered line start) := by
  have hpartitions : l.GroupsOrdered line start →
      Partitions line (l.tokenizeLine line start).tokens := partitions_of_groupsOrdered hl
  have hordered : Contiguous (l.tokenizeLine line start).tokens → l.GroupsOrdered line start :=
    groupsOrdered_of_contiguous hl
  refine ⟨ends_tokenizeFrom (Nat.le_refl _), ?_, ?_, ?_, ?_, ?_⟩
  · exact fun v hv => faultless (reaches_visitsFrom hv).1
  · intro t ht
    obtain ⟨a, b, ha, hab, hb, hlt, hspan⟩ := between_tokenizeLine hl line start t ht
    have hstart : t.start = a.offset := congrArg Span.start hspan
    have hstop : t.stop = b.offset := congrArg Span.stop hspan
    have hsize := (ha.trans hab).size_eq
    rw [hstart, hstop, ha.cursorAt?, (ha.trans hab).cursorAt?]
    exact ⟨hlt, by omega, rfl, rfl⟩
  · intro n hn
    refine exists_mem_tokenizeFrom (c := .start line) (Nat.le_refl _) (Nat.zero_le n) ?_
    show n < 0 + line.size
    omega
  · exact ⟨hordered, fun h => (hpartitions h).tiles.contiguous⟩
  · exact ⟨fun h => hordered h.tiles.contiguous, hpartitions⟩

/-- A language with a rule that has a group within a group. -/
def nested : Language :=
  let inner : Pattern := .group 1 (.one (.of [('A', 'A'), ('a', 'a')]))
  let outer : Pattern := .group 0 (.cat inner (.one (.of [('B', 'B'), ('b', 'b')])))
  (named "nested").setRules .root [.anchored "nested" outer (.groups [.keyword, .string])]

/-- A group within a group makes tokens overlap. -/
theorem tokenizeLine_covers_nested :
    (∀ s, ∀ r ∈ nested.rules s, r.Built)
      ∧ (∀ n < 2, ∃ t ∈ (nested.tokenizeLine ['a', 'b'] .root).tokens, t.start ≤ n ∧ n < t.stop)
      ∧ ¬nested.GroupsOrdered ['a', 'b'] .root := by
  have hread : ∀ r ∈ nested.rules .root,
      Rule.read? "nested" "((a)b)".toList (.groups [.keyword, .string]) = .ok r :=
    List.forall_mem_singleton.mpr rfl
  have hbuilt : ∀ s, ∀ r ∈ nested.rules s, r.Built := by
    intro s r hr
    cases s with
    | root => exact .read (hread r hr)
    | _ => cases hr
  have htokens : (nested.tokenizeLine ['a', 'b'] .root).tokens
      = [.ofSpan ⟨0, 2⟩ .keyword, .ofSpan ⟨0, 1⟩ .string, .ofSpan ⟨1, 2⟩ .plain] := rfl
  obtain ⟨-, -, -, hbytes, hordered, -⟩ := tokenizeLine_covers hbuilt ['a', 'b'] .root
  refine ⟨hbuilt, hbytes, fun h => ?_⟩
  have hcontiguous := hordered.mpr h
  rw [htokens, Contiguous] at hcontiguous
  revert hcontiguous
  decide

end Language

end ShellSyntax
