import Mathlib.Data.List.Basic
import Mathlib.Tactic.Common
import ShellSyntax.Proofs.Language.Run

/-!
Tokens that follow each other without gaps.

* `Tiles`: the tokens make up a stretch of bytes, one right behind the other, and none is empty;
* `Partitions`: the tokens make up a line: they tile its bytes, their ends lie neither past the end
  nor inside a character, and their texts put together are the line;
* `Covers`: the tokens lead from one place of a line to a later one. `Covers.tiles`,
  `Covers.texts`, `Covers.partitions`: what follows for offsets and texts;
* `Language.covers_groupTokens`: the tokens of a match that classifies by groups cover it, if its
  groups are in order;
* `Language.covers_tokenizeFrom`: the tokens of a line cover it, if those of each match do.
-/

namespace ShellSyntax

/-! ### Tokens and places -/

/-- The tokens make up the bytes from one offset to another, each right behind the one before it,
and none is empty. -/
def Tiles : ℕ → ℕ → List Token → Prop
  | first, last, [] => first = last
  | first, last, t :: tokens => t.start = first ∧ t.start < t.stop ∧ Tiles t.stop last tokens

/-- The tokens make up a line. -/
structure Partitions (line : Text) (tokens : List Token) : Prop where
  tiles : Tiles 0 line.size tokens
  /-- Tokens begin and end neither past the end nor inside a character. -/
  places : ∀ t ∈ tokens, (line.cursorAt? t.start).isSome ∧ (line.cursorAt? t.stop).isSome
  /-- The texts of the tokens put together are the line. -/
  texts : ∃ texts, tokens.mapM (·.text? line) = some texts ∧ texts.flatten = line

/-- The tokens lead from one place of a line to a later one, each from where the one before it ends
and by at least one character. -/
def Covers : Cursor → Cursor → List Token → Prop
  | a, b, [] => a = b
  | a, b, t :: tokens =>
    ∃ c, a.Reaches c ∧ a.offset < c.offset ∧ t.toSpan = a.spanTo c ∧ Covers c b tokens

namespace Covers

variable {a b c : Cursor} {tokens tokens' : List Token}

lemma single (h : a.Reaches b) (hlt : a.offset < b.offset) (kind : TokenKind) :
    Covers a b [.ofSpan (a.spanTo b) kind] := ⟨b, h, hlt, rfl, rfl⟩

lemma append (h : Covers a b tokens) (h' : Covers b c tokens') :
    Covers a c (tokens ++ tokens') := by
  induction tokens generalizing a with
  | nil =>
      obtain rfl : a = b := h
      exact h'
  | cons t tokens ih =>
      obtain ⟨d, hreach, hlt, hspan, hrest⟩ := h
      exact ⟨d, hreach, hlt, hspan, ih hrest⟩

lemma tiles (h : Covers a b tokens) : Tiles a.offset b.offset tokens := by
  induction tokens generalizing a with
  | nil =>
      obtain rfl : a = b := h
      rfl
  | cons t tokens ih =>
      obtain ⟨d, hreach, hlt, hspan, hrest⟩ := h
      have hstart : t.start = a.offset := congrArg Span.start hspan
      have hstop : t.stop = d.offset := congrArg Span.stop hspan
      refine ⟨hstart, by omega, ?_⟩
      rw [hstop]
      exact ih hrest

/-- Each token begins and ends at a place of the line. -/
lemma exists_places (h : Covers a b tokens) {t : Token} (ht : t ∈ tokens) :
    ∃ c d, a.Reaches c ∧ c.Reaches d ∧ t.toSpan = c.spanTo d := by
  induction tokens generalizing a with
  | nil => cases ht
  | cons t' tokens ih =>
      obtain ⟨d, hreach, -, hspan, hrest⟩ := h
      rcases List.mem_cons.mp ht with rfl | ht
      · exact ⟨a, d, .refl a, hreach, hspan⟩
      · obtain ⟨e, f, hde, hef, hspan'⟩ := ih hrest ht
        exact ⟨e, f, hreach.trans hde, hef, hspan'⟩

/-- The texts of the tokens are the text between the two places. -/
lemma texts {line : Text} (hline : (Cursor.start line).Reaches a) (h : Covers a b tokens) :
    ∃ texts, tokens.mapM (·.text? line) = some texts ∧ a.rest = texts.flatten ++ b.rest := by
  induction tokens generalizing a with
  | nil =>
      obtain rfl : a = b := h
      exact ⟨[], rfl, rfl⟩
  | cons t tokens ih =>
      obtain ⟨d, hreach, -, hspan, hrest⟩ := h
      obtain ⟨texts, htexts, hflatten⟩ := ih (hline.trans hreach) hrest
      have htext : t.text? line = some (a.textTo d) := by
        rw [Token.text?, hspan, hline.slice? hreach]
      refine ⟨a.textTo d :: texts, by simp [List.mapM_cons, htext, htexts], ?_⟩
      calc a.rest = a.textTo d ++ d.rest := hreach.rest_eq
        _ = a.textTo d ++ (texts.flatten ++ b.rest) := by rw [hflatten]
        _ = (a.textTo d :: texts).flatten ++ b.rest := by
            rw [List.flatten_cons, List.append_assoc]

/-- Tokens that lead from the first place of a line to the last make it up. -/
lemma partitions {line : Text} (h : Covers (.start line) (Cursor.start line).finish tokens) :
    Partitions line tokens where
  tiles := by simpa [Cursor.start, Cursor.finish] using h.tiles
  places t ht := by
    obtain ⟨c, d, hc, hcd, hspan⟩ := h.exists_places ht
    have hstart : t.start = c.offset := congrArg Span.start hspan
    have hstop : t.stop = d.offset := congrArg Span.stop hspan
    rw [hstart, hstop, hc.cursorAt?, (hc.trans hcd).cursorAt?]
    exact ⟨rfl, rfl⟩
  texts := by
    obtain ⟨texts, htexts, hflatten⟩ := h.texts (.refl _)
    exact ⟨texts, htexts, by simpa [Cursor.start, Cursor.finish] using hflatten.symm⟩

end Covers

/-! ### The tokens of a match -/

/-- Each group that took something begins at `offset` or behind it, and at or behind the end of the
one before it. -/
def InOrder : ℕ → List (Option Capture) → Prop
  | _, [] => True
  | offset, none :: groups => InOrder offset groups
  | offset, some g :: groups =>
    if g.stop.offset ≤ g.start.offset then InOrder offset groups
    else offset ≤ g.start.offset ∧ InOrder g.stop.offset groups

lemma InOrder.mono {groups : List (Option Capture)} {n k : ℕ} (h : InOrder k groups)
    (hle : n ≤ k) : InOrder n groups := by
  induction groups generalizing n k with
  | nil => trivial
  | cons group groups ih =>
      match group with
      | none => exact ih h hle
      | some g =>
          rw [InOrder] at h ⊢
          split at h
          · rename_i hempty
            rw [if_pos hempty]
            exact ih h hle
          · rename_i hnonempty
            rw [if_neg hnonempty]
            exact ⟨Nat.le_trans hle h.1, h.2⟩

lemma InOrder.cons {groups : List (Option Capture)} {n : ℕ} {g : Capture}
    (hle : n ≤ g.start.offset) (hg : g.start.Reaches g.stop)
    (h : InOrder g.stop.offset groups) : InOrder n (some g :: groups) := by
  rw [InOrder]
  split
  · exact h.mono (Nat.le_trans hle hg.offset_le)
  · exact ⟨hle, h⟩

namespace Language

variable {l : Language} {s : LineState} {a b c : Cursor}

/-- The text up to a later place is one token, unless there is none. -/
lemma covers_gap (h : a.Reaches b) :
    Covers a b (if a.offset < b.offset then [.ofSpan (a.spanTo b) .plain] else []) := by
  split
  · rename_i hlt
    exact .single h hlt .plain
  · exact h.antisymm (by omega)

/-- The tokens of groups that are in order, with those of the gaps, cover the match. -/
lemma covers_groupTokens (groups : List (Option Capture × TokenKind)) (ha : c.Reaches a)
    (hb : a.Reaches b) (hgroups : ∀ g, some g ∈ groups.map Prod.fst →
      c.Reaches g.start ∧ c.Reaches g.stop ∧ g.stop.Reaches b)
    (horder : InOrder a.offset (groups.map Prod.fst)) :
    Covers a b (groupTokens b.offset a.offset groups) := by
  induction groups generalizing a with
  | nil => exact covers_gap hb
  | cons group groups ih =>
      have htail : ∀ g, some g ∈ groups.map Prod.fst →
          c.Reaches g.start ∧ c.Reaches g.stop ∧ g.stop.Reaches b :=
        fun g hg => hgroups g (List.mem_cons_of_mem _ hg)
      match group with
      | (none, _) => exact ih ha hb htail horder
      | (some g, kind) =>
          obtain ⟨hstart, hstop, hend⟩ := hgroups g List.mem_cons_self
          rw [List.map_cons, InOrder] at horder
          rw [groupTokens]
          show Covers a b (if g.stop.offset ≤ g.start.offset then _ else _)
          split at horder
          · rename_i hempty
            rw [if_pos hempty]
            exact ih ha hb htail horder
          · rename_i hnonempty
            rw [if_neg hnonempty]
            -- the gap in front of the group, the group, and what lies behind it
            obtain ⟨hle, horder⟩ := horder
            have hgap := covers_gap (ha.of_le hstart hle)
            have hgroup := Covers.single (hstart.of_le hstop (by omega)) (by omega) kind
            have hlater := ih hstop hend htail horder
            exact hgap.append (hgroup.append hlater)

/-- The tokens of a match that does not classify by groups cover it. -/
lemma covers_tokensOf {r : Rule} {m : RuleMatch} (hm : r.match? c = some m)
    (hclassify : ∀ kinds, r.classify ≠ .groups kinds) : Covers c m.stop (l.tokensOf r m) := by
  have hsingle := Covers.single (Rule.reaches_match? hm) (Rule.lt_match? hm)
  rw [tokensOf, RuleMatch.span, Rule.start_match? hm]
  cases hkinds : r.classify with
  | groups kinds => exact absurd hkinds (hclassify kinds)
  | fixed kind => exact hsingle _
  | identifier => exact hsingle _
  | bracket => exact hsingle _

/-! ### The tokens of a line -/

/-- The tokens of a step cover what it takes, if those of its match do. -/
lemma covers_step {x : Char} {rest : Text} (hrest : c.rest = x :: rest)
    (h : ∀ r m, l.firstMatch? s c = some (r, m) → Covers c m.stop (l.tokensOf r m)) :
    Covers c (l.step s c x rest).next (l.step s c x rest).tokens := by
  cases hfound : l.firstMatch? s c with
  | none =>
      have hx := x.utf8Size_pos
      rw [step_of_none hfound]
      exact .single (.past hrest) (by show c.offset < c.offset + x.utf8Size; omega) .plain
  | some found =>
      rw [step_of_match hfound]
      exact h _ _ hfound

/-- The tokens from a place on cover the rest of the line, if those of each match do. -/
lemma covers_tokenizeFrom {fuel : ℕ} (hfuel : c.rest.length ≤ fuel)
    (h : ∀ v ∈ l.visitsFrom fuel s c, ∀ r m, l.firstMatch? v.state v.place = some (r, m) →
      Covers v.place m.stop (l.tokensOf r m)) :
    Covers c c.finish (l.tokenizeFrom fuel s c).tokens := by
  have hend : ∀ {c : Cursor} (s : LineState) (fuel : ℕ), c.rest = [] →
      Covers c c.finish (l.tokenizeFrom fuel s c).tokens := by
    intro c s fuel hrest
    rw [tokenizeFrom_of_nil fuel s hrest]
    cases c
    simp_all [Covers, Cursor.finish]
  induction fuel generalizing s c with
  | zero => exact hend s 0 (List.length_eq_zero_iff.mp (by omega))
  | succ fuel ih =>
      cases hrest : c.rest with
      | nil => exact hend s _ hrest
      | cons x rest =>
          rw [visitsFrom_succ fuel s hrest] at h
          have hlength := length_step (l := l) (s := s) hrest
          have hstep := covers_step hrest (h ⟨s, c⟩ List.mem_cons_self)
          have hlater := ih (s := (l.step s c x rest).state) (c := (l.step s c x rest).next)
            (by omega) fun v hv => h v (List.mem_cons_of_mem _ hv)
          rw [tokenizeFrom_succ fuel s hrest, (reaches_step hrest).finish_eq]
          exact hstep.append hlater

end Language

end ShellSyntax
