import Mathlib.Data.List.Basic
import Mathlib.Tactic.Common
import ShellSyntax.Proofs.Terminal.Lines

/-!
What a line shows where the number of columns is limited.

A line is written piece by piece. Each piece is clipped by the columns of its characters, and the
column behind it follows from its width, so that both agree just in texts in which widths add up.

* `Cursor.column`: the columns of the characters before a place of a line;
* `borders`, `Unmarked`: the places where a piece begins, and that none of them stands at the limit
  before a mark that takes no column. There nothing more is written, though the mark would fit;
* `Filled`: what is written fills the columns that are left. `filled_span`, `filled_tokens`: so does
  a piece before what fills the rest, and a line with its tokens;
* `renderLine_fills`: a line in which widths add up shows as much as fits;
* `renderLine_overfills`: a line with a selector for pictures may show more.
-/

namespace ShellSyntax

variable {line : Text} {tokens : List Token} {theme : Theme} {m k : ℕ} {a b : Cursor}
  {offsets : List ℕ} {s : Style} {t : Text}

/-! ### Columns and borders -/

namespace Cursor

/-- The columns of the characters before a place of a line, each by itself. -/
def column (line : Text) (a : Cursor) : ℕ := ((start line).textTo a).ownWidth

lemma column_start (line : Text) : (start line).column line = 0 := by
  rw [column, textTo_eq (t := []) rfl rfl]
  rfl

lemma column_eq (ha : (start line).Reaches a) (hb : a.Reaches b) :
    b.column line = a.column line + (a.textTo b).ownWidth := by
  rw [column, ← ha.textTo_append hb, Text.ownWidth_append, column]

/-- The text between two places is a stretch of the line. -/
lemma textTo_isInfix (ha : (start line).Reaches a) (hb : a.Reaches b) : a.textTo b <:+: line := by
  refine ⟨(start line).textTo a, b.rest, ?_⟩
  rw [List.append_assoc, ← hb.rest_eq, ← ha.rest_eq]
  rfl

end Cursor

/-- The places where a piece of a line with tokens may begin: the start of the line, and where a
token begins or ends. -/
def borders (tokens : List Token) : List ℕ := 0 :: tokens.flatMap fun t => [t.start, t.stop]

/-- Behind none of the offsets at which `m` columns stand is a mark that takes no column. -/
def Unmarked (line : Text) (m : ℕ) (offsets : List ℕ) : Prop :=
  ∀ (before : Text) (c : Char) (rest : Text), line = before ++ c :: rest →
    before.size ∈ offsets → before.width = m → 0 < ownColumns c

lemma Unmarked.behind (h : Unmarked line m offsets) (hline : line.Additive)
    (ha : (Cursor.start line).Reaches a) (hmem : a.offset ∈ offsets) (hm : a.column line = m) :
    ∀ c ∈ a.rest.head?, 0 < ownColumns c := by
  intro c hc
  obtain ⟨rest, hrest⟩ := List.head?_eq_some_iff.mp hc
  refine h ((Cursor.start line).textTo a) c rest ?_ ?_ ?_
  · rw [← hrest, ← ha.rest_eq]
    rfl
  · rwa [ha.size_textTo]
  · rw [hline _ (Cursor.textTo_isInfix (.refl _) ha)]
    exact hm

/-! ### What is written of a line -/

lemma drawSegment_of_le (h : m ≤ k) (s : Style) (t : Text) :
    drawSegment (some m) k s t = ⟨[], k, true⟩ := by
  rw [drawSegment, Option.map_some, Nat.sub_eq_zero_of_le h]
  rfl

lemma drawSegment_of_lt (h : k < m) (s : Style) (t : Text) :
    drawSegment (some m) k s t
      = ⟨s.draw (t.clip (m - k)), k + (t.clip (m - k)).width,
          (t.clip (m - k)).length < t.length⟩ := by
  obtain ⟨n, hn⟩ : ∃ n, m - k = n + 1 := ⟨m - k - 1, by omega⟩
  rw [drawSegment, Option.map_some, hn]
  rfl

/-- What is written fills a number of columns with the start of a text. If no mark is passed over,
it is the longest start that fits. -/
def Filled (unmarked : Prop) (room : ℕ) (r : Rendering) (t : Text) : Prop :=
  ∃ shown : List Cell, Terminal.Draws r.written shown
    ∧ Text.Fills room t (shown.map Prod.fst)
    ∧ (unmarked → shown.map Prod.fst = t.clip room)

lemma filled_done (unmarked : Prop) (room : ℕ) : Filled unmarked room .done [] :=
  ⟨[], .nil, Text.fills_clip room [], fun _ => rfl⟩

/-- The text of a stretch of the line fills the columns that are left, together with what comes
behind it. -/
lemma filled_span (hline : '\x1b' ∉ line) (hadditive : line.Additive)
    (ha : (Cursor.start line).Reaches a) (hb : a.Reaches b) (hcolumn : a.column line ≤ m)
    {unmarked : Prop}
    (hunmarked : unmarked → a.column line = m → ∀ c ∈ a.rest.head?, 0 < ownColumns c)
    {later : ℕ → Rendering}
    (h : b.column line ≤ m →
      Filled unmarked (m - b.column line) (later (b.column line)) b.rest) :
    Filled unmarked (m - a.column line)
      (.span line (some m) (a.column line) s (a.spanTo b) later) a.rest := by
  have hstretch := Cursor.textTo_isInfix ha hb
  have hrest := hb.rest_eq
  have hb_column := Cursor.column_eq ha hb
  have htext : '\x1b' ∉ a.textTo b := fun hmem => hline (hstretch.subset hmem)
  rw [Rendering.span, ha.slice? hb]
  show Filled _ _ (.after (drawSegment (some m) (a.column line) s (a.textTo b)) later) _
  rcases hcolumn.eq_or_lt with hfull | hlt
  · -- no column is left, and nothing is written
    rw [drawSegment_of_le (Nat.le_of_eq hfull.symm), hfull, Nat.sub_self]
    exact ⟨[], .nil, Text.fills_nil _, fun h => (Text.clip_zero (hunmarked h hfull)).symm⟩
  · rw [drawSegment_of_lt hlt, Rendering.after]
    have hclip := (a.textTo b).clip_isPrefix (m - a.column line)
    by_cases hfits : (a.textTo b).ownWidth ≤ m - a.column line
    · -- the stretch fits, and what comes behind it goes on from its end
      obtain ⟨shown, hdraws, hfills, hlongest⟩ := h (by omega)
      have hroom : m - b.column line = m - a.column line - (a.textTo b).ownWidth := by omega
      have hshown : ((a.textTo b).map (·, s) ++ shown).map Prod.fst
          = a.textTo b ++ shown.map Prod.fst := by
        rw [List.map_append, List.map_map]
        exact congrArg (· ++ _) (List.map_id _)
      rw [if_neg (by simp [Text.clip_eq_self hfits]), Text.clip_eq_self hfits,
        hadditive _ hstretch, ← hb_column]
      refine ⟨(a.textTo b).map (·, s) ++ shown, (Terminal.draws_draw htext s).append hdraws, ?_, ?_⟩
      · rw [hshown, hrest]
        exact (hroom ▸ hfills).append hfits
      · intro h
        rw [hshown, hrest, Text.clip_append_of_le hfits, hlongest h, hroom]
    · -- the stretch is cut, and nothing is written behind it
      have hshort : ((a.textTo b).clip (m - a.column line)).length < (a.textTo b).length := by
        refine Nat.lt_of_not_le fun hle => hfits ?_
        rw [← hclip.eq_of_length_le hle]
        exact Text.ownWidth_clip_le _ _
      have hcut : a.rest.clip (m - a.column line) = (a.textTo b).clip (m - a.column line) := by
        rw [hrest]
        exact Text.clip_append_of_lt (Nat.lt_of_not_le hfits) _
      have hshown : (((a.textTo b).clip (m - a.column line)).map (·, s)).map Prod.fst
          = a.rest.clip (m - a.column line) := by
        rw [hcut, List.map_map]
        exact List.map_id _
      rw [if_pos (decide_eq_true hshort)]
      refine ⟨_, Terminal.draws_draw (fun hmem => htext (hclip.subset hmem)) s, ?_, fun _ => hshown⟩
      rw [hshown]
      exact Text.fills_clip _ _

/-- The rest of a line fills the columns that are left. -/
lemma filled_tokens (theme : Theme) (hline : '\x1b' ∉ line) (hadditive : line.Additive)
    (ha : (Cursor.start line).Reaches a) (h : Follow a tokens) (hmem : a.offset ∈ offsets)
    (hborders : ∀ t ∈ tokens, t.start ∈ offsets ∧ t.stop ∈ offsets)
    (hcolumn : a.column line ≤ m) :
    Filled (Unmarked line m offsets) (m - a.column line)
      (.tokens line theme (some m) a.offset (a.column line) tokens) a.rest := by
  induction tokens generalizing a with
  | nil =>
      have hsize := ha.size_eq
      rw [Rendering.tokens]
      split
      · have hspan : (⟨a.offset, line.size⟩ : Span) = a.spanTo a.finish := by
          rw [hsize]
          rfl
        rw [hspan]
        exact filled_span hline hadditive ha (.finish a) hcolumn
          (fun h hm => h.behind hadditive ha hmem hm) fun _ => filled_done _ _
      · have hnil : a.rest = [] := Text.eq_nil_of_size (by omega)
        rw [hnil]
        exact filled_done _ _
  | cons t tokens ih =>
      obtain ⟨b, c, hb, hc, hspan, hrest⟩ := h
      obtain ⟨⟨hstart_mem, hstop_mem⟩, hborders⟩ := List.forall_mem_cons.mp hborders
      have hstart : t.start = b.offset := congrArg Span.start hspan
      have hstop : t.stop = c.offset := congrArg Span.stop hspan
      have hplace := ha.trans hb
      have htoken : b.column line ≤ m → Filled (Unmarked line m offsets) (m - b.column line)
          (.span line (some m) (b.column line) (theme.styleFor t.kind) t.toSpan fun column =>
            .tokens line theme (some m) t.stop column tokens) b.rest := by
        intro hcolumn
        rw [hspan]
        exact filled_span hline hadditive hplace hc hcolumn
          (fun h hm => h.behind hadditive hplace (hstart ▸ hstart_mem) hm)
          (ih (hplace.trans hc) hrest (hstop ▸ hstop_mem) hborders)
      rw [Rendering.tokens]
      -- what lies in front of the token is written first, unless the token begins here
      split
      · have hgap : (⟨a.offset, t.start⟩ : Span) = a.spanTo b := by
          rw [hstart]
          rfl
        rw [hgap]
        exact filled_span hline hadditive ha hb hcolumn
          (fun h hm => h.behind hadditive ha hmem hm) htoken
      · obtain rfl : a = b := hb.antisymm (by omega)
        exact htoken hcolumn

/-! ### Clipped lines -/

/-- In a line without marks that take no column, none stands behind a border. -/
lemma unmarked_of_pos (h : ∀ c ∈ line, 0 < ownColumns c) (m : ℕ) (offsets : List ℕ) :
    Unmarked line m offsets := by
  rintro before c rest rfl - -
  exact h c (List.mem_append_right _ List.mem_cons_self)

lemma mem_borders {t : Token} (h : t ∈ tokens) :
    t.start ∈ borders tokens ∧ t.stop ∈ borders tokens :=
  ⟨List.mem_cons_of_mem _ (List.mem_flatMap.mpr ⟨t, h, List.mem_cons_self⟩),
    List.mem_cons_of_mem _ (List.mem_flatMap.mpr ⟨t, h, List.mem_cons_of_mem _ List.mem_cons_self⟩)⟩

/-- **A clipped line in which widths add up shows as much as fits**: a start of the line that is not
wider than the limit, and no other such start is wider. It is the longest one, whatever the tokens
are, unless a border of a token, or the start of the line, stands at the limit before a mark that
takes no column. In particular this is so for the tokens of shell text. -/
theorem renderLine_fills (hline : '\x1b' ∉ line) (h : Placed line tokens)
    (hadditive : line.Additive) (theme : Theme) (m : ℕ) :
    (∃ shown, Terminal.blank.read? (renderLine line tokens theme (some m)).written
        = some ⟨shown, .plain, .text⟩
      ∧ shown.map Prod.fst <+: line
      ∧ Text.width (shown.map Prod.fst) ≤ m
      ∧ (∀ v : Text, v <+: line → v.width ≤ m → v.width ≤ Text.width (shown.map Prod.fst))
      ∧ (Unmarked line m (borders tokens) →
        shown.map Prod.fst = line.clip m
          ∧ ∀ v : Text, v <+: line → v.width ≤ m → v <+: shown.map Prod.fst))
      ∧ ∀ l : Language, l.IsShell → ∀ start, Placed line (l.tokenizeLine line start).tokens := by
  have hfollow : Follow (.start line) tokens := h.follow (.refl _) fun t _ => Nat.zero_le t.start
  have hfilled := filled_tokens theme hline hadditive (.refl _) hfollow List.mem_cons_self
    (fun t => mem_borders) (m := m) (by rw [Cursor.column_start]; exact Nat.zero_le m)
  rw [Cursor.column_start, Nat.sub_zero] at hfilled
  obtain ⟨shown, hdraws, ⟨hstart, hfits, hwidest⟩, hclip⟩ := hfilled
  have hwidth : ∀ v : Text, v <+: line → v.width = v.ownWidth :=
    fun v hv => hadditive v hv.isInfix
  refine ⟨⟨shown, hdraws [], hstart, ?_, fun v hv hm => ?_, fun h => ⟨hclip h, fun v hv hm => ?_⟩⟩,
    fun l hl start => (hl.covers_tokenizeLine line start).partitions.placed⟩
  · rwa [hwidth _ hstart]
  · rw [hwidth v hv] at hm ⊢
    rw [hwidth _ hstart]
    exact hwidest v hv hm
  · rw [hwidth v hv] at hm
    rw [hclip h]
    exact Text.prefix_clip hv hm

/-- A wide character that does not fit is left out whole. -/
theorem renderLine_fills_wide :
    let line : Text := ['i', 'f', ' ', '\u754c']
    let tokens : List Token := [.ofSpan ⟨0, 2⟩ .keyword]
    ('\x1b' ∉ line ∧ Placed line tokens ∧ line.Additive ∧ Unmarked line 4 (borders tokens))
      ∧ ∃ shown, Terminal.blank.read? (renderLine line tokens .empty (some 4)).written
          = some ⟨shown, .plain, .text⟩
        ∧ shown.map Prod.fst = ['i', 'f', ' '] := by
  intro line tokens
  have hline : '\x1b' ∉ line := by decide
  have hplaced : Placed line tokens := ⟨by decide, by decide, .singleton _⟩
  have hchars : line.all fun c => 0 < ownColumns c ∧ c ≠ '\n' ∧ c.toNat ≠ 0xFE0E
      ∧ c.toNat ≠ 0xFE0F := by decide +kernel
  have hmem : ∀ c ∈ line, 0 < ownColumns c ∧ c ≠ '\n' ∧ c.toNat ≠ 0xFE0E ∧ c.toNat ≠ 0xFE0F :=
    fun c hc => of_decide_eq_true (List.all_eq_true.mp hchars c hc)
  have hseparate : line.Separate := ⟨fun c hc => (hmem c hc).2, by decide +kernel⟩
  have hunmarked : Unmarked line 4 (borders tokens) :=
    unmarked_of_pos (fun c hc => (hmem c hc).1) _ _
  obtain ⟨⟨shown, hread, -, -, -, hlongest⟩, -⟩ :=
    renderLine_fills hline hplaced hseparate.additive .empty 4
  refine ⟨⟨hline, hplaced, hseparate.additive, hunmarked⟩, shown, hread, ?_⟩
  rw [(hlongest hunmarked).1]
  decide +kernel

/-- A mark behind a border at the limit is left out, though it takes no column. -/
example :
    Terminal.blank.read? (renderLine ['=', '\u0301'] [.ofSpan ⟨0, 1⟩ .plain, .ofSpan ⟨1, 3⟩ .plain]
        .empty (some 1)).written
      = some (.showing [('=', .plain)] .plain) := by
  decide +kernel

/-- A selector makes a picture of a character that takes one column. The characters of the line fit
into two columns, each by itself, and all are shown, but the line is three columns wide. -/
theorem renderLine_overfills :
    let line : Text := ['#', '\u263a', '\ufe0f']
    shell.IsShell ∧ '\x1b' ∉ line
      ∧ (∃ shown, Terminal.blank.read?
            (renderLine line (shell.tokenizeLine line .root).tokens .empty (some 2)).written
          = some ⟨shown, .plain, .text⟩
        ∧ shown.map Prod.fst = line)
      ∧ line.width = 3 ∧ Text.width ['#', '\u263a'] = 2 := by
  intro line
  have htokens : (shell.tokenizeLine line .root).tokens = [.ofSpan ⟨0, 7⟩ .comment] := by
    decide +kernel
  refine ⟨Or.inl rfl, by decide, ?_, by decide +kernel, by decide +kernel⟩
  rw [htokens]
  exact ⟨line.map (·, Theme.empty.styleFor .comment), by decide +kernel, rfl⟩

end ShellSyntax
