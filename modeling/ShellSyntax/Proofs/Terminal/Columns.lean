import Mathlib.Data.List.Chain
import Mathlib.Tactic.Common
import ShellSyntax.Proofs.Shell.Coverage
import ShellSyntax.Proofs.Text.Joining
import ShellSyntax.Terminal.Render

/-!
The columns of the tokens of a line.

A token takes the columns behind the text before it, which is measured as a whole, while a line is
written token by token, each measured by itself. Both agree as far as widths add up.

* `Text.AddUp`: the first of several texts, however many, are together as wide as they are by
  themselves. `Text.addUp_of_detached`, `Text.addUp_of_additive`: so it is if each text is detached
  from the next, and in lines in which widths add up everywhere;
* `ColumnsTile`, `columnRanges`, `columnsReached`: ranges of columns that follow one another, the
  ranges of texts that make up a line, and the columns reached when they are written.
  `columnsTile_flatten_iff`, `starts_flatten_iff`: where these are as they should be;
* `Journal`: a rendering that keeps the columns in which tokens were begun. `rendering_journal`: it
  writes the same;
* `Covers.columns`, `Covers.begun_tokens`: the ranges of tokens that cover a line, and the columns
  in which they are begun;
* `Language.IsShell.tokenizeLine_columns`: where the columns of the tokens of shell text tile the
  line, and where they are those in which the tokens are written;
* `Language.IsShell.tokenizeLine_columns_selector`: a selector for pictures stands in a token of its
  own, and the columns do not tile the line.
-/

namespace ShellSyntax

/-! ### Widths that add up -/

namespace Text

variable {t u : Text} {ts us : List Text}

/-- The first of several texts, however many, are together as wide as they are by themselves. -/
def AddUp (ts : List Text) : Prop := ∀ us, us <+: ts → width us.flatten = (us.map width).sum

lemma AddUp.of_isPrefix (h : AddUp ts) (hle : us <+: ts) : AddUp us :=
  fun vs hvs => h vs (hvs.trans hle)

lemma addUp_singleton (t : Text) : AddUp [t] := by
  intro us hus
  cases us with
  | nil => rfl
  | cons u us =>
      obtain ⟨rfl, hnil⟩ := List.cons_prefix_cons.mp hus
      obtain rfl := List.prefix_nil.mp hnil
      simp

/-- The first two texts may be taken together if their widths add up. -/
lemma addUp_cons_cons :
    AddUp (t :: u :: ts) ↔ (t ++ u).width = t.width + u.width ∧ AddUp ((t ++ u) :: ts) := by
  constructor
  · intro h
    have hpair : (t ++ u).width = t.width + u.width := by
      simpa using h [t, u] ⟨ts, rfl⟩
    refine ⟨hpair, fun us hus => ?_⟩
    cases us with
    | nil => rfl
    | cons v vs =>
        obtain ⟨rfl, hvs⟩ := List.cons_prefix_cons.mp hus
        have hlonger := h (t :: u :: vs) (by simpa using hvs)
        simp only [List.flatten_cons, List.map_cons, List.sum_cons, ← Nat.add_assoc,
          ← List.append_assoc] at hlonger ⊢
        rw [hlonger, hpair]
  · rintro ⟨hpair, h⟩ us hus
    match us with
    | [] => rfl
    | [v] => simp
    | v :: w :: vs =>
        obtain ⟨rfl, hvs⟩ := List.cons_prefix_cons.mp hus
        obtain ⟨rfl, hvs⟩ := List.cons_prefix_cons.mp hvs
        have hshorter := h ((v ++ w) :: vs) (by simpa using hvs)
        simp only [List.flatten_cons, List.map_cons, List.sum_cons, ← Nat.add_assoc,
          ← List.append_assoc] at hshorter ⊢
        rw [hshorter, hpair]

lemma addUp_nil_cons : AddUp ([] :: ts) ↔ AddUp ts := by
  cases ts with
  | nil => exact ⟨fun h => h.of_isPrefix (List.nil_prefix), fun _ => addUp_singleton []⟩
  | cons t ts =>
      rw [addUp_cons_cons, List.nil_append]
      exact and_iff_right (Nat.zero_add _).symm

/-- Widths add up if each text is detached from the next. -/
lemma addUp_of_detached (hne : ∀ t ∈ ts, t ≠ []) (h : ts.IsChain Detached) : AddUp ts := by
  intro us hus
  have hchain : us.IsChain Detached := List.IsChain.prefix h hus
  exact (width_flatten (fun t ht => hne t (hus.subset ht)) hchain).1

lemma ownWidth_flatten (ts : List Text) : ownWidth ts.flatten = (ts.map ownWidth).sum := by
  induction ts with
  | nil => rfl
  | cons t ts ih => rw [List.flatten_cons, ownWidth_append, ih, List.map_cons, List.sum_cons]

/-- Widths add up between the parts of a text in which they add up everywhere. -/
lemma addUp_of_additive (h : Additive ts.flatten) : AddUp ts := by
  intro us hus
  have hstretch : us.flatten <+: ts.flatten := hus.flatten
  have hparts : us.map width = us.map ownWidth := by
    refine List.map_congr_left fun t ht => h t ?_
    exact (List.infix_of_mem_flatten ht).trans hstretch.isInfix
  rw [h _ hstretch.isInfix, ownWidth_flatten, hparts]

end Text

/-! ### Ranges of columns -/

/-- The ranges of columns follow one another without gaps, from one column to another. -/
def ColumnsTile : ℕ → ℕ → List (ℕ × ℕ) → Prop
  | first, last, [] => first = last
  | first, last, r :: ranges => r.1 = first ∧ ColumnsTile r.2 last ranges

/-- The ranges of texts that follow one another behind another text: each begins at the width of all
that stands before it. -/
def columnRanges : Text → List Text → List (ℕ × ℕ)
  | _, [] => []
  | before, t :: ts => (before.width, before.width + t.width) :: columnRanges (before ++ t) ts

/-- The columns in which texts are begun that are written one after the other from a column on. -/
def columnsReached : ℕ → List Text → List ℕ
  | _, [] => []
  | column, t :: ts => column :: columnsReached (column + t.width) ts

variable {before : Text} {ts texts : List Text} {first column : ℕ}

/-- The ranges of texts tile their columns just if widths add up. -/
lemma columnsTile_iff :
    ColumnsTile first (before ++ ts.flatten).width (columnRanges before ts)
      ↔ first = before.width ∧ Text.AddUp (before :: ts) := by
  induction ts generalizing first before with
  | nil =>
      rw [List.flatten_nil, List.append_nil]
      exact (and_iff_left (Text.addUp_singleton before)).symm
  | cons t ts ih =>
      rw [columnRanges, ColumnsTile, List.flatten_cons, ← List.append_assoc, ih,
        Text.addUp_cons_cons, eq_comm, eq_comm (a := before.width + t.width)]

/-- Texts are begun where their ranges begin just if widths add up, up to the last text. -/
lemma starts_eq_iff (hne : ts ≠ []) :
    (columnRanges before ts).map Prod.fst = columnsReached first ts
      ↔ first = before.width ∧ Text.AddUp (before :: ts.dropLast) := by
  induction ts generalizing first before with
  | nil => exact absurd rfl hne
  | cons t ts ih =>
      rw [columnRanges, columnsReached, List.map_cons, List.cons.injEq, eq_comm]
      cases ts with
      | nil =>
          exact and_congr_right fun _ => iff_of_true rfl (Text.addUp_singleton before)
      | cons u us =>
          rw [ih (List.cons_ne_nil u us), List.dropLast_cons_cons, Text.addUp_cons_cons,
            eq_comm (a := first + t.width)]
          constructor
          · rintro ⟨rfl, hpair, h⟩
            exact ⟨rfl, hpair, h⟩
          · rintro ⟨rfl, hpair, h⟩
            exact ⟨rfl, hpair, h⟩

/-- The ranges of the texts that make up a line tile it just if widths add up. -/
lemma columnsTile_flatten_iff :
    ColumnsTile 0 (Text.width texts.flatten) (columnRanges [] texts) ↔ Text.AddUp texts := by
  have h : ColumnsTile 0 (Text.width ([] ++ texts.flatten)) (columnRanges [] texts)
      ↔ 0 = Text.width [] ∧ Text.AddUp ([] :: texts) := columnsTile_iff
  rw [List.nil_append, Text.addUp_nil_cons] at h
  exact h.trans (and_iff_right rfl)

/-- They are begun where their ranges begin just if widths add up, up to the last of them. -/
lemma starts_flatten_iff :
    (columnRanges [] texts).map Prod.fst = columnsReached 0 texts
      ↔ Text.AddUp texts.dropLast := by
  by_cases hnil : texts = []
  · rw [hnil]
    exact iff_of_true rfl (Text.addUp_nil_cons.mp (Text.addUp_singleton []))
  · rw [starts_eq_iff hnil, Text.addUp_nil_cons]
    exact and_iff_right rfl

/-! ### Columns in which tokens are begun -/

/-- What was written of a line, and the columns in which tokens were begun. -/
structure Journal where
  rendering : Rendering
  begun : List ℕ

namespace Journal

/-- The end of a line. -/
def done : Journal := ⟨.done, []⟩

/-- What a segment writes, and what comes behind it unless it was cut short. -/
def after (s : Segment) (later : ℕ → Journal) : Journal :=
  if s.cut then ⟨⟨s.written, false⟩, []⟩
  else
    let r := later s.column
    ⟨⟨s.written ++ r.rendering.written, r.rendering.misplaced⟩, r.begun⟩

/-- Writes the text of a span, if it lies in the line, and then what comes behind it. -/
def span (line : Text) (limit : Option ℕ) (column : ℕ) (style : Style) (s : Span)
    (later : ℕ → Journal) : Journal :=
  match line.slice? s with
  | none => ⟨.misfit, []⟩
  | some t => after (drawSegment limit column style t) later

/-- Writes the line from an offset on, where the given tokens follow, and keeps the column of each
token. -/
def tokens (line : Text) (theme : Theme) (limit : Option ℕ) : ℕ → ℕ → List Token → Journal
  | offset, column, [] =>
    if offset < line.size then
      span line limit column .plain ⟨offset, line.size⟩ fun _ => done
    else done
  | offset, column, t :: rest =>
    let draw := fun column =>
      let r := span line limit column (theme.styleFor t.kind) t.toSpan fun column =>
        tokens line theme limit t.stop column rest
      ⟨r.rendering, column :: r.begun⟩
    if offset < t.start then span line limit column .plain ⟨offset, t.start⟩ draw
    else draw column

variable {line : Text} {theme : Theme} {limit : Option ℕ} {offset column : ℕ} {style : Style}

lemma rendering_after (s : Segment) (later : ℕ → Journal) :
    (after s later).rendering = .after s fun column => (later column).rendering := by
  rw [after, Rendering.after]
  split
  · rfl
  · rfl

lemma rendering_span (s : Span) (later : ℕ → Journal) :
    (span line limit column style s later).rendering
      = .span line limit column style s fun column => (later column).rendering := by
  rw [span, Rendering.span]
  cases line.slice? s with
  | none => rfl
  | some t => exact rendering_after _ later

/-- A journal is kept of what is written in any case. -/
lemma rendering_tokens (tokens : List Token) :
    (Journal.tokens line theme limit offset column tokens).rendering
      = .tokens line theme limit offset column tokens := by
  induction tokens generalizing offset column with
  | nil =>
      rw [Journal.tokens, Rendering.tokens]
      split
      · exact rendering_span _ _
      · rfl
  | cons t tokens ih =>
      rw [Journal.tokens, Rendering.tokens]
      split
      · simp only [rendering_span, ih]
      · simp only [rendering_span, ih]

/-- Where nothing is clipped, what comes behind a span is written behind the width of its text. -/
lemma begun_span {s : Span} {t : Text} (h : line.slice? s = some t) (later : ℕ → Journal) :
    (span line none column style s later).begun = (later (column + t.width)).begun := by
  have hwhole : (drawSegment none column style t).cut = false :=
    decide_eq_false (Nat.lt_irrefl t.length)
  rw [span, h]
  show (after (drawSegment none column style t) later).begun = _
  rw [after, hwhole]
  rfl

end Journal

/-- A line with its tokens, as `renderLine` writes it, and the columns in which tokens were
begun. -/
def journal (line : Text) (tokens : List Token) (theme : Theme) (limit : Option ℕ) : Journal :=
  .tokens line theme limit 0 0 tokens

@[simp] lemma rendering_journal (line : Text) (tokens : List Token) (theme : Theme)
    (limit : Option ℕ) :
    (journal line tokens theme limit).rendering = renderLine line tokens theme limit :=
  Journal.rendering_tokens tokens

/-! ### Tokens that cover a line -/

namespace Covers

variable {line : Text} {tokens : List Token} {a b : Cursor} {t : Token}

/-- The first of the texts of tokens that cover a line is that from its place to the next. -/
lemma texts_cons (hline : (Cursor.start line).Reaches a) (h : Covers a b (t :: tokens))
    (htexts : (t :: tokens).mapM (·.text? line) = some texts) :
    ∃ c ts, texts = a.textTo c :: ts ∧ t.text? line = some (a.textTo c)
      ∧ tokens.mapM (·.text? line) = some ts
      ∧ a.Reaches c ∧ a.offset < c.offset ∧ t.toSpan = a.spanTo c ∧ Covers c b tokens := by
  obtain ⟨c, hreach, hlt, hspan, hrest⟩ := h
  have htext : t.text? line = some (a.textTo c) := by
    rw [Token.text?, hspan, hline.slice? hreach]
  rw [List.mapM_cons, htext, Option.bind_eq_bind, Option.bind_some] at htexts
  obtain ⟨ts, hts, heq⟩ := Option.bind_eq_some_iff.mp htexts
  exact ⟨c, ts, (Option.some.inj heq).symm, htext, hts, hreach, hlt, hspan, hrest⟩

lemma texts_ne_nil (hline : (Cursor.start line).Reaches a) (h : Covers a b tokens)
    (htexts : tokens.mapM (·.text? line) = some texts) : ∀ u ∈ texts, u ≠ [] := by
  induction tokens generalizing a texts with
  | nil =>
      obtain rfl : [] = texts := Option.some.inj htexts
      exact fun u hu => nomatch hu
  | cons t tokens ih =>
      obtain ⟨c, ts, rfl, -, hts, hreach, hlt, -, hrest⟩ := h.texts_cons hline htexts
      refine List.forall_mem_cons.mpr ⟨fun hnil => ?_, ih (hline.trans hreach) hrest hts⟩
      have hoffset := hreach.offset_eq
      rw [hnil, Text.size_nil] at hoffset
      omega

/-- The ranges of tokens that cover a line are those of their texts. -/
lemma columns (hline : (Cursor.start line).Reaches a) (h : Covers a b tokens)
    (htexts : tokens.mapM (·.text? line) = some texts) :
    tokens.mapM (·.columns? line) = some (columnRanges ((Cursor.start line).textTo a) texts) := by
  induction tokens generalizing a texts with
  | nil =>
      obtain rfl : [] = texts := Option.some.inj htexts
      rfl
  | cons t tokens ih =>
      obtain ⟨c, ts, rfl, htext, hts, hreach, -, hspan, hrest⟩ := h.texts_cons hline htexts
      have hstart : t.start = a.offset := congrArg Span.start hspan
      have hfirst : t.columns? line = some (((Cursor.start line).textTo a).width,
          ((Cursor.start line).textTo a).width + (a.textTo c).width) := by
        rw [Token.columns?, hstart, hline.takeBytes?, htext]
      have hlater := ih (hline.trans hreach) hrest hts
      rw [← hline.textTo_append hreach] at hlater
      rw [List.mapM_cons, hfirst, hlater]
      rfl

/-- Tokens that cover the rest of a line are begun where their texts are reached. -/
lemma begun_tokens (theme : Theme) (hline : (Cursor.start line).Reaches a)
    (h : Covers a (Cursor.start line).finish tokens)
    (htexts : tokens.mapM (·.text? line) = some texts) (column : ℕ) :
    (Journal.tokens line theme none a.offset column tokens).begun
      = columnsReached column texts := by
  induction tokens generalizing a texts column with
  | nil =>
      obtain rfl : [] = texts := Option.some.inj htexts
      obtain rfl : a = (Cursor.start line).finish := h
      have hend : ¬(Cursor.start line).finish.offset < line.size := by
        simp [Cursor.finish, Cursor.start]
      rw [Journal.tokens, if_neg hend]
      rfl
  | cons t tokens ih =>
      obtain ⟨c, ts, rfl, htext, hts, hreach, -, hspan, hrest⟩ := h.texts_cons hline htexts
      have hstart : t.start = a.offset := congrArg Span.start hspan
      have hstop : t.stop = c.offset := congrArg Span.stop hspan
      rw [Journal.tokens, if_neg (by omega), columnsReached]
      simp only [Journal.begun_span htext]
      rw [hstop, ih (hline.trans hreach) hrest hts]

end Covers

/-! ### Columns of shell text -/

namespace Language.IsShell

/-- **The columns of the tokens of shell text tile the line just if widths add up**: if the first
tokens, however many, are together as wide as they are by themselves. Up to the last token this is
so just if each token is written, unclipped, where its columns begin; so tokens whose columns tile
the line are written where these begin. Widths add up if no token ends in a character that joins
with the next token, and if they do so everywhere in the line. -/
theorem tokenizeLine_columns {l : Language} (hl : l.IsShell) (line : Text) (start : LineState)
    (theme : Theme) :
    ∃ texts ranges,
      (l.tokenizeLine line start).tokens.mapM (·.text? line) = some texts
      ∧ texts.flatten = line
      ∧ (l.tokenizeLine line start).tokens.mapM (·.columns? line) = some ranges
      ∧ (ColumnsTile 0 line.width ranges ↔ Text.AddUp texts)
      ∧ (ranges.map Prod.fst = (journal line (l.tokenizeLine line start).tokens theme none).begun
          ↔ Text.AddUp texts.dropLast)
      ∧ (ColumnsTile 0 line.width ranges →
          ranges.map Prod.fst = (journal line (l.tokenizeLine line start).tokens theme none).begun)
      ∧ (texts.IsChain Text.Detached ∨ line.Additive → ColumnsTile 0 line.width ranges) := by
  have hcovers := hl.covers_tokenizeLine line start
  obtain ⟨texts, htexts, hflatten⟩ := hcovers.partitions.texts
  have hranges := hcovers.columns (.refl _) htexts
  have hbegun : (journal line (l.tokenizeLine line start).tokens theme none).begun
      = columnsReached 0 texts := hcovers.begun_tokens theme (.refl _) htexts 0
  have hbefore : (Cursor.start line).textTo (Cursor.start line) = [] := Cursor.textTo_eq rfl rfl
  rw [hbefore] at hranges
  have htile : ColumnsTile 0 line.width (columnRanges [] texts) ↔ Text.AddUp texts := by
    rw [← columnsTile_flatten_iff, hflatten]
  -- no token begins behind the last one, so where it ends does not matter to what is written
  refine ⟨texts, columnRanges [] texts, htexts, hflatten, hranges, htile, ?_, fun h => ?_,
    fun h => ?_⟩
  · rw [hbegun]
    exact starts_flatten_iff
  · rw [hbegun]
    exact starts_flatten_iff.mpr ((htile.mp h).of_isPrefix texts.dropLast_prefix)
  · refine htile.mpr ?_
    rcases h with hchain | hadditive
    · exact Text.addUp_of_detached (hcovers.texts_ne_nil (.refl _) htexts) hchain
    · exact Text.addUp_of_additive (hflatten ▸ hadditive)

/-- Within a token, characters may join. -/
theorem tokenizeLine_columns_quoted :
    let line : Text := ['"', '\u263a', '\ufe0f', '"', ';']
    shell.IsShell ∧ ∃ ranges,
      (shell.tokenizeLine line .root).tokens.mapM (·.columns? line) = some ranges
      ∧ ColumnsTile 0 line.width ranges
      ∧ ranges.map Prod.fst
        = (journal line (shell.tokenizeLine line .root).tokens .empty none).begun := by
  intro line
  have hshell : shell.IsShell := Or.inl rfl
  obtain ⟨texts, ranges, htexts, -, hranges, -, -, hbegun, htile⟩ :=
    hshell.tokenizeLine_columns line .root .empty
  have htokens : (shell.tokenizeLine line .root).tokens.mapM (·.text? line)
      = some [['"'], ['\u263a', '\ufe0f'], ['"'], [';']] := by
    decide +kernel
  have hchain : texts.IsChain Text.Detached := by
    obtain rfl := Option.some.inj (htexts.symm.trans htokens)
    decide +kernel
  exact ⟨hshell, ranges, hranges, htile (.inl hchain), hbegun (htile (.inl hchain))⟩

/-- A selector makes a picture of the character before it, but stands in a token of its own, which
takes no column. So the second column of the picture is no token's, and what comes behind is written
in that column, and not in the one behind it. -/
theorem tokenizeLine_columns_selector :
    let line : Text := ['\u263a', '\ufe0f', ' ']
    shell.IsShell
      ∧ (shell.tokenizeLine line .root).tokens.mapM (·.columns? line)
        = some [(0, 1), (1, 1), (2, 3)]
      ∧ line.width = 3 ∧ ¬ColumnsTile 0 line.width [(0, 1), (1, 1), (2, 3)]
      ∧ (journal line (shell.tokenizeLine line .root).tokens .empty none).begun = [0, 1, 1] := by
  intro line
  have hwidth : line.width = 3 := by decide +kernel
  refine ⟨Or.inl rfl, by decide +kernel, hwidth, ?_, by decide +kernel⟩
  rintro ⟨-, -, hgap, -⟩
  exact absurd hgap (by decide)

end Language.IsShell

end ShellSyntax
