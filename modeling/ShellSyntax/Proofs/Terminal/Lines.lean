import Mathlib.Data.List.Basic
import Mathlib.Data.List.Chain
import Mathlib.Tactic.Common
import ShellSyntax.Proofs.Shell.Coverage
import ShellSyntax.Proofs.Terminal.Screen
import ShellSyntax.Proofs.Text.Clipping
import ShellSyntax.Terminal.Render

/-!
What a terminal shows of a line.

* `styleAt`, `styledCells`: how the characters of a line are to look, by the tokens they lie in;
* `Placed`, `Follow`: tokens in order, with or without gaps. `styledCells_cons`: the characters
  before the first token, within it, and behind it;
* `Shows`: what is written shows these characters from the first one on, and all of them if there is
  no limit. `shows_span`, `shows_tokens`: so does a stretch of the line before what shows the rest,
  and a line with its tokens;
* `renderLine_shows`: a line shows on a terminal as it is, each character in the style of its token.
-/

namespace ShellSyntax

/-! ### How a line is to look -/

/-- The style at an offset of a line: that of the token it lies in, if any. -/
def styleAt (theme : Theme) (tokens : List Token) (offset : ℕ) : Style :=
  match tokens.find? fun t => t.start ≤ offset ∧ offset < t.stop with
  | some t => theme.styleFor t.kind
  | none => .plain

/-- The characters of a text that begins at an offset of a line, each in its style. -/
def styledCells (theme : Theme) (tokens : List Token) : ℕ → Text → List Cell
  | _, [] => []
  | offset, x :: rest =>
    (x, styleAt theme tokens offset) :: styledCells theme tokens (offset + x.utf8Size) rest

/-- The tokens begin and end at places of the line, in order, and none begins before the end of the
one before it. -/
structure Placed (line : Text) (tokens : List Token) : Prop where
  places : ∀ t ∈ tokens, (line.cursorAt? t.start).isSome ∧ (line.cursorAt? t.stop).isSome
  inOrder : ∀ t ∈ tokens, t.start ≤ t.stop
  apart : tokens.IsChain fun t u => t.stop ≤ u.start

/-- The tokens follow a place of a line in order, at places of the line. -/
def Follow : Cursor → List Token → Prop
  | _, [] => True
  | a, t :: tokens => ∃ b c, a.Reaches b ∧ b.Reaches c ∧ t.toSpan = b.spanTo c ∧ Follow c tokens

variable {line : Text} {tokens : List Token} {theme : Theme} {limit : Option ℕ} {a b c : Cursor}
  {cells : List Cell}

lemma Placed.follow (h : Placed line tokens) (ha : (Cursor.start line).Reaches a)
    (hfirst : ∀ t ∈ tokens.head?, a.offset ≤ t.start) : Follow a tokens := by
  induction tokens generalizing a with
  | nil => trivial
  | cons t tokens ih =>
      obtain ⟨⟨hstart, hstop⟩, hplaces⟩ := List.forall_mem_cons.mp h.places
      obtain ⟨hle, hinOrder⟩ := List.forall_mem_cons.mp h.inOrder
      obtain ⟨hnext, hapart⟩ := List.isChain_cons.mp h.apart
      obtain ⟨b, hb⟩ := Option.isSome_iff_exists.mp hstart
      obtain ⟨c, hc⟩ := Option.isSome_iff_exists.mp hstop
      obtain ⟨hb, hbstart⟩ := Cursor.Reaches.of_cursorAt? hb
      obtain ⟨hc, hcstop⟩ := Cursor.Reaches.of_cursorAt? hc
      have hab : a.offset ≤ b.offset := by
        rw [hbstart]
        exact hfirst t rfl
      have hspan : t.toSpan = b.spanTo c := by
        rw [Cursor.spanTo, hbstart, hcstop]
      refine ⟨b, c, ha.of_le hb hab, hb.of_le hc (by omega), hspan, ?_⟩
      exact ih ⟨hplaces, hinOrder, hapart⟩ hc fun u hu => by rw [hcstop]; exact hnext u hu

/-! ### The cells of stretches of a line -/

lemma styledCells_append (offset : ℕ) (t u : Text) :
    styledCells theme tokens offset (t ++ u)
      = styledCells theme tokens offset t ++ styledCells theme tokens (offset + t.size) u := by
  induction t generalizing offset with
  | nil => rfl
  | cons x t ih =>
      rw [List.cons_append, styledCells, ih, Text.size_cons, styledCells, List.cons_append,
        Nat.add_assoc]

/-- Text that has one style throughout. -/
lemma styledCells_eq_map {offset : ℕ} {t : Text} {s : Style}
    (h : ∀ n, offset ≤ n → n < offset + t.size → styleAt theme tokens n = s) :
    styledCells theme tokens offset t = t.map (·, s) := by
  induction t generalizing offset with
  | nil => rfl
  | cons x t ih =>
      have hx := x.utf8Size_pos
      rw [Text.size_cons] at h
      have hlater : styledCells theme tokens (offset + x.utf8Size) t = t.map (·, s) :=
        ih fun n hle hlt => h n (by omega) (by omega)
      rw [styledCells, h offset (Nat.le_refl _) (by omega), hlater]
      rfl

lemma styledCells_congr {tokens' : List Token} {offset : ℕ} {t : Text}
    (h : ∀ n, offset ≤ n → styleAt theme tokens n = styleAt theme tokens' n) :
    styledCells theme tokens offset t = styledCells theme tokens' offset t := by
  induction t generalizing offset with
  | nil => rfl
  | cons x t ih =>
      rw [styledCells, styledCells, h offset (Nat.le_refl _), ih fun n hle => h n (by omega)]

lemma styleAt_of_lt {n : ℕ} (h : ∀ t ∈ tokens, n < t.start) : styleAt theme tokens n = .plain := by
  have hnone : (tokens.find? fun t => t.start ≤ n ∧ n < t.stop) = none := by
    refine List.find?_eq_none.mpr fun t ht => ?_
    have hlt := h t ht
    simp
    omega
  rw [styleAt, hnone]

lemma styleAt_cons_of_mem {t : Token} {n : ℕ} (hle : t.start ≤ n) (hlt : n < t.stop) :
    styleAt theme (t :: tokens) n = theme.styleFor t.kind := by
  rw [styleAt, List.find?_cons_of_pos (by simp [hle, hlt])]

lemma styleAt_cons_of_le {t : Token} {n : ℕ} (h : t.stop ≤ n) :
    styleAt theme (t :: tokens) n = styleAt theme tokens n := by
  rw [styleAt, styleAt, List.find?_cons_of_neg (by simp; omega)]

lemma Follow.le_start (h : Follow a tokens) : ∀ t ∈ tokens, a.offset ≤ t.start := by
  induction tokens generalizing a with
  | nil => exact fun t ht => absurd ht List.not_mem_nil
  | cons t tokens ih =>
      obtain ⟨b, c, hb, hc, hspan, hrest⟩ := h
      have hstart : t.start = b.offset := congrArg Span.start hspan
      have hle := hb.offset_le
      refine List.forall_mem_cons.mpr ⟨by omega, fun u hu => ?_⟩
      have hlater := ih hrest u hu
      have hle' := hc.offset_le
      omega

/-- The cells of a line from a place on are those before the next token, those of the token, and
those behind it. -/
lemma styledCells_cons {t : Token} (hb : a.Reaches b) (hc : b.Reaches c)
    (hspan : t.toSpan = b.spanTo c) (hrest : Follow c tokens) :
    styledCells theme (t :: tokens) a.offset a.rest
      = (a.textTo b).map (·, Style.plain) ++ ((b.textTo c).map (·, theme.styleFor t.kind)
        ++ styledCells theme tokens c.offset c.rest) := by
  have hstart : t.start = b.offset := congrArg Span.start hspan
  have hstop : t.stop = c.offset := congrArg Span.stop hspan
  have hboffset := hb.offset_eq
  have hcoffset := hc.offset_eq
  have hbefore : styledCells theme (t :: tokens) a.offset (a.textTo b)
      = (a.textTo b).map (·, Style.plain) := by
    refine styledCells_eq_map fun n hle hlt => styleAt_of_lt ?_
    refine List.forall_mem_cons.mpr ⟨by omega, fun u hu => ?_⟩
    have hu := hrest.le_start u hu
    have hbc := hc.offset_le
    omega
  have hwithin : styledCells theme (t :: tokens) b.offset (b.textTo c)
      = (b.textTo c).map (·, theme.styleFor t.kind) :=
    styledCells_eq_map fun n hle hlt => styleAt_cons_of_mem (by omega) (by omega)
  have hbehind : styledCells theme (t :: tokens) c.offset c.rest
      = styledCells theme tokens c.offset c.rest :=
    styledCells_congr fun n hle => styleAt_cons_of_le (by omega)
  -- the three stretches are looked up one by one
  calc styledCells theme (t :: tokens) a.offset a.rest
      = styledCells theme (t :: tokens) a.offset (a.textTo b ++ (b.textTo c ++ c.rest)) := by
        rw [← hc.rest_eq, ← hb.rest_eq]
    _ = styledCells theme (t :: tokens) a.offset (a.textTo b)
          ++ (styledCells theme (t :: tokens) b.offset (b.textTo c)
            ++ styledCells theme (t :: tokens) c.offset c.rest) := by
        rw [styledCells_append, styledCells_append, ← hboffset, ← hcoffset]
    _ = _ := by rw [hbefore, hwithin, hbehind]

/-! ### What is written -/

/-- What is written shows cells from the first one on, and all of them if there is no limit. -/
structure Shows (limit : Option ℕ) (r : Rendering) (cells : List Cell) : Prop where
  placed : r.misplaced = false
  drawn : ∃ shown, Terminal.Draws r.written shown ∧ shown <+: cells
    ∧ (limit = none → shown = cells)

lemma shows_done : Shows limit .done [] :=
  ⟨rfl, [], .nil, List.prefix_refl _, fun _ => rfl⟩

/-- A segment shows the start of its text. It is cut short just if it does not show all. -/
lemma exists_drawSegment (limit : Option ℕ) (column : ℕ) (s : Style) {t : Text} (ht : '\x1b' ∉ t) :
    ∃ shown, shown <+: t
      ∧ Terminal.Draws (drawSegment limit column s t).written (shown.map (·, s))
      ∧ ((drawSegment limit column s t).cut = false → shown = t)
      ∧ (limit = none → (drawSegment limit column s t).cut = false) := by
  rw [drawSegment]
  cases limit with
  | none => exact ⟨t, List.prefix_refl _, Terminal.draws_draw ht s, fun _ => rfl, by simp⟩
  | some room =>
      cases hroom : room - column with
      | zero =>
          simp only [Option.map_some, hroom]
          exact ⟨[], List.nil_prefix, .nil, by simp, by simp⟩
      | succ n =>
          have hstart := t.clip_isPrefix (n + 1)
          simp only [Option.map_some, hroom]
          refine ⟨t.clip (n + 1), hstart, Terminal.draws_draw ?_ s, fun h => ?_, by simp⟩
          · exact fun hmem => ht (hstart.subset hmem)
          · exact hstart.eq_of_length_le (Nat.le_of_not_lt (of_decide_eq_false h))

/-- The text of a stretch of the line shows in its style, before what comes behind it. -/
lemma shows_span (hline : '\x1b' ∉ line) (ha : (Cursor.start line).Reaches a) (hb : a.Reaches b)
    (column : ℕ) (s : Style) {later : ℕ → Rendering}
    (h : ∀ column, Shows limit (later column) cells) :
    Shows limit (.span line limit column s (a.spanTo b) later)
      ((a.textTo b).map (·, s) ++ cells) := by
  have htext : '\x1b' ∉ a.textTo b := by
    have hrest := ha.rest_eq
    rw [hb.rest_eq] at hrest
    intro hmem
    refine hline ?_
    show '\x1b' ∈ (Cursor.start line).rest
    rw [hrest]
    exact List.mem_append_right _ (List.mem_append_left _ hmem)
  obtain ⟨shown, hstart, hdraws, hall, hcut⟩ :=
    exists_drawSegment limit column s htext
  rw [Rendering.span, ha.slice? hb]
  show Shows limit (.after (drawSegment limit column s (a.textTo b)) later) _
  rw [Rendering.after]
  split
  · -- the stretch was cut, which only a limit does, and nothing comes behind it
    rename_i hshort
    refine ⟨rfl, shown.map (·, s), hdraws, ?_, fun hlimit => ?_⟩
    · exact (hstart.map _).trans (List.prefix_append _ _)
    · rw [hcut hlimit] at hshort
      cases hshort
  · rename_i hwhole
    obtain rfl := hall (Bool.eq_false_iff.mpr hwhole)
    obtain ⟨hplaced, shown', hdraws', hstart', hall'⟩ :=
      h (drawSegment limit column s (a.textTo b)).column
    refine ⟨hplaced, (a.textTo b).map (·, s) ++ shown', hdraws.append hdraws', ?_, fun hlimit => ?_⟩
    · exact (List.prefix_append_right_inj _).mpr hstart'
    · rw [hall' hlimit]

/-- The rest of a line shows in the styles of the tokens that follow. -/
lemma shows_tokens (theme : Theme) (limit : Option ℕ) (hline : '\x1b' ∉ line)
    (ha : (Cursor.start line).Reaches a) (h : Follow a tokens) (column : ℕ) :
    Shows limit (.tokens line theme limit a.offset column tokens)
      (styledCells theme tokens a.offset a.rest) := by
  induction tokens generalizing a column with
  | nil =>
      -- behind the last token the rest of the line is in no style
      have hsize := ha.size_eq
      have hcells : styledCells theme [] a.offset a.rest
          = (a.textTo a.finish).map (·, Style.plain) ++ [] := by
        have hrest : a.textTo a.finish = a.rest :=
          Cursor.textTo_eq (List.append_nil _).symm rfl
        rw [hrest, List.append_nil]
        exact styledCells_eq_map fun n _ _ => rfl
      rw [Rendering.tokens, hcells]
      split
      · have hspan : (⟨a.offset, line.size⟩ : Span) = a.spanTo a.finish := by
          rw [hsize]
          rfl
        rw [hspan]
        exact shows_span hline ha (.finish a) column .plain fun _ => shows_done
      · have hnil : a.rest = [] := Text.eq_nil_of_size (by omega)
        have htext : a.textTo a.finish = [] := Cursor.textTo_eq hnil (by simp [Cursor.finish, hnil])
        rw [htext]
        exact shows_done
  | cons t tokens ih =>
      obtain ⟨b, c, hb, hc, hspan, hrest⟩ := h
      have hstart : t.start = b.offset := congrArg Span.start hspan
      have hplace := ha.trans hb
      have htoken : ∀ column, Shows limit
          (.span line limit column (theme.styleFor t.kind) t.toSpan fun column =>
            .tokens line theme limit t.stop column tokens)
          ((b.textTo c).map (·, theme.styleFor t.kind)
            ++ styledCells theme tokens c.offset c.rest) := by
        intro column
        rw [hspan]
        exact shows_span hline hplace hc column _ (ih (hplace.trans hc) hrest)
      rw [Rendering.tokens, styledCells_cons hb hc hspan hrest]
      -- what lies in front of the token is written first, unless the token begins here
      split
      · have hgap : (⟨a.offset, t.start⟩ : Span) = a.spanTo b := by
          rw [hstart]
          rfl
        rw [hgap]
        exact shows_span hline ha hb column .plain htoken
      · obtain rfl : a = b := hb.antisymm (by omega)
        have htext : a.textTo a = [] := Cursor.textTo_eq rfl rfl
        rw [htext, List.map_nil, List.nil_append]
        exact htoken column

/-! ### The tokens of shell text -/

/-- Tokens that tile a line are placed in it. -/
lemma Partitions.placed (h : Partitions line tokens) : Placed line tokens where
  places := h.places
  inOrder t ht := Nat.le_of_lt (h.tiles.lt t ht)
  apart := h.tiles.contiguous.imp fun _ _ => Nat.le_of_eq

/-- **A line shows on a terminal as it is, each character in the style of the token it lies in**,
and plain outside of tokens. If there is a limit, the line may end early. Writing does not fail, and
leaves the terminal in its plain style. In particular this is so for the tokens of shell text. -/
theorem renderLine_shows (hline : '\x1b' ∉ line) (h : Placed line tokens) (theme : Theme)
    (limit : Option ℕ) :
    (∃ shown, Terminal.blank.read? (renderLine line tokens theme limit).written
        = some ⟨shown, .plain, .text⟩
      ∧ shown <+: styledCells theme tokens 0 line
      ∧ (limit = none → shown = styledCells theme tokens 0 line))
      ∧ (∀ room, (renderLine line tokens theme limit).written.size ≤ room →
        (renderLine line tokens theme limit).deliver room = .complete)
      ∧ ∀ l : Language, l.IsShell → ∀ start, Placed line (l.tokenizeLine line start).tokens := by
  have hfollow : Follow (.start line) tokens := h.follow (.refl _) fun t _ => Nat.zero_le t.start
  obtain ⟨hplaced, shown, hdraws, hstart, hall⟩ :=
    shows_tokens theme limit hline (.refl _) hfollow 0
  refine ⟨⟨shown, hdraws [], hstart, hall⟩, fun room hroom => ?_, fun l hl start => ?_⟩
  · have hmisplaced : (renderLine line tokens theme limit).misplaced = false := hplaced
    rw [Rendering.deliver, if_neg (Nat.not_lt_of_le hroom), hmisplaced]
    rfl
  · exact (hl.covers_tokenizeLine line start).partitions.placed

/-- A keyword behind a gap is shown in its style, and the gap is plain. -/
theorem renderLine_shows_keyword :
    let line : Text := ['é', ' ', 'i', 'f']
    let tokens : List Token := [.ofSpan ⟨3, 5⟩ .keyword]
    let style : Style := ⟨.magenta, .standard, true, false, false, false⟩
    ('\x1b' ∉ line ∧ Placed line tokens)
      ∧ Terminal.blank.read? (renderLine line tokens .empty none).written
        = some ⟨[('é', .plain), (' ', .plain), ('i', style), ('f', style)], .plain, .text⟩ := by
  have hline : '\x1b' ∉ ['é', ' ', 'i', 'f'] := by decide
  have hplaced : Placed ['é', ' ', 'i', 'f'] [.ofSpan ⟨3, 5⟩ .keyword] :=
    ⟨by decide, by decide, .singleton _⟩
  obtain ⟨⟨shown, hread, -, hall⟩, -⟩ := renderLine_shows hline hplaced .empty none
  refine ⟨⟨hline, hplaced⟩, ?_⟩
  rw [hread, hall rfl]
  rfl

end ShellSyntax
