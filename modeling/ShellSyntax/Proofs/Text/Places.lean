import Mathlib.Data.List.Basic
import Mathlib.Tactic.Common
import ShellSyntax.Text.Cursor

/-!
The places of a line and the text between them.

* `Cursor.Reaches`: one place stands at or behind another, in the same line. `Cursor.Reaches.trans`,
  `Cursor.Reaches.antisymm`, `Cursor.Reaches.of_le`: an order;
* `Cursor.Reaches.rest_eq`: from one place to a later one there is just the text between them;
* `Cursor.behind`: the place behind a text that stands at a place;
* `Cursor.Reaches.cursorAt?`, `Cursor.Reaches.of_cursorAt?`, `Cursor.Reaches.slice?`: the offsets of
  places of a line are just those that lie neither past its end nor inside a character, and the text
  between two of them can be cut out.
-/

namespace ShellSyntax

namespace Text

lemma eq_nil_of_size {t : Text} (h : t.size = 0) : t = [] := by
  have := t.length_le_size
  exact List.length_eq_zero_iff.mp (by omega)

lemma dropBytes?_append (t rest : Text) : (t ++ rest).dropBytes? t.size = some rest := by
  induction t with
  | nil => cases rest <;> rfl
  | cons c t ih =>
      have hc := c.utf8Size_pos
      obtain ⟨n, hn⟩ : ∃ n, c.utf8Size + size t = n + 1 := ⟨c.utf8Size + size t - 1, by omega⟩
      rw [List.cons_append, size_cons, hn, dropBytes?, if_pos (by omega), ← ih]
      · congr 1
        omega
      · omega

/-- What follows the first bytes of a text stands behind a text of that size. -/
lemma eq_append_of_dropBytes? {t rest : Text} {n : ℕ} (h : t.dropBytes? n = some rest) :
    ∃ u : Text, t = u ++ rest ∧ u.size = n := by
  induction t generalizing n with
  | nil =>
      cases n with
      | zero => exact ⟨[], (Option.some.inj h), rfl⟩
      | succ n => cases h
  | cons c t ih =>
      cases n with
      | zero => exact ⟨[], (Option.some.inj h), rfl⟩
      | succ n =>
          rw [dropBytes?] at h
          · split at h
            · rename_i hle
              obtain ⟨u, rfl, hsize⟩ := ih h
              refine ⟨c :: u, rfl, ?_⟩
              rw [size_cons]
              omega
            · cases h
          · omega

lemma takeBytes?_append (t rest : Text) : (t ++ rest).takeBytes? t.size = some t := by
  induction t with
  | nil => cases rest <;> rfl
  | cons c t ih =>
      have hc := c.utf8Size_pos
      obtain ⟨n, hn⟩ : ∃ n, c.utf8Size + size t = n + 1 := ⟨c.utf8Size + size t - 1, by omega⟩
      have hrest : n + 1 - c.utf8Size = size t := by omega
      rw [List.cons_append, size_cons, hn, takeBytes?, if_pos (by omega), hrest, ih]
      · rfl
      · omega

end Text

namespace Cursor

lemma textWithin_append (t rest : Text) : textWithin (t ++ rest) t.size = t := by
  induction t with
  | nil => cases rest <;> rfl
  | cons c t ih =>
      have hc := c.utf8Size_pos
      rw [List.cons_append, Text.size_cons, textWithin, if_neg (by omega),
        show c.utf8Size + Text.size t - c.utf8Size = Text.size t by omega, ih]

lemma textTo_eq {a b : Cursor} {t : Text} (hrest : a.rest = t ++ b.rest)
    (hoffset : b.offset = a.offset + t.size) : a.textTo b = t := by
  rw [textTo, hrest, hoffset, Nat.add_sub_cancel_left, textWithin_append]

lemma textTo_self (c : Cursor) : c.textTo c = [] := textTo_eq rfl rfl

/-- The last place of a line, seen from one of its places. -/
def finish (c : Cursor) : Cursor := ⟨c.offset + c.rest.size, []⟩

/-- The place `b` stands at `a` or behind it in the same line. -/
def Reaches (a b : Cursor) : Prop := ∃ t, a.rest = t ++ b.rest ∧ b.offset = a.offset + t.size

namespace Reaches

variable {a b c : Cursor}

@[refl] lemma refl (a : Cursor) : a.Reaches a := ⟨[], rfl, rfl⟩

lemma trans (h : a.Reaches b) (h' : b.Reaches c) : a.Reaches c := by
  obtain ⟨t, hrest, hoffset⟩ := h
  obtain ⟨u, hrest', hoffset'⟩ := h'
  refine ⟨t ++ u, by rw [hrest, hrest', List.append_assoc], ?_⟩
  rw [hoffset', hoffset, Text.size_append, Nat.add_assoc]

/-- The place behind the next character. -/
lemma past {x : Char} {rest : Text} (h : a.rest = x :: rest) : a.Reaches (a.past x rest) :=
  ⟨[x], h, rfl⟩

/-- The line goes on up to its last place. -/
lemma finish (a : Cursor) : a.Reaches a.finish := ⟨a.rest, (List.append_nil _).symm, rfl⟩

/-- Where no text follows, the line ends. -/
lemma eq_finish (h : a.Reaches b) (hrest : b.rest = []) : b = a.finish := by
  obtain ⟨t, htext, hoffset⟩ := h
  rw [hrest, List.append_nil] at htext
  obtain ⟨offset, rest⟩ := b
  subst hrest
  rw [Cursor.finish, htext, ← hoffset]

lemma finish_eq (h : a.Reaches b) : a.finish = b.finish := by
  obtain ⟨t, hrest, hoffset⟩ := h
  rw [Cursor.finish, Cursor.finish, hrest, hoffset, Text.size_append, Nat.add_assoc]

lemma offset_le (h : a.Reaches b) : a.offset ≤ b.offset := by
  obtain ⟨t, -, hoffset⟩ := h
  omega

/-- Two places of a line with the same offset are the same. -/
lemma antisymm (h : a.Reaches b) (hoffset : b.offset ≤ a.offset) : a = b := by
  obtain ⟨t, hrest, hoffset'⟩ := h
  obtain rfl := Text.eq_nil_of_size (t := t) (by omega)
  cases a; cases b
  simp_all

/-- Of two places of a line, that with the smaller offset stands first. -/
lemma of_le (h : a.Reaches b) (h' : a.Reaches c) (hle : b.offset ≤ c.offset) : b.Reaches c := by
  obtain ⟨t, hrest, hoffset⟩ := h
  obtain ⟨u, hrest', hoffset'⟩ := h'
  rcases List.append_eq_append_iff.mp (hrest.symm.trans hrest') with ⟨v, rfl, hv⟩ | ⟨v, rfl, hv⟩
  · rw [Text.size_append] at hoffset'
    exact ⟨v, hv, by omega⟩
  · rw [Text.size_append] at hoffset
    obtain rfl := Text.eq_nil_of_size (t := v) (by omega)
    exact ⟨[], hv.symm, by simp; omega⟩

/-- The text from one place to a later one is what stands before the later one. -/
lemma rest_eq (h : a.Reaches b) : a.rest = a.textTo b ++ b.rest := by
  obtain ⟨t, hrest, hoffset⟩ := h
  rw [textTo_eq hrest hoffset, hrest]

lemma offset_eq (h : a.Reaches b) : b.offset = a.offset + (a.textTo b).size := by
  obtain ⟨t, hrest, hoffset⟩ := h
  rw [textTo_eq hrest hoffset, hoffset]

/-- The text from one place to a later one is made up of the stretches on the way. -/
lemma textTo_append (h : a.Reaches b) (h' : b.Reaches c) :
    a.textTo b ++ b.textTo c = a.textTo c := by
  refine (textTo_eq ?_ ?_).symm
  · rw [List.append_assoc, ← h'.rest_eq, ← h.rest_eq]
  · rw [Text.size_append, ← Nat.add_assoc, ← h.offset_eq, ← h'.offset_eq]

/-- Each step to a later place leaves less text. -/
lemma length_lt (h : a.Reaches b) (hlt : a.offset < b.offset) : b.rest.length < a.rest.length := by
  obtain ⟨t, hrest, hoffset⟩ := h
  cases t with
  | nil =>
      rw [Text.size_nil] at hoffset
      omega
  | cons x t =>
      rw [hrest, List.length_append, List.length_cons]
      omega

/-- The offset of a place of a line is the size of the text before it. -/
lemma size_textTo {line : Text} (h : (start line).Reaches a) :
    ((start line).textTo a).size = a.offset := by
  simpa [start] using h.offset_eq.symm

/-- What stands before a place of a line and what follows it make up the line. -/
lemma size_eq {line : Text} (h : (start line).Reaches a) : line.size = a.offset + a.rest.size := by
  have hrest : line = (start line).textTo a ++ a.rest := h.rest_eq
  rw [← h.size_textTo, ← Text.size_append, ← hrest]

/-- The offset of a place of a line lies neither past the end nor inside a character. -/
lemma cursorAt? {line : Text} (h : (start line).Reaches a) : line.cursorAt? a.offset = some a := by
  obtain ⟨t, hrest, hoffset⟩ := h
  have hline : line = t ++ a.rest := hrest
  rw [Text.cursorAt?, hoffset, start, Nat.zero_add, hline, Text.dropBytes?_append]
  cases a
  simp_all [start]

/-- An offset that lies neither past the end of a line nor inside a character is that of a place. -/
lemma of_cursorAt? {line : Text} {n : ℕ} (h : line.cursorAt? n = some a) :
    (start line).Reaches a ∧ a.offset = n := by
  obtain ⟨rest, hdrop, rfl⟩ := Option.map_eq_some_iff.mp h
  obtain ⟨u, hline, hsize⟩ := Text.eq_append_of_dropBytes? hdrop
  refine ⟨⟨u, hline, ?_⟩, rfl⟩
  show n = 0 + u.size
  omega

/-- The text before a place of a line can be cut out. -/
lemma takeBytes? {line : Text} (h : (start line).Reaches a) :
    line.takeBytes? a.offset = some ((start line).textTo a) := by
  have hsplit : line = (start line).textTo a ++ a.rest := h.rest_eq
  have htake := Text.takeBytes?_append ((start line).textTo a) a.rest
  rwa [← hsplit, h.size_textTo] at htake

/-- So can the text between two places. -/
lemma slice? {line : Text} (h : (start line).Reaches a) (h' : a.Reaches b) :
    line.slice? (a.spanTo b) = some (a.textTo b) := by
  have hdrop : line.dropBytes? a.offset = some a.rest := by
    have hcursor := h.cursorAt?
    rw [Text.cursorAt?, Option.map_eq_some_iff] at hcursor
    obtain ⟨rest, hdrop, heq⟩ := hcursor
    rw [hdrop, ← heq]
  have hrest := h'.rest_eq
  have hoffset := h'.offset_eq
  rw [Text.slice?, spanTo, if_pos h'.offset_le]
  simp only [hdrop, Option.bind_some]
  rw [hoffset, Nat.add_sub_cancel_left, hrest, Text.takeBytes?_append]

end Reaches

/-- The place behind a text that stands at a place. -/
def behind (c : Cursor) (t : Text) : Cursor := ⟨c.offset + t.size, c.rest.drop t.length⟩

@[simp] lemma behind_nil (c : Cursor) : c.behind [] = c := rfl

lemma behind_append (c : Cursor) (t u : Text) : c.behind (t ++ u) = (c.behind t).behind u := by
  rw [behind, behind, behind, Text.size_append, List.length_append, List.drop_drop, Nat.add_assoc]

lemma behind_cons {c : Cursor} {x : Char} {rest : Text} (hrest : c.rest = x :: rest) (t : Text) :
    c.behind (x :: t) = (c.past x rest).behind t := by
  rw [behind, hrest, Text.size_cons, ← Nat.add_assoc]
  rfl

variable {c : Cursor} {t : Text}

lemma textTo_behind (h : t <+: c.rest) : c.textTo (c.behind t) = t := by
  obtain ⟨rest, hrest⟩ := h
  refine textTo_eq ?_ rfl
  rw [behind, ← hrest, List.drop_left]

lemma prefix_behind (h : t <+: c.rest) {u : Text} :
    u <+: (c.behind t).rest ↔ t ++ u <+: c.rest := by
  obtain ⟨rest, hrest⟩ := h
  rw [behind, ← hrest, List.drop_left, List.prefix_append_right_inj]

end Cursor

end ShellSyntax
