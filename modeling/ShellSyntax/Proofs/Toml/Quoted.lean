import Mathlib.Data.List.Basic
import Mathlib.Tactic.Common
import ShellSyntax.Toml.Quoted

/-!
Strings in quotes read back.

* `Quoted.Written`: how a character is written between double quotes: after a backslash, by its code
  or as itself. `written_escapeChar`: each is written in one of these ways;
* `Quoted.readBasic?_written`, `Quoted.readLongBasic?_written`: a character that is so written is
  read;
* `Quoted.quotes_escapeAll`, `Quoted.three_marks`: what the closing quotes of a long form can be
  mixed up with, namely one or two quotes at the end of the string;
* `Quoted.readBasic?_escapeAll`, `Quoted.readLiteral?_append`, `Quoted.readLongBasic?_escapeAll`,
  `Quoted.readLongLiteral?_append`: each form is read up to its closing quotes;
* `Quoted.read?_write`: so a string reads back in the form in which it is written, if no further
  quote follows.
-/

namespace ShellSyntax.Toml.Quoted

/-! ### Characters between double quotes -/

/-- How a character is written between double quotes, of which the long ones may hold line ends. -/
inductive Written (long : Bool) (c : Char) : Text → Prop where
  | letter {e : Char} (he : escape? e = some c) : Written long c ['\\', e]
  | code {h l : Char} (hcode : codePoint? ['0', '0', h, l] = some c) :
      Written long c ['\\', 'u', '0', '0', h, l]
  | plain (hquote : c ≠ '"') (hslash : c ≠ '\\') (hstand : mayStand c ∨ long ∧ c = '\n') :
      Written long c [c]

lemma mayStand_of_needsEscape {c : Char} (h : needsEscape c = false) : mayStand c ∨ c = '\n' := by
  simp only [needsEscape, mayStand] at *
  grind

/-- The code of a character of one byte is read back. -/
lemma codePoint?_hexDigit :
    ∀ n < 128,
      codePoint? ['0', '0', hexDigit (n / 16), hexDigit (n % 16)] = some (Char.ofNat n) := by
  decide

/-- All characters but the double quote are written in one of the three ways. -/
lemma written_escapeChar (long : Bool) {c : Char} (hquote : c ≠ '"') :
    Written long c (escapeChar long c) := by
  rw [escapeChar]
  split_ifs with hslash hback htab hfeed hreturn hline hneeds
  · subst hslash
    exact .letter rfl
  · exact hback ▸ .letter rfl
  · exact htab ▸ .letter rfl
  · exact hfeed ▸ .letter rfl
  · exact hreturn ▸ .letter rfl
  · exact hline.1 ▸ .letter rfl
  · have hlt : c.toNat < 128 := by
      simp only [needsEscape] at hneeds
      grind
    refine .code ?_
    rw [codePoint?_hexDigit _ hlt, Char.ofNat_toNat]
  · refine .plain hquote hslash ?_
    rcases mayStand_of_needsEscape (Bool.eq_false_iff.mpr hneeds) with hstand | hc
    · exact .inl hstand
    · exact .inr ⟨by simpa [hc] using hline, hc⟩

/-- No way of writing a character starts with a double quote. -/
lemma Written.head?_ne {long : Bool} {c : Char} {w : Text} (h : Written long c w) (t : Text) :
    (w ++ t).head? ≠ some '"' := by
  cases h with
  | letter he => exact fun hc => absurd (Option.some.inj hc) (by decide)
  | code hcode => exact fun hc => absurd (Option.some.inj hc) (by decide)
  | plain hquote hslash hstand => exact fun hc => hquote (Option.some.inj hc)

/-- No way of writing a character starts with a line end, unless the character is one. -/
lemma Written.mayStand {long : Bool} {c : Char} {w : Text} (h : Written long c w) (hline : c ≠ '\n')
    {t : Text} {d : Char} (hd : (w ++ t).head? = some d) : mayStand d := by
  cases h with
  | letter he => exact Option.some.inj hd ▸ rfl
  | code hcode => exact Option.some.inj hd ▸ rfl
  | plain hquote hslash hstand =>
      exact Option.some.inj hd ▸ hstand.resolve_right fun hlong => hline hlong.2

/-- A letter behind a backslash is none of those that digits follow. -/
lemma ne_of_escape? {e c : Char} (he : escape? e = some c) : e ≠ 'u' ∧ e ≠ 'U' := by
  constructor <;>
    · rintro rfl
      cases he

/-- A letter behind a backslash does not end the line. -/
lemma endsLine_of_escape? {e c : Char} (he : escape? e = some c) (t : Text) :
    endsLine (e :: t) = false := by
  have hspace : e ≠ ' ' := by rintro rfl; cases he
  have htab : e ≠ '\t' := by rintro rfl; cases he
  have hline : e ≠ '\n' := by rintro rfl; cases he
  have hreturn : e ≠ '\r' := by rintro rfl; cases he
  simp [endsLine, hspace, htab, hline, hreturn]

lemma readBasic?_written {c : Char} {w : Text} (h : Written false c w) (t : Text) :
    readBasic? (w ++ t) = (readBasic? t).map (consTo c) := by
  cases h with
  | letter he =>
      rw [List.cons_append, List.singleton_append, readBasic?, he, Option.bind_some]
      · exact fun _ _ _ _ _ hu => absurd hu (ne_of_escape? he).1
      · exact fun _ _ _ _ _ _ _ _ _ hu => absurd hu (ne_of_escape? he).2
  | code hcode =>
      rw [List.cons_append, List.cons_append, List.cons_append, List.cons_append,
        List.cons_append, List.singleton_append, readBasic?, hcode, Option.bind_some]
  | plain hquote hslash hstand =>
      have hmay : mayStand c := hstand.resolve_right fun hlong => Bool.false_ne_true hlong.1
      rw [List.singleton_append, readBasic?, if_pos ⟨hslash, hmay⟩]
      · exact hquote
      · exact fun _ _ _ _ _ hc => absurd hc hslash
      · exact fun _ _ _ _ _ _ _ _ _ hc => absurd hc hslash
      · exact fun _ _ hc => absurd hc hslash

/-- A character stands for itself in a long form, unless it starts an escape or closes the form. -/
lemma readLongBasic?_cons {c : Char} {t : Text} (hslash : c ≠ '\\') (hstand : mayStand c ∨ c = '\n')
    (hclose : ¬['"', '"', '"'] <+: c :: t) :
    readLongBasic? false (c :: t) = (readLongBasic? false t).map (consTo c) := by
  have hthree : ∀ s, c = '"' → t = '"' :: '"' :: s → False := by
    rintro s rfl rfl
    exact hclose ⟨s, rfl⟩
  rw [readLongBasic?, if_neg (by simp), if_pos ⟨hslash, hstand⟩]
  · exact fun s hc ht => hthree _ hc ht
  · exact fun s hc ht => hthree _ hc ht
  · exact hthree
  · exact fun _ _ _ _ _ hc => absurd hc hslash
  · exact fun _ _ _ _ _ _ _ _ _ hc => absurd hc hslash
  · exact fun _ _ hc => absurd hc hslash
  · rintro s rfl -
    exact absurd hstand (by decide)

lemma readLongBasic?_written {c : Char} {w : Text} (h : Written true c w) (t : Text) :
    readLongBasic? false (w ++ t) = (readLongBasic? false t).map (consTo c) := by
  cases h with
  | letter he =>
      rw [List.cons_append, List.singleton_append, readLongBasic?, endsLine_of_escape? he, he]
      · rfl
      · exact fun _ _ _ _ _ hu => absurd hu (ne_of_escape? he).1
      · exact fun _ _ _ _ _ _ _ _ _ hu => absurd hu (ne_of_escape? he).2
  | code hcode =>
      rw [List.cons_append, List.cons_append, List.cons_append, List.cons_append,
        List.cons_append, List.singleton_append, readLongBasic?, hcode, Option.bind_some]
  | plain hquote hslash hstand =>
      refine readLongBasic?_cons hslash (hstand.imp_right And.right) fun hclose => hquote ?_
      exact (List.cons_prefix_cons.mp hclose).1.symm

/-- In a short string, and behind two double quotes in a long one, a double quote is escaped. -/
lemma head?_escapeAll {long : Bool} {run : ℕ} (hescape : !long || run = 2) {t : Text} (ht : t ≠ [])
    (rest : Text) : (escapeAll long run t ++ rest).head? ≠ some '"' := by
  cases t with
  | nil => exact absurd rfl ht
  | cons c t =>
      by_cases hc : c = '"'
      · rw [escapeAll, if_pos hc, if_pos hescape]
        exact fun h => absurd (Option.some.inj h) (by decide)
      · rw [escapeAll, if_neg hc, List.append_assoc]
        exact (written_escapeChar long hc).head?_ne _

/-! ### Short forms -/

/-- A short string has no double quotes but escaped ones. -/
lemma readBasic?_escapeAll (run : ℕ) (t rest : Text) :
    readBasic? (escapeAll false run t ++ '"' :: rest) = some (t, rest) := by
  induction t generalizing run with
  | nil => rw [escapeAll, List.nil_append, readBasic?]
  | cons c t ih =>
      by_cases hc : c = '"'
      · subst hc
        rw [escapeAll, if_pos rfl, if_pos (by simp)]
        refine (readBasic?_written (.letter rfl) (escapeAll false 0 t ++ '"' :: rest)).trans ?_
        rw [ih]
        rfl
      · rw [escapeAll, if_neg hc, List.append_assoc,
          readBasic?_written (written_escapeChar false hc), ih]
        rfl

lemma readLiteral?_append {t : Text} (hmark : mark ∉ t) (hstand : ∀ c ∈ t, mayStand c)
    (rest : Text) : readLiteral? (t ++ mark :: rest) = some (t, rest) := by
  induction t with
  | nil => rw [List.nil_append, readLiteral?, if_pos rfl]
  | cons c t ih =>
      have hc : c ≠ mark := fun hc => hmark (hc ▸ List.mem_cons_self)
      rw [List.cons_append, readLiteral?, if_neg hc, if_pos (hstand c List.mem_cons_self),
        ih (fun h => hmark (List.mem_cons_of_mem _ h))
          fun d hd => hstand d (List.mem_cons_of_mem _ hd)]
      rfl

/-! ### Long forms -/

/-- The quotes that close a long form, behind up to two that belong to the string. -/
lemma readLongBasic?_close {n : ℕ} (hn : n ≤ 2) {rest : Text} (hrest : rest.head? ≠ some '"') :
    readLongBasic? false (List.replicate n '"' ++ '"' :: '"' :: '"' :: rest)
      = some (List.replicate n '"', rest) := by
  have hne : ∀ s, rest ≠ '"' :: s := by
    rintro s rfl
    exact hrest rfl
  match n, hn with
  | 0, _ => simp [readLongBasic?, hne]
  | 1, _ => simp [readLongBasic?]
  | 2, _ => simp [readLongBasic?]

/-- What starts with quotes starts with the first of them. -/
lemma head?_of_prefix {q : Char} {qs t : Text} (h : q :: qs <+: t) : t.head? = some q := by
  obtain ⟨s, rfl⟩ := h
  rfl

/-- Where two more double quotes follow one of a string, the string ends with them. -/
lemma quotes_escapeAll {run : ℕ} (hrun : run < 2) {t rest : Text}
    (h : ['"', '"'] <+: escapeAll true (run + 1) t ++ '"' :: '"' :: '"' :: rest) :
    t = [] ∨ run = 0 ∧ t = ['"'] := by
  cases t with
  | nil => exact .inl rfl
  | cons c t =>
      have hfirst := head?_of_prefix h
      by_cases hone : run + 1 = 2
      · exact absurd hfirst (head?_escapeAll (by simp [hone]) (List.cons_ne_nil c t) _)
      · obtain rfl : run = 0 := by omega
        by_cases hc : c = '"'
        · subst hc
          rw [escapeAll, if_pos rfl, if_neg (by decide), List.cons_append] at h
          have hnext := head?_of_prefix (List.cons_prefix_cons.mp h).2
          by_cases ht : t = []
          · exact .inr ⟨rfl, by rw [ht]⟩
          · exact absurd hnext (head?_escapeAll rfl ht _)
        · rw [escapeAll, if_neg hc, List.append_assoc] at hfirst
          exact absurd hfirst ((written_escapeChar true hc).head?_ne _)

/-- A long string reads back. Of its double quotes no three stand in a row. -/
lemma readLongBasic?_escapeAll {run : ℕ} (hrun : run ≤ 2) (t : Text) {rest : Text}
    (hrest : rest.head? ≠ some '"') :
    readLongBasic? false (escapeAll true run t ++ '"' :: '"' :: '"' :: rest) = some (t, rest) := by
  induction t generalizing run with
  | nil => exact readLongBasic?_close (Nat.zero_le 2) hrest
  | cons c t ih =>
      by_cases hc : c = '"'
      · subst hc
        by_cases htwo : run = 2
        · rw [escapeAll, if_pos rfl, if_pos (by simp [htwo])]
          refine (readLongBasic?_written (.letter rfl) (escapeAll true 0 t ++ _)).trans ?_
          rw [ih (Nat.zero_le 2)]
          rfl
        · have hlt : run < 2 := by omega
          rw [escapeAll, if_pos rfl, if_neg (by simp [htwo]), List.cons_append]
          by_cases hclose : ['"', '"'] <+: escapeAll true (run + 1) t ++ '"' :: '"' :: '"' :: rest
          · rcases quotes_escapeAll hlt hclose with rfl | ⟨rfl, rfl⟩
            · exact readLongBasic?_close (n := 1) (by omega) hrest
            · exact readLongBasic?_close (n := 2) (by omega) hrest
          · rw [readLongBasic?_cons (by decide) (.inl (by decide))
              fun h => hclose (List.cons_prefix_cons.mp h).2, ih hlt]
            rfl
      · rw [escapeAll, if_neg hc, List.append_assoc,
          readLongBasic?_written (written_escapeChar true hc), ih (Nat.zero_le 2)]
        rfl

/-! #### Single quotes

A long string between single quotes has no escapes, so that it is written only where it has no long
runs of single quotes. -/

lemma le_go (c : Char) (n : ℕ) (t : Text) : n ≤ longestRun.go c n t := by
  induction t generalizing n with
  | nil => exact Nat.le_refl n
  | cons x t ih =>
      rw [longestRun.go]
      split
      · exact Nat.le_trans (Nat.le_succ n) (ih (n + 1))
      · exact Nat.le_max_left _ _

lemma go_mono (c : Char) {m n : ℕ} (h : m ≤ n) (t : Text) :
    longestRun.go c m t ≤ longestRun.go c n t := by
  induction t generalizing m n with
  | nil => exact h
  | cons x t ih =>
      rw [longestRun.go, longestRun.go]
      split
      · exact ih (Nat.succ_le_succ h)
      · omega

/-- No run gets longer where the text gets shorter. -/
lemma longestRun_tail_le (c x : Char) (t : Text) : longestRun c t ≤ longestRun c (x :: t) := by
  rw [longestRun, longestRun, longestRun.go]
  split
  · exact go_mono c (Nat.zero_le 1) t
  · exact Nat.le_max_right _ _

/-- In a string without long runs of single quotes no three stand in a row. -/
lemma three_marks {t rest : Text} (hrun : longestRun mark t ≤ 2)
    (h : [mark, mark, mark] <+: t ++ mark :: mark :: mark :: rest) :
    ∃ n ≤ 2, t = List.replicate n mark := by
  match t with
  | [] => exact ⟨0, by omega, rfl⟩
  | [a] =>
      obtain ⟨rfl, -⟩ := List.cons_prefix_cons.mp h
      exact ⟨1, by omega, rfl⟩
  | [a, b] =>
      obtain ⟨ha, hnext⟩ := List.cons_prefix_cons.mp h
      obtain ⟨hb, -⟩ := List.cons_prefix_cons.mp hnext
      exact ⟨2, by omega, by rw [← ha, ← hb]; rfl⟩
  | a :: b :: c :: t =>
      obtain ⟨ha, hnext⟩ := List.cons_prefix_cons.mp h
      obtain ⟨hb, hlast⟩ := List.cons_prefix_cons.mp hnext
      obtain ⟨hc, -⟩ := List.cons_prefix_cons.mp hlast
      have hthree : 3 ≤ longestRun mark (mark :: mark :: mark :: t) := le_go mark 3 t
      rw [← ha, ← hb, ← hc] at hrun
      omega

lemma readLongLiteral?_close {n : ℕ} (hn : n ≤ 2) {rest : Text} (hrest : rest.head? ≠ some mark) :
    readLongLiteral? (List.replicate n mark ++ mark :: mark :: mark :: rest)
      = some (List.replicate n mark, rest) := by
  have hne : ∀ s, rest ≠ '\x27' :: s := by
    rintro s rfl
    exact hrest rfl
  match n, hn with
  | 0, _ => simp [readLongLiteral?, mark, hne]
  | 1, _ => simp [readLongLiteral?, mark]
  | 2, _ => simp [readLongLiteral?, mark]

lemma readLongLiteral?_cons {c : Char} {t : Text} (hstand : mayStand c ∨ c = '\n')
    (hclose : ¬[mark, mark, mark] <+: c :: t) :
    readLongLiteral? (c :: t) = (readLongLiteral? t).map (consTo c) := by
  have hthree : ∀ s, c = mark → t = mark :: mark :: s → False := by
    rintro s rfl rfl
    exact hclose ⟨s, rfl⟩
  rw [readLongLiteral?, if_pos hstand]
  · exact fun s hc ht => hthree _ hc ht
  · exact fun s hc ht => hthree _ hc ht
  · exact hthree
  · rintro s rfl -
    exact absurd hstand (by decide)

/-- A long string between single quotes reads back, if no three of them stand in a row in it. -/
lemma readLongLiteral?_append {t : Text} (hstand : ∀ c ∈ t, mayStand c ∨ c = '\n')
    (hrun : longestRun mark t ≤ 2) {rest : Text} (hrest : rest.head? ≠ some mark) :
    readLongLiteral? (t ++ mark :: mark :: mark :: rest) = some (t, rest) := by
  induction t with
  | nil => exact readLongLiteral?_close (Nat.zero_le 2) hrest
  | cons c t ih =>
      by_cases hclose : [mark, mark, mark] <+: c :: t ++ mark :: mark :: mark :: rest
      · obtain ⟨n, hn, ht⟩ := three_marks hrun hclose
        rw [ht]
        exact readLongLiteral?_close hn hrest
      · rw [List.cons_append] at hclose ⊢
        rw [readLongLiteral?_cons (hstand c List.mem_cons_self) hclose,
          ih (fun d hd => hstand d (List.mem_cons_of_mem _ hd))
            (Nat.le_trans (longestRun_tail_le mark c t) hrun)]
        rfl

/-! ### The forms -/

/-- What follows a string does not start with a quote of either sort. -/
structure Clear (rest : Text) : Prop where
  quote : rest.head? ≠ some '"'
  mark : rest.head? ≠ some mark

lemma clear_cons {c : Char} (hquote : c ≠ '"') (hmark : c ≠ Quoted.mark) (t : Text) :
    Clear (c :: t) where
  quote hc := hquote (Option.some.inj hc)
  mark hc := hmark (Option.some.inj hc)

/-- Between single quotes stand only strings of characters that show as they are. -/
lemma of_form_literal {t : Text} (h : form t = .literal) :
    t ≠ [] ∧ mark ∉ t ∧ ∀ c ∈ t, mayStand c := by
  simp only [form] at h
  split at h
  · cases h
  · rename_i hbasic
    split at h
    · rename_i hliteral
      simp only [Bool.and_eq_true, Bool.not_eq_true', List.any_eq_false, List.contains_eq_mem,
        decide_eq_false_iff_not, Bool.not_eq_true] at hliteral
      obtain ⟨⟨hcode, hsingle⟩, hline⟩ := hliteral
      refine ⟨?_, hsingle, fun c hc => ?_⟩
      · rintro rfl
        exact hbasic rfl
      · exact (mayStand_of_needsEscape (hcode c hc)).resolve_right fun he => hline (he ▸ hc)
    · split at h
      · cases h
      · split at h
        · cases h
        · split at h <;> cases h

/-- Between three single quotes no three of them stand in a row. -/
lemma of_form_longLiteral {t : Text} (h : form t = .longLiteral) :
    longestRun mark t ≤ 2 ∧ ∀ c ∈ t, mayStand c ∨ c = '\n' := by
  simp only [form] at h
  split at h
  · cases h
  · split at h
    · cases h
    · split at h
      · cases h
      · split at h
        · rename_i hlong
          simp only [Bool.and_eq_true, Bool.not_eq_true', List.any_eq_false, decide_eq_true_eq,
            Bool.not_eq_true] at hlong
          exact ⟨hlong.2, fun c hc => mayStand_of_needsEscape (hlong.1 c hc)⟩
        · split at h <;> cases h

/-- A text that does not start with a line end keeps its start. -/
lemma dropLineEnd_eq {t : Text} (h : ∀ c, t.head? = some c → mayStand c) : dropLineEnd t = t := by
  cases t with
  | nil => rfl
  | cons c t =>
      have hc := h c rfl
      rw [dropLineEnd]
      · rintro s hs
        cases hs
        exact absurd hc (by decide)
      · rintro s hs
        cases hs
        exact absurd hc (by decide)

/-- Only the line end behind opening quotes does not count. -/
lemma dropLineEnd_head {t body : Text}
    (h : '\n' ∉ t → ∀ c, body.head? = some c → mayStand c) :
    dropLineEnd ((if t.contains '\n' then ['\n'] else []) ++ body) = body := by
  by_cases hline : '\n' ∈ t
  · rw [if_pos (List.contains_iff_mem.mpr hline)]
    rfl
  · rw [if_neg fun hc => hline (List.contains_iff_mem.mp hc)]
    exact dropLineEnd_eq (h hline)

lemma mayStand_escapeAll {run : ℕ} {t rest : Text} (hline : '\n' ∉ t) {c : Char}
    (hc : (escapeAll true run t ++ '"' :: rest).head? = some c) : mayStand c := by
  cases t with
  | nil =>
      obtain rfl := Option.some.inj hc
      rfl
  | cons d t =>
      rw [escapeAll] at hc
      split at hc
      · split at hc <;>
        · obtain rfl := Option.some.inj hc
          rfl
      · rename_i hquote
        rw [List.append_assoc] at hc
        exact (written_escapeChar true hquote).mayStand (List.ne_of_not_mem_cons hline).symm hc

/-- A string reads back in the form in which it is written. -/
lemma read?_write (t : Text) {rest : Text} (hrest : Clear rest) :
    read? (write t ++ rest) = some (t, rest) := by
  rw [write]
  cases hform : form t with
  | basic =>
      simp only [writeAs, List.cons_append, List.append_assoc, List.nil_append]
      rw [read?]
      · exact readBasic?_escapeAll 0 t rest
      · -- only behind the empty string two quotes stand in a row
        intro s hs
        by_cases ht : t = []
        · rw [ht] at hs
          exact hrest.quote (congrArg List.head? (List.cons.inj hs).2)
        · exact head?_escapeAll rfl ht _ (congrArg List.head? hs)
  | literal =>
      obtain ⟨ht, hmark, hstand⟩ := of_form_literal hform
      simp only [writeAs, List.cons_append, List.append_assoc, List.nil_append]
      rw [mark, read?, ← mark]
      · exact readLiteral?_append hmark hstand rest
      · intro s hs
        obtain ⟨c, u, rfl⟩ := List.exists_cons_of_ne_nil ht
        exact hmark (List.mem_cons.mpr (.inl (List.cons.inj hs).1.symm))
  | longBasic =>
      simp only [writeAs, List.cons_append, List.append_assoc, List.nil_append]
      rw [read?, dropLineEnd_head fun hline c hc => mayStand_escapeAll hline hc]
      exact readLongBasic?_escapeAll (Nat.zero_le 2) t hrest.quote
  | longLiteral =>
      obtain ⟨hrun, hstand⟩ := of_form_longLiteral hform
      simp only [writeAs, List.cons_append, List.append_assoc, List.nil_append]
      -- a text without line ends begins with none that the reader would drop
      have hfirst : '\n' ∉ t → ∀ c, (t ++ mark :: mark :: mark :: rest).head? = some c →
          mayStand c := by
        intro hline c hc
        cases t with
        | nil => exact Option.some.inj hc ▸ rfl
        | cons d t =>
            obtain rfl := Option.some.inj hc
            exact (hstand d List.mem_cons_self).resolve_right fun he =>
              hline (he ▸ List.mem_cons_self)
      rw [mark, read?, ← mark, dropLineEnd_head hfirst]
      exact readLongLiteral?_append hstand hrun hrest.mark

/-- Two double quotes at the end of a string stand right before the three that close it. -/
example : write ['\n', '"', '"'] = ['"', '"', '"', '\n', '\n', '"', '"', '"', '"', '"'] := by decide

end ShellSyntax.Toml.Quoted
