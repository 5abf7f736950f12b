import Mathlib.Data.List.TakeDrop
import Mathlib.Tactic.Common
import ShellSyntax.Pattern.Reader

/-!
What a written pattern becomes between `^(?:` and `)`.

* `Lexeme.read?_close`: behind a text that has signs, the closing bracket is one more sign;
* `Pattern.standalone?`: the pattern that a text writes by itself;
* `Pattern.strayBar`: whether a bar stands outside of all groups, that around the text included;
* `Pattern.Reading.Bound`: the invariant of reading a text without such a bar. Of the alternatives
  outside of all groups there is one only, and it begins at the start of the text;
* `Pattern.exists_of_read?`: so the whole pattern begins there. `Pattern.read?_of_standalone?`: if
  the text is a pattern by itself, that pattern follows, and nothing else.
-/

namespace ShellSyntax

/-! ### The signs of a text and a closing bracket -/

/-- What follows the closing bracket of a set does not matter to the set. -/
lemma SetSign.readUntilClose?_append {t rest : Text} {signs : List SetSign}
    (h : readUntilClose? t = some (signs, rest)) (u : Text) :
    readUntilClose? (t ++ u) = some (signs, rest ++ u) := by
  fun_induction readUntilClose? t generalizing signs rest with
  | case1 => cases h
  | case2 t =>
      obtain ⟨rfl, rfl⟩ := Prod.mk.inj (Option.some.inj h)
      rfl
  | case3 => cases h
  | case4 t ih =>
      obtain ⟨⟨signs, rest⟩, hr, heq⟩ := Option.map_eq_some_iff.mp h
      obtain ⟨rfl, rfl⟩ := Prod.mk.inj heq
      simp only [List.cons_append, readUntilClose?, ih hr, Option.map_some]
  | case5 c t hs ih =>
      obtain ⟨d, hd, h⟩ := Option.bind_eq_some_iff.mp h
      obtain ⟨⟨signs, rest⟩, hr, heq⟩ := Option.map_eq_some_iff.mp h
      obtain ⟨rfl, rfl⟩ := Prod.mk.inj heq
      simp [readUntilClose?, hd, ih hr]
  | case6 c t hclose hend hblank hescape ih =>
      have hplain : c ≠ '\\' := by
        rintro rfl
        cases t with
        | nil => exact hend rfl rfl
        | cons d t => exact hescape d t rfl rfl
      obtain ⟨⟨signs, rest⟩, hr, heq⟩ := Option.map_eq_some_iff.mp h
      obtain ⟨rfl, rfl⟩ := Prod.mk.inj heq
      simp [readUntilClose?, hplain, ih hr]

/-- The marks at the start of a set end before its other characters. -/
lemma SetSign.leading_append {t : Text} (h : (leading t).2 ≠ []) (u : Text) :
    leading (t ++ u) = ((leading t).1, (leading t).2 ++ u) := by
  have hhyphens : ∀ {t : Text}, (t.span (· = '-')).2 ≠ [] →
      (t ++ u).span (· = '-') = ((t.span (· = '-')).1, (t.span (· = '-')).2 ++ u) := by
    intro t h
    simp only [List.span_eq_takeWhile_dropWhile] at h ⊢
    have hlength : (t.takeWhile (· = '-')).length ≠ t.length := by
      intro hall
      have hsplit := congrArg List.length
        (List.takeWhile_append_dropWhile (p := (· = '-')) (l := t))
      rw [List.length_append] at hsplit
      exact h (List.length_eq_zero_iff.mp (by omega))
    rw [List.takeWhile_append, if_neg hlength, List.dropWhile_append,
      if_neg (by simpa using h)]
  cases t with
  | nil => exact absurd rfl h
  | cons c t =>
      by_cases hc : c = ']'
      · subst hc
        rfl
      · have hleading : ∀ v : Text, leading (c :: v) = (c :: v).span (· = '-') := fun v => by
          simp [leading, hc]
        rw [hleading] at h
        rw [List.cons_append, hleading, hleading, ← List.cons_append, hhyphens h]

lemma CharSet.readItems?_eq (negated : Bool) (t : Text) :
    readItems? negated t = (SetSign.readUntilClose? (SetSign.leading t).2).bind fun r =>
      (SetSign.items? r.1).map fun items =>
        (ofItems negated ((SetSign.leading t).1.map .single ++ items), r.2) := rfl

/-- What follows the closing bracket of a set does not matter to the set. -/
lemma CharSet.read?_append {t rest : Text} {set : CharSet × ℕ} (h : read? t = some (set, rest))
    (u : Text) : read? (t ++ u) = some (set, rest ++ u) := by
  have hitems : ∀ {negated : Bool} {t : Text}, readItems? negated t = some (set, rest) →
      readItems? negated (t ++ u) = some (set, rest ++ u) := by
    intro negated t h
    rw [readItems?_eq] at h ⊢
    obtain ⟨⟨signs, rest'⟩, hsigns, h⟩ := Option.bind_eq_some_iff.mp h
    obtain ⟨items, hset, heq⟩ := Option.map_eq_some_iff.mp h
    obtain ⟨rfl, rfl⟩ := Prod.mk.inj heq
    have hleading : (SetSign.leading t).2 ≠ [] := by
      intro hnil
      rw [hnil] at hsigns
      cases hsigns
    rw [SetSign.leading_append hleading, SetSign.readUntilClose?_append hsigns, Option.bind_some,
      hset]
    rfl
  cases t with
  | nil => cases h
  | cons c t =>
      by_cases hc : c = '^'
      · subst hc
        exact hitems h
      · have hread : ∀ v : Text, read? (c :: v) = readItems? false (c :: v) := fun v => by
          simp [read?, hc]
        rw [hread] at h
        rw [List.cons_append, hread]
        exact hitems h

namespace Lexeme

/-- No sign goes on over a closing bracket that stands behind it. -/
lemma next?_close {c : Char} {t rest : Text} {s : Lexeme} (h : next? c t = some (s, rest)) :
    next? c (t ++ [')']) = some (s, rest ++ [')']) := by
  revert h
  fun_cases next? c t with
  | case1 | case4 | case5 | case6 | case7 | case8 | case9 | case10 | case11 | case14 =>
      rintro ⟨⟩
      rfl
  | case2 | case13 | case16 => exact nofun
  | case3 =>
      rintro ⟨⟩
      cases t with
      | nil => rfl
      | cons d t => simp_all [next?]
  | case12 =>
      intro h
      obtain ⟨⟨set, rest'⟩, hset, heq⟩ := Option.map_eq_some_iff.mp h
      obtain ⟨rfl, rfl⟩ := Prod.mk.inj heq
      rw [next?, CharSet.read?_append hset]
      rfl
  | case15 d t hd =>
      intro h
      obtain ⟨e, he, heq⟩ := Option.map_eq_some_iff.mp h
      obtain ⟨rfl, rfl⟩ := Prod.mk.inj heq
      simp [next?, he]
  | case17 =>
      rintro ⟨⟩
      cases t with
      | nil => simp_all [next?]
      | cons d t => simp_all [next?]

/-- Behind a text that has signs, the closing bracket is one more sign. -/
lemma read?_close {t : Text} {signs : List Lexeme} (h : read? t = some signs) :
    read? (t ++ [')']) = some (signs ++ [closeGroup]) := by
  have hall : ∀ {n : ℕ} {t : Text} {signs : List Lexeme}, readAll? n t = some signs →
      readAll? (n + 1) (t ++ [')']) = some (signs ++ [closeGroup]) := by
    intro n
    induction n with
    | zero =>
        intro t signs h
        cases t with
        | nil =>
            obtain rfl := Option.some.inj h
            rfl
        | cons c t => cases h
    | succ n ih =>
        intro t signs h
        cases t with
        | nil =>
            obtain rfl := Option.some.inj h
            rfl
        | cons c t =>
            obtain ⟨⟨s, rest⟩, hs, h⟩ := Option.bind_eq_some_iff.mp h
            obtain ⟨later, hlater, rfl⟩ := Option.map_eq_some_iff.mp h
            rw [List.cons_append, readAll?, next?_close hs, Option.bind_some, ih hlater]
            rfl
  rw [read?, List.length_append]
  exact hall h

end Lexeme

/-! ### Stray bars -/

namespace Lexeme

/-- How many groups are open behind a sign, if `n` are open before it. -/
def openAfter (n : ℕ) : Lexeme → ℕ
  | openGroup _ => n + 1
  | closeGroup => n - 1
  | _ => n

/-- Whether one of the signs is a bar outside of all groups, if `n` groups are open at first. -/
def barOutside : ℕ → List Lexeme → Bool
  | _, [] => false
  | n, s :: signs => s = bar && n = 0 || barOutside (openAfter n s) signs

end Lexeme

namespace Pattern

/-- Whether a text between `^(?:` and `)` has a bar outside of all groups. There must be a closing
bracket in front of it that closes the group around the text. -/
def strayBar (source : Text) : Bool := (Lexeme.read? (source ++ [')'])).any (Lexeme.barOutside 1)

namespace Reading

/-- The reader at the start of a text that stands by itself. -/
def start : Reading := ⟨0, false, .opened none, []⟩

/-- The reader with one more group around all others. -/
def around (f : Frame) (r : Reading) : Reading := { r with outer := r.outer ++ [f] }

/-- What is read in front of a text that does not stand by itself. -/
def base : Frame := (Frame.opened none).push ⟨empty, 0⟩ |>.push ⟨atStart, 0⟩

end Reading

/-- The pattern that a text writes by itself. -/
def standalone? (source : Text) : Option Pattern :=
  (Lexeme.read? source).bind fun signs =>
    (signs.foldlM Reading.step? Reading.start).bind Reading.finish?

/-! ### Groups that begin at the start of the text -/

/-- A group with one alternative so far, which begins at the start of the text. -/
def Frame.Started (f : Frame) : Prop :=
  f.done = [] ∧ ∃ ws, f.parts = ws ++ [⟨atStart, 0⟩, ⟨empty, 0⟩]

lemma Frame.push_inj {f g : Frame} {v w : Written} (h : f.push v = g.push w) : f = g := by
  obtain ⟨hindex, hdone, hparts⟩ := Frame.mk.inj h
  cases f; cases g
  simp_all

lemma Frame.Started.push {f : Frame} (h : f.Started) (w : Written) : (f.push w).Started := by
  obtain ⟨hdone, ws, hparts⟩ := h
  exact ⟨hdone, w :: ws, congrArg (w :: ·) hparts⟩

/-- A sequence that begins at the start of the text has no branches. -/
lemma branches_sequence_atStart (ps : List Pattern) :
    (sequence (empty :: atStart :: ps)).branches = [sequence (empty :: atStart :: ps)] := by
  show (ofParts (atStart :: ps.flatMap parts)).branches = [ofParts (atStart :: ps.flatMap parts)]
  cases ps.flatMap parts <;> rfl

lemma anchored_sequence_atStart (ps : List Pattern) :
    (sequence (empty :: atStart :: ps)).anchored = true := by
  show (ofParts (atStart :: ps.flatMap parts)).anchored = true
  cases ps.flatMap parts <;> rfl

/-- What was read in such a group is its parts, one after the other. -/
lemma Frame.content_eq {f : Frame} {ws : List Written} (hdone : f.done = [])
    (hparts : f.parts = ws ++ [⟨atStart, 0⟩, ⟨empty, 0⟩]) :
    f.content.pattern = sequence (empty :: atStart :: ws.reverse.map (·.pattern)) := by
  have hcurrent : f.current.pattern
      = sequence (empty :: atStart :: ws.reverse.map (·.pattern)) := by
    rw [current, hparts]
    simp [Written.join]
  have hcontent : f.content.pattern = alternatives [f.current.pattern] := by
    rw [content, hdone]
    rfl
  rw [hcontent, hcurrent, alternatives, List.flatMap_singleton, branches_sequence_atStart]

namespace Reading

variable {r r' : Reading} {s : Lexeme} {signs : List Lexeme} {f g : Frame}
  {outer : List Frame}

/-! ### What a sign does to the open groups -/

/-- What a sign does to the innermost group and to the groups around it. -/
inductive Moves : Frame → List Frame → Lexeme → Frame → List Frame → Prop where
  | part {f : Frame} {outer : List Frame} {s : Lexeme} (w : Written) (hs : ∀ n, s.openAfter n = n)
      (hbar : s ≠ .bar) : Moves f outer s (f.push w) outer
  | again {f : Frame} {outer : List Frame} {s : Lexeme} (v w : Written)
      (hs : ∀ n, s.openAfter n = n) (hbar : s ≠ .bar) : Moves (f.push v) outer s (f.push w) outer
  | opened {f : Frame} {outer : List Frame} (index : Option ℕ) (capturing : Bool) :
      Moves f outer (.openGroup capturing) (.opened index) (f :: outer)
  | closed {f g : Frame} {outer : List Frame} :
      Moves f (g :: outer) .closeGroup (g.push f.close) outer
  | bar {f : Frame} {outer : List Frame} : Moves f outer .bar f.bar outer

/-- A repetition replaces the last part. -/
lemma moves_repeatLast? {make : Pattern → Pattern} (h : r.repeatLast? make = some r')
    (hs : ∀ n, s.openAfter n = n) (hbar : s ≠ .bar) :
    Moves r.frame r.outer s r'.frame r'.outer := by
  rw [repeatLast?] at h
  split at h
  · cases h
  · rename_i w ws hparts
    obtain rfl := Option.some.inj h
    have hframe : r.frame = ({ r.frame with parts := ws } : Frame).push w := by
      rw [Frame.push, ← hparts]
    exact hframe ▸ .again w _ hs hbar

lemma moves_step? (h : r.step? s = some r') : Moves r.frame r.outer s r'.frame r'.outer := by
  cases s with
  | one | atStart | atEnd =>
      obtain rfl := Option.some.inj h
      exact .part _ (fun _ => rfl) nofun
  | openGroup capturing =>
      cases capturing <;>
      · obtain rfl := Option.some.inj h
        exact .opened _ _
  | closeGroup =>
      rw [step?] at h
      split at h
      · cases h
      · rename_i g outer houter
        obtain rfl := Option.some.inj h
        rw [houter]
        exact .closed
  | bar =>
      obtain rfl := Option.some.inj h
      exact .bar
  | star | plus => exact moves_repeatLast? h (fun _ => rfl) nofun
  | opt =>
      rw [step?] at h
      split at h
      · cases h
      · exact moves_repeatLast? h (fun _ => rfl) nofun

lemma length_outer_step? (h : r.step? s = some r') :
    r'.outer.length = s.openAfter r.outer.length := by
  have hmoves := moves_step? h
  generalize r.frame = f, r.outer = outer, r'.frame = f', r'.outer = outer' at hmoves
  cases hmoves with
  | part _ hs | again _ _ hs => exact (hs _).symm
  | opened | closed | bar => rfl

/-- The outermost group stays the same one. -/
lemma Moves.index_eq {f' : Frame} {outer' : List Frame} (h : Moves f outer s f' outer') :
    (outer'.getLastD f').index = (outer.getLastD f).index := by
  cases h with
  | part | again | bar => cases outer <;> rfl
  | opened => rw [List.getLastD_cons]
  | closed =>
      rw [List.getLastD_cons]
      cases outer' <;> rfl

/-- A run reads its first sign and then the others. -/
lemma exists_of_run_cons (h : (s :: signs).foldlM step? r = some r') :
    ∃ k, r.step? s = some k ∧ signs.foldlM step? k = some r' := by
  rw [List.foldlM_cons] at h
  exact Option.bind_eq_some_iff.mp h

/-- At the end no group is open but the outermost one. -/
lemma finish?_eq_some {p : Pattern} (h : r.finish? = some p) :
    r.outer = [] ∧ p = r.frame.content.pattern := by
  rw [finish?] at h
  split at h
  · rename_i houter
    split at h
    · exact ⟨houter, (Option.some.inj h).symm⟩
    · cases h
  · cases h

/-! ### One alternative outside of all groups -/

/-- The one alternative that is outside of all groups begins at the start of the text. Where no
group is open, something was read behind that place. -/
def Bound : Frame → List Frame → Prop
  | f, [] => ∃ (g : Frame) (w : Written), g.Started ∧ f = g.push w
  | _, g :: outer => (outer.getLastD g).Started

/-- A sign keeps this, unless it is a bar outside of all groups. -/
lemma Moves.bound {f' : Frame} {outer' : List Frame} (h : Moves f outer s f' outer')
    (hbar : s = .bar → outer ≠ []) (hf : Bound f outer) : Bound f' outer' := by
  cases h with
  | part w =>
      cases outer with
      | nil =>
          obtain ⟨g, v, hg, rfl⟩ := hf
          exact ⟨g.push v, w, hg.push v, rfl⟩
      | cons => exact hf
  | @again g _ _ v w =>
      cases outer with
      | nil =>
          obtain ⟨g', v', hg', heq⟩ := hf
          obtain rfl := Frame.push_inj heq
          exact ⟨g, w, hg', rfl⟩
      | cons => exact hf
  | opened =>
      cases outer with
      | nil =>
          obtain ⟨g, v, hg, rfl⟩ := hf
          exact hg.push v
      | cons g outer =>
          show ((g :: outer).getLastD f).Started
          rw [List.getLastD_cons]
          exact hf
  | @closed f g =>
      cases outer' with
      | nil => exact ⟨g, f.close, hf, rfl⟩
      | cons k outer =>
          -- the outermost frame is still the same
          have hlast : ((k :: outer).getLastD g).Started := hf
          rwa [List.getLastD_cons] at hlast
  | bar =>
      cases outer with
      | nil => exact absurd rfl (hbar rfl)
      | cons => exact hf

/-- So do signs of which none is such a bar. -/
lemma bound_run (h : signs.foldlM step? r = some r')
    (hbar : Lexeme.barOutside r.outer.length signs = false) (hr : Bound r.frame r.outer) :
    Bound r'.frame r'.outer := by
  induction signs generalizing r with
  | nil =>
      obtain rfl := Option.some.inj h
      exact hr
  | cons s signs ih =>
      obtain ⟨k, hk, h⟩ := exists_of_run_cons h
      rw [Lexeme.barOutside, Bool.or_eq_false_iff, ← length_outer_step? hk] at hbar
      refine ih h hbar.2 ((moves_step? hk).bound ?_ hr)
      rintro rfl houter
      simp [houter] at hbar

lemma bound_spliced : Bound spliced.frame spliced.outer := ⟨rfl, [], rfl⟩

/-! ### A group around all others -/

lemma repeatLast?_around {make : Pattern → Pattern} (f : Frame)
    (h : r.repeatLast? make = some r') :
    (r.around f).repeatLast? make = some (r'.around f) := by
  obtain ⟨groups, repeated, ⟨index, done, parts⟩, outer⟩ := r
  cases parts with
  | nil => cases h
  | cons w ws =>
      obtain rfl := Option.some.inj h
      rfl

/-- A group around all others does not matter to a reader that does without it. -/
lemma step?_around (f : Frame) (h : r.step? s = some r') :
    (r.around f).step? s = some (r'.around f) := by
  cases s with
  | one | atStart | atEnd | bar =>
      obtain rfl := Option.some.inj h
      rfl
  | openGroup capturing =>
      cases capturing <;>
      · obtain rfl := Option.some.inj h
        rfl
  | closeGroup =>
      obtain ⟨groups, repeated, frame, outer⟩ := r
      cases outer with
      | nil => cases h
      | cons g outer =>
          obtain rfl := Option.some.inj h
          rfl
  | star | plus => exact repeatLast?_around f h
  | opt =>
      rw [step?] at h ⊢
      split at h
      · cases h
      · rename_i hrepeated
        exact (if_neg hrepeated).trans (repeatLast?_around f h)

lemma run_around (f : Frame) (h : signs.foldlM step? r = some r') :
    signs.foldlM step? (r.around f) = some (r'.around f) := by
  induction signs generalizing r with
  | nil => exact congrArg (Option.map (around f)) h
  | cons s signs ih =>
      obtain ⟨k, hk, h⟩ := exists_of_run_cons h
      rw [List.foldlM_cons, step?_around f hk]
      exact ih h

/-- In such a group no bar is outside of all groups, up to the bracket that closes the group. -/
lemma barOutside_of_run (h : signs.foldlM step? r = some r') :
    Lexeme.barOutside (r.outer.length + 1) (signs ++ [.closeGroup]) = false := by
  induction signs generalizing r with
  | nil => rfl
  | cons s signs ih =>
      obtain ⟨k, hk, h⟩ := exists_of_run_cons h
      have hafter : s.openAfter (r.outer.length + 1) = k.outer.length + 1 := by
        have haround := length_outer_step? (step?_around r.frame hk)
        simpa [around] using haround.symm
      rw [List.cons_append, Lexeme.barOutside, hafter, ih h]
      simp

lemma index_run (h : signs.foldlM step? r = some r') :
    (r'.outer.getLastD r'.frame).index = (r.outer.getLastD r.frame).index := by
  induction signs generalizing r with
  | nil =>
      obtain rfl := Option.some.inj h
      rfl
  | cons s signs ih =>
      obtain ⟨k, hk, h⟩ := exists_of_run_cons h
      rw [ih h, (moves_step? hk).index_eq]

/-- The bracket behind the text closes the group that was opened in front of it. -/
lemma run_spliced (h : signs.foldlM step? start = some r) (houter : r.outer = []) :
    (signs ++ [Lexeme.closeGroup]).foldlM step? spliced
      = some ⟨r.groups, false, base.push r.frame.close, []⟩ := by
  have hspliced : signs.foldlM step? spliced = some (r.around base) := run_around base h
  have hclosed : (r.around base).step? .closeGroup
      = some ⟨r.groups, false, base.push r.frame.close, []⟩ := by
    rw [step?, around, houter]
    rfl
  rw [List.foldlM_append, hspliced]
  simpa using hclosed

end Reading

/-! ### Patterns as they are read -/

/-- Without a bar outside of all groups, the whole pattern begins at the start of the text. -/
lemma exists_of_read? {source : Text} {p : Pattern} (h : read? source = some p)
    (hbar : strayBar source = false) : ∃ ps, p = sequence (empty :: atStart :: ps) := by
  obtain ⟨signs, hsigns, h⟩ := Option.bind_eq_some_iff.mp h
  obtain ⟨r, hrun, hfinish⟩ := Option.bind_eq_some_iff.mp h
  rw [strayBar, hsigns, Option.any_some] at hbar
  obtain ⟨houter, rfl⟩ := Reading.finish?_eq_some hfinish
  have hbound := Reading.bound_run hrun hbar Reading.bound_spliced
  rw [houter] at hbound
  obtain ⟨g, w, hg, hframe⟩ := hbound
  obtain ⟨hdone, ws, hparts⟩ : r.frame.Started := hframe ▸ hg.push w
  exact ⟨_, Frame.content_eq hdone hparts⟩

/-- A text that is a pattern by itself has no bar outside of the group around it. -/
lemma strayBar_of_standalone? {source : Text} {q : Pattern} (h : standalone? source = some q) :
    strayBar source = false := by
  obtain ⟨signs, hsigns, h⟩ := Option.bind_eq_some_iff.mp h
  obtain ⟨r, hrun, -⟩ := Option.bind_eq_some_iff.mp h
  rw [strayBar, Lexeme.read?_close hsigns, Option.any_some]
  exact Reading.barOutside_of_run hrun

/-- If the text is a pattern by itself, the whole pattern is the start of the text and then this
pattern. -/
lemma read?_of_standalone? {source : Text} {p q : Pattern} (h : standalone? source = some q)
    (hread : read? source = some p) : p = sequence [empty, atStart, q] := by
  obtain ⟨signs, hsigns, h⟩ := Option.bind_eq_some_iff.mp h
  obtain ⟨r, hrun, hfinish⟩ := Option.bind_eq_some_iff.mp h
  obtain ⟨houter, rfl⟩ := Reading.finish?_eq_some hfinish
  obtain ⟨signs', hsigns', hread⟩ := Option.bind_eq_some_iff.mp hread
  obtain rfl := Option.some.inj ((Lexeme.read?_close hsigns).symm.trans hsigns')
  obtain ⟨r', hrun', hfinish'⟩ := Option.bind_eq_some_iff.mp hread
  obtain ⟨-, rfl⟩ := Reading.finish?_eq_some hfinish'
  obtain rfl := Option.some.inj ((Reading.run_spliced hrun houter).symm.trans hrun')
  have hindex : r.frame.index = none := by
    have hlast := Reading.index_run hrun
    rwa [houter] at hlast
  have hclose : r.frame.close.pattern = r.frame.content.pattern := by
    rw [Frame.close, hindex]
    rfl
  have hparts : (Reading.base.push r.frame.close).parts
      = [r.frame.close] ++ [⟨atStart, 0⟩, ⟨empty, 0⟩] := rfl
  rw [← hclose]
  exact Frame.content_eq rfl hparts

end Pattern

end ShellSyntax
