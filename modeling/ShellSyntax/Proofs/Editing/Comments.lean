import Mathlib.Data.List.Infix
import ShellSyntax.Proofs.Editing.Validity
import ShellSyntax.Proofs.Text.Words

/-!
Making a line a comment, and making it no comment again.

* `Editing.toggleComment_append`, `Editing.toggleComment_comment`: toggling a line that is known as
  its indentation and the text behind it, by whether that text begins with the mark of a comment;
* `Editing.toggleComment_toggleComment`: a line that was no comment becomes one, and toggling it
  again gives it back, unless the mark begins with a blank. The indentation of the commented line
  then takes in the start of the mark, so the mark is not found in it.
  `Editing.toggleComment_blankMark`: such a mark is accepted.
-/

namespace ShellSyntax

namespace Text

/-- A text is its indentation and what stands behind it. -/
lemma indent_append_trimStart (t : Text) : t.takeWhile isBlank ++ t.trimStart = t :=
  List.takeWhile_append_dropWhile

/-- What stands behind the indentation of a text begins with no blank. -/
lemma head?_trimStart (t : Text) : ∀ c ∈ t.trimStart.head?, isBlank c = false := by
  intro c hc
  have h := List.head?_dropWhile_not isBlank t
  rw [← trimStart, Option.mem_def.mp hc] at h
  exact h

end Text

namespace Editing

variable {e : Editing} {indent body line : Text}

/-- Toggling a line with the given indentation and the given text behind it. -/
lemma toggleComment_eq (hindent : ∀ c ∈ indent, isBlank c = true)
    (hbody : ∀ c ∈ body.head?, isBlank c = false) :
    e.toggleComment (indent ++ body) = match Text.afterMark? e.comment body with
      | some rest => indent ++ dropSpace rest
      | none => indent ++ e.comment ++ ' ' :: body := by
  have htake : body.takeWhile isBlank = [] ∧ body.dropWhile isBlank = body := by
    cases body with
    | nil => exact ⟨rfl, rfl⟩
    | cons c t =>
        have hc := hbody c rfl
        simp [hc]
  have hindent' : (indent ++ body).takeWhile isBlank = indent := by
    rw [List.takeWhile_append_of_pos hindent, htake.1, List.append_nil]
  have hbody' : (indent ++ body).dropWhile isBlank = body := by
    rw [List.dropWhile_append_of_pos hindent, htake.2]
  generalize indent ++ body = line at hindent' hbody' ⊢
  subst hindent' hbody'
  rfl

/-- A line that does not begin with the mark of a comment gets one. -/
lemma toggleComment_append (hindent : ∀ c ∈ indent, isBlank c = true)
    (hbody : ∀ c ∈ body.head?, isBlank c = false) (hmark : ¬e.comment <+: body) :
    e.toggleComment (indent ++ body) = indent ++ e.comment ++ ' ' :: body := by
  rw [toggleComment_eq hindent hbody, Text.afterMark?_eq_none_iff.mpr hmark]

/-- A line that begins with the mark and a space loses both. -/
lemma toggleComment_comment (hindent : ∀ c ∈ indent, isBlank c = true)
    (hmark : ∀ c ∈ (e.comment ++ ' ' :: body).head?, isBlank c = false) :
    e.toggleComment (indent ++ (e.comment ++ ' ' :: body)) = indent ++ body := by
  rw [toggleComment_eq hindent hmark, Text.afterMark?_eq_some_iff.mpr rfl]
  rfl

/-- A mark that begins with a blank is not found behind blanks, where its other characters stand. -/
lemma not_prefix_of_blank {mark rest : Text} (h : mark.trimStart ≠ mark)
    (hne : mark.trimStart ≠ []) : ¬mark <+: mark.trimStart ++ rest := by
  obtain ⟨x, t, hx⟩ := List.exists_cons_of_ne_nil hne
  have hblank : isBlank x = false := mark.head?_trimStart x (by rw [hx]; rfl)
  intro hstarts
  cases mark with
  | nil => exact h rfl
  | cons y w =>
      rw [hx, List.cons_append, List.cons_prefix_cons] at hstarts
      refine h ?_
      rw [Text.trimStart, List.dropWhile_cons_of_neg]
      rw [hstarts.1, hblank]
      exact Bool.false_ne_true

/-- **Toggling a comment is undone by toggling it again just if the mark begins with no blank.** A
line that is no comment gets the mark and a space behind its indentation. If the mark begins with a
blank, toggling this line again puts a second mark into it. -/
theorem toggleComment_toggleComment (h : e.validate = .ok ())
    (hline : ¬e.comment <+: line.trimStart) :
    e.toggleComment line = line.takeWhile isBlank ++ e.comment ++ ' ' :: line.trimStart
      ∧ (e.toggleComment (e.toggleComment line) = line ↔ e.comment.trimStart = e.comment)
      ∧ (e.comment.trimStart ≠ e.comment → e.toggleComment (e.toggleComment line)
        = line.takeWhile isBlank ++ e.comment.takeWhile isBlank ++ e.comment
          ++ ' ' :: (e.comment.trimStart ++ ' ' :: line.trimStart)) := by
  have hindent : ∀ (t : Text), ∀ c ∈ t.takeWhile isBlank, isBlank c = true :=
    fun t c hc => List.mem_takeWhile_imp hc
  have hfirst : e.toggleComment line
      = line.takeWhile isBlank ++ e.comment ++ ' ' :: line.trimStart := by
    have htoggle := toggleComment_append (hindent line) line.head?_trimStart hline
    rwa [line.indent_append_trimStart] at htoggle
  -- a mark that can be seen has more than blanks
  have hvisible : e.comment.trimStart ≠ [] := by
    obtain ⟨c, hc, hblank⟩ := (validate_eq_ok_iff.mp h).comment
    intro hnil
    rw [Text.trimStart, List.dropWhile_eq_nil_iff] at hnil
    exact Bool.false_ne_true (hblank.symm.trans (hnil c hc))
  have hhead : ∀ c ∈ (e.comment.trimStart ++ ' ' :: line.trimStart).head?, isBlank c = false := by
    rw [List.head?_append_of_ne_nil _ hvisible]
    exact e.comment.head?_trimStart
  by_cases hmark : e.comment.trimStart = e.comment
  · -- the mark stands right behind the indentation
    have hback : e.toggleComment (e.toggleComment line) = line := by
      rw [hmark] at hhead
      rw [hfirst, List.append_assoc, toggleComment_comment (hindent line) hhead,
        line.indent_append_trimStart]
    exact ⟨hfirst, iff_of_true hback hmark, fun hne => absurd hmark hne⟩
  · -- the blanks at the start of the mark count as indentation
    have hsplit : e.toggleComment line = line.takeWhile isBlank ++ e.comment.takeWhile isBlank
        ++ (e.comment.trimStart ++ ' ' :: line.trimStart) := by
      conv_lhs => rw [hfirst, ← e.comment.indent_append_trimStart]
      simp only [List.append_assoc]
    have hblanks : ∀ c ∈ line.takeWhile isBlank ++ e.comment.takeWhile isBlank,
        isBlank c = true := fun c hc => (List.mem_append.mp hc).elim (hindent _ c) (hindent _ c)
    have hsecond : e.toggleComment (e.toggleComment line)
        = line.takeWhile isBlank ++ e.comment.takeWhile isBlank ++ e.comment
          ++ ' ' :: (e.comment.trimStart ++ ' ' :: line.trimStart) := by
      rw [hsplit, toggleComment_append hblanks hhead (not_prefix_of_blank hmark hvisible)]
    refine ⟨hfirst, iff_of_false (fun hback => ?_) hmark, fun _ => hsecond⟩
    have hlength := congrArg List.length (hsecond.symm.trans hback)
    have hline := congrArg List.length line.indent_append_trimStart
    simp only [List.length_append, List.length_cons] at hlength hline
    omega

/-- A mark of several characters, before a line that begins with the first of them. -/
theorem toggleComment_slashes :
    let e : Editing := { shell with comment := ['/', '/'] }
    let line : Text := ['\u3000', '/', 'x']
    (e.validate = .ok () ∧ ¬e.comment <+: line.trimStart)
      ∧ e.toggleComment line = ['\u3000', '/', '/', ' ', '/', 'x']
      ∧ e.toggleComment (e.toggleComment line) = line := by
  intro e line
  have hvalid : e.validate = .ok () := by decide
  have hline : ¬e.comment <+: line.trimStart := by decide
  obtain ⟨honce, htwice, -⟩ := toggleComment_toggleComment hvalid hline
  exact ⟨⟨hvalid, hline⟩, honce, htwice.mpr (by decide)⟩

/-- A mark that begins with a blank is accepted, and a line is not given back. -/
theorem toggleComment_blankMark :
    let e : Editing := { shell with comment := [' ', '#'] }
    e.validate = .ok () ∧ ¬e.comment <+: Text.trimStart ['x']
      ∧ e.toggleComment ['x'] = [' ', '#', ' ', 'x']
      ∧ e.toggleComment (e.toggleComment ['x']) = [' ', ' ', '#', ' ', '#', ' ', 'x'] := by
  decide

end Editing

end ShellSyntax
