import Mathlib.Data.List.TakeWhile
import Mathlib.Tactic.Common
import ShellSyntax.Editing

/-!
What is accepted of what an editor needs to know.

* `Text.trim_eq_nil_iff`: nothing is left of a text at whose ends blanks are cut off just if it has
  no other characters;
* `Editing.Fresh`: characters that differ from each other and from those met before.
  `Editing.checkClosers_eq_ok_iff`, `Editing.checkOpeners_eq_ok_iff`: the checks, which go through a
  list, look for just that;
* `Editing.Valid`: the mark of a comment can be seen, brackets differ from their counterparts and
  share no closer, and no list has an opener twice. `Editing.validate_eq_ok_iff`: just that is
  accepted.
-/

namespace ShellSyntax

lemma Text.trim_eq_nil_iff (t : Text) : t.trim = [] ↔ ∀ c ∈ t, isBlank c = true := by
  have hback : ∀ u : Text, u.trimEnd = [] ↔ ∀ c ∈ u, isBlank c = true := fun u => by
    simp [trimEnd, List.dropWhile_eq_nil_iff]
  rw [trim, hback]
  refine ⟨fun h c hc => ?_, fun h c hc => h c ((List.dropWhile_sublist _).mem hc)⟩
  rw [← List.takeWhile_append_dropWhile (p := isBlank) (l := t)] at hc
  rcases List.mem_append.mp hc with hc | hc
  · exact List.mem_takeWhile_imp hc
  · exact h c hc

namespace Editing

/-! ### Characters met before -/

/-- The characters differ from each other and from those met before. -/
def Fresh (seen cs : List Char) : Prop := cs.Nodup ∧ ∀ c ∈ cs, c ∉ seen

lemma fresh_cons {seen cs : List Char} {c : Char} :
    Fresh seen (c :: cs) ↔ c ∉ seen ∧ Fresh (c :: seen) cs := by
  rw [Fresh, Fresh, List.nodup_cons, List.forall_mem_cons]
  simp only [List.mem_cons, not_or]
  constructor
  · rintro ⟨⟨hc, hnodup⟩, hnew, hcs⟩
    exact ⟨hnew, hnodup, fun d hd => ⟨fun heq => hc (heq ▸ hd), hcs d hd⟩⟩
  · rintro ⟨hnew, hnodup, hcs⟩
    exact ⟨⟨fun hc => (hcs c hc).1 rfl, hnodup⟩, hnew, fun d hd => (hcs d hd).2⟩

lemma fresh_nil {cs : List Char} : Fresh [] cs ↔ cs.Nodup := by simp [Fresh]

lemma checkClosers_eq_ok_iff {seen : List Char} {pairs : List CharPair} :
    checkClosers seen pairs = .ok ()
      ↔ (∀ p ∈ pairs, p.opener ≠ p.closer) ∧ Fresh seen (pairs.map (·.closer)) := by
  induction pairs generalizing seen with
  | nil => simp [checkClosers, Fresh]
  | cons p pairs ih =>
      rw [checkClosers, List.forall_mem_cons, List.map_cons, fresh_cons]
      split_ifs with hsame hseen
      · simp [hsame]
      · simp [hseen]
      · rw [ih]
        simp [hsame, hseen]

lemma checkOpeners_eq_ok_iff {list : PairList} {seen : List Char} {pairs : List CharPair} :
    checkOpeners list seen pairs = .ok () ↔ Fresh seen (pairs.map (·.opener)) := by
  induction pairs generalizing seen with
  | nil => simp [checkOpeners, Fresh]
  | cons p pairs ih =>
      rw [checkOpeners, List.map_cons, fresh_cons]
      split_ifs with hseen
      · simp [hseen]
      · rw [ih]
        simp [hseen]

/-! ### Validity -/

/-- What an editor knows of a language is as it has to be: the mark of a comment can be seen, a
bracket differs from its counterpart, no two brackets share a closer, and no list has an opener
twice. -/
structure Valid (e : Editing) : Prop where
  comment : ∃ c ∈ e.comment, isBlank c = false
  distinct : ∀ p ∈ e.brackets, p.opener ≠ p.closer
  closers : (e.brackets.map (·.closer)).Nodup
  openers : (e.brackets.map (·.opener)).Nodup
  autoClosing : (e.autoClosing.map (·.opener)).Nodup
  surrounding : (e.surrounding.map (·.opener)).Nodup

/-- A check and what is checked behind it pass just if both do. -/
lemma bind_eq_ok_iff {x : Except PairFault Unit} {f : Unit → Except PairFault Unit} :
    (x >>= f) = .ok () ↔ x = .ok () ∧ f () = .ok () := by
  cases x <;> simp [bind, Except.bind]

/-- Just what is as it has to be is accepted. -/
theorem validate_eq_ok_iff {e : Editing} : e.validate = .ok () ↔ e.Valid := by
  have hcomment : (∃ c ∈ e.comment, isBlank c = false) ↔ ¬e.comment.trim.isEmpty := by
    rw [List.isEmpty_iff, Text.trim_eq_nil_iff]
    simp
  rw [validate]
  split_ifs with hempty
  · exact ⟨nofun, fun h => absurd hempty (hcomment.mp h.comment)⟩
  · simp only [bind_eq_ok_iff, checkClosers_eq_ok_iff, checkOpeners_eq_ok_iff, fresh_nil]
    constructor
    · rintro ⟨⟨hdistinct, hclosers⟩, hopeners, hauto, hsurround⟩
      exact ⟨hcomment.mpr hempty, hdistinct, hclosers, hopeners, hauto, hsurround⟩
    · exact fun h => ⟨⟨h.distinct, h.closers⟩, h.openers, h.autoClosing, h.surrounding⟩

end Editing

end ShellSyntax
