import Mathlib.Data.List.Nodup
import ShellSyntax.Proofs.Editing.Validity

/-!
Looking up the closers of pairs.

* `Editing.closing?_eq_some_iff`: where no opener is there twice, the first pair with an opener is
  the only one;
* `Editing.Rearranged`: an order of the same pairs. `Editing.Rearranged.valid_iff`: validity does
  not look at the order;
* `Editing.validate_lookups`: what is accepted, and that what is typed then has one answer, in
  whatever order the pairs stand.
-/

namespace ShellSyntax

namespace Editing

variable {pairs pairs' : List CharPair} {o c : Char}

/-! ### Looking up pairs -/

/-- If no opener is there twice, its closer is that of the one pair it opens. -/
lemma closing?_eq_some_iff (h : (pairs.map (·.opener)).Nodup) :
    closing? pairs o = some c ↔ ⟨o, c⟩ ∈ pairs := by
  rw [closing?, Option.map_eq_some_iff]
  constructor
  · rintro ⟨p, hp, rfl⟩
    obtain rfl : p.opener = o := by simpa using List.find?_some hp
    exact List.mem_of_find?_eq_some hp
  · intro hmem
    obtain ⟨p, hp⟩ : ∃ p, pairs.find? (·.opener = o) = some p :=
      Option.isSome_iff_exists.mp (List.find?_isSome.mpr ⟨⟨o, c⟩, hmem, decide_eq_true rfl⟩)
    have hopener : p.opener = o := by simpa using List.find?_some hp
    -- the pair that is found and the given one have the same opener
    obtain rfl : p = ⟨o, c⟩ :=
      List.inj_on_of_nodup_map h (List.mem_of_find?_eq_some hp) hmem hopener
    exact ⟨_, hp, rfl⟩

/-- Then the order of the pairs does not count. -/
lemma closing?_perm (hperm : pairs'.Perm pairs) (h : (pairs.map (·.opener)).Nodup) (o : Char) :
    closing? pairs' o = closing? pairs o := by
  refine Option.ext fun c => ?_
  have h' : (pairs'.map (·.opener)).Nodup := (hperm.map _).nodup_iff.mpr h
  rw [closing?_eq_some_iff h', closing?_eq_some_iff h, hperm.mem_iff]

/-! ### Rearranging pairs -/

/-- The same mark of a comment and the same pairs, in an order of their own in each list. -/
structure Rearranged (e' e : Editing) : Prop where
  comment : e'.comment = e.comment
  brackets : e'.brackets.Perm e.brackets
  autoClosing : e'.autoClosing.Perm e.autoClosing
  surrounding : e'.surrounding.Perm e.surrounding

namespace Rearranged

variable {e e' : Editing}

lemma symm (h : Rearranged e' e) : Rearranged e e' :=
  ⟨h.comment.symm, h.brackets.symm, h.autoClosing.symm, h.surrounding.symm⟩

lemma valid (h : Rearranged e' e) (hvalid : e.Valid) : e'.Valid where
  comment := h.comment ▸ hvalid.comment
  distinct p hp := hvalid.distinct p (h.brackets.mem_iff.mp hp)
  closers := (h.brackets.map _).nodup_iff.mpr hvalid.closers
  openers := (h.brackets.map _).nodup_iff.mpr hvalid.openers
  autoClosing := (h.autoClosing.map _).nodup_iff.mpr hvalid.autoClosing
  surrounding := (h.surrounding.map _).nodup_iff.mpr hvalid.surrounding

/-- Validity does not look at the order of pairs. -/
lemma valid_iff (h : Rearranged e' e) : e'.Valid ↔ e.Valid := ⟨h.symm.valid, h.valid⟩

end Rearranged

/-- **What is accepted, and what it is good for.** Accepted is just what has a mark of comments that
can be seen, brackets that differ from their counterparts and share no closer, and no opener twice
in one list. The closer to insert, or to put behind a selection, is then that of the one pair with
the opener, if there is one. So neither the verdict nor an answer depends on the order of pairs. -/
theorem validate_lookups (e : Editing) :
    (e.validate = .ok () ↔ (∃ c ∈ e.comment, isBlank c = false)
      ∧ (∀ p ∈ e.brackets, p.opener ≠ p.closer) ∧ (e.brackets.map (·.closer)).Nodup
      ∧ ∀ pairs ∈ [e.brackets, e.autoClosing, e.surrounding], (pairs.map (·.opener)).Nodup)
    ∧ (e.validate = .ok () → ∀ o c, (e.closerFor? o = some c ↔ ⟨o, c⟩ ∈ e.autoClosing)
      ∧ (e.wrapperFor? o = some c ↔ ⟨o, c⟩ ∈ e.surrounding))
    ∧ ∀ e', Rearranged e' e → (e'.validate = .ok () ↔ e.validate = .ok ())
      ∧ (e.validate = .ok () →
        ∀ o, e'.closerFor? o = e.closerFor? o ∧ e'.wrapperFor? o = e.wrapperFor? o) := by
  refine ⟨?_, fun h o c => ?_, fun e' he => ⟨?_, fun h o => ?_⟩⟩
  · rw [validate_eq_ok_iff]
    simp only [List.forall_mem_cons]
    constructor
    · exact fun h => ⟨h.comment, h.distinct, h.closers, h.openers, h.autoClosing, h.surrounding,
        fun _ hnil => absurd hnil List.not_mem_nil⟩
    · rintro ⟨hcomment, hdistinct, hclosers, hopeners, hauto, hsurround, -⟩
      exact ⟨hcomment, hdistinct, hclosers, hopeners, hauto, hsurround⟩
  · have hvalid := validate_eq_ok_iff.mp h
    exact ⟨closing?_eq_some_iff hvalid.autoClosing, closing?_eq_some_iff hvalid.surrounding⟩
  · rw [validate_eq_ok_iff, validate_eq_ok_iff, he.valid_iff]
  · have hvalid := validate_eq_ok_iff.mp h
    exact ⟨closing?_perm he.autoClosing hvalid.autoClosing o,
      closing?_perm he.surrounding hvalid.surrounding o⟩

/-- Pairs for selections may share a closer, and stand in any order. -/
theorem validate_lookups_sharedCloser :
    let e : Editing := { shell with surrounding := [⟨'<', '>'⟩, ⟨'≤', '>'⟩] }
    let e' : Editing := { shell with surrounding := [⟨'≤', '>'⟩, ⟨'<', '>'⟩] }
    e.validate = .ok () ∧ Rearranged e' e ∧ e.wrapperFor? '≤' = some '>'
      ∧ e'.validate = .ok () ∧ e'.wrapperFor? '≤' = e.wrapperFor? '≤' := by
  intro e e'
  have hvalid : e.validate = .ok () := by decide
  have hperm : Rearranged e' e := ⟨rfl, .refl _, .refl _, .swap ..⟩
  obtain ⟨-, hlookup, hrearranged⟩ := validate_lookups e
  obtain ⟨hverdict, hanswers⟩ := hrearranged e' hperm
  exact ⟨hvalid, hperm, (hlookup hvalid '≤' '>').2.mpr (by decide), hverdict.mpr hvalid,
    (hanswers hvalid '≤').2⟩

end Editing

end ShellSyntax
