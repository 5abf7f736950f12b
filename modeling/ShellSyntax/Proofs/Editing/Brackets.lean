import Mathlib.Data.List.Nodup
import ShellSyntax.Proofs.Editing.Validity

/-!
Finding the bracket that belongs to a bracket.

* `CharPair.other?`: the other character of a pair. The counterpart of a bracket is what the first
  pair answers that has it;
* `Editing.counterpart?_split`, `Editing.counterpart?_near`: what decides about a pair are the pairs
  in front of it. At most one of them has the same character, and has it on the other side;
* `Editing.counterpart?_symm`: looking up brackets goes both ways, unless a character opens one pair
  and closes another that is not the same pair turned round. `Editing.counterpart?_shared`: such
  pairs are accepted.
-/

namespace ShellSyntax

namespace CharPair

/-- The other character of a pair, for a character of it. -/
def other? (p : CharPair) (c : Char) : Option Char :=
  if p.opener = c then some p.closer else if p.closer = c then some p.opener else none

/-- A pair of two characters answers for either. -/
lemma other?_eq_some_iff {p : CharPair} (h : p.opener ≠ p.closer) {c x : Char} :
    p.other? c = some x ↔ p.opener = c ∧ p.closer = x ∨ p.closer = c ∧ p.opener = x := by
  rw [other?]
  split_ifs with hopener hcloser
  · subst hopener
    simp [h.symm]
  · simp [hopener, hcloser]
  · simp [hopener, hcloser]

end CharPair

namespace Editing

variable {e : Editing} {before after : List CharPair} {p : CharPair} {c d : Char}

lemma counterpart?_eq (e : Editing) (c : Char) :
    e.counterpart? c = e.brackets.findSome? (·.other? c) := rfl

/-- What a pair answers is found just if no pair in front of it answers otherwise, provided that at
most one of these answers at all. -/
lemma counterpart?_split (hsplit : e.brackets = before ++ p :: after) (hp : p.other? c = some d)
    (hone : ∀ q ∈ before, ∀ r ∈ before, (q.other? c).isSome → (r.other? c).isSome → q = r) :
    e.counterpart? c = some d ↔ ∀ q ∈ before, ∀ x, q.other? c = some x → x = d := by
  have hfound : e.counterpart? c = (before.findSome? (·.other? c)).or (some d) := by
    rw [counterpart?_eq, hsplit, List.findSome?_append, List.findSome?_cons, hp]
  rw [hfound]
  cases hbefore : before.findSome? (·.other? c) with
  | none =>
      refine iff_of_true rfl fun q hq x hx => ?_
      rw [List.findSome?_eq_none_iff.mp hbefore q hq] at hx
      cases hx
  | some y =>
      obtain ⟨r, hr, hy⟩ := List.exists_of_findSome?_eq_some hbefore
      rw [Option.or_some, Option.getD_some, Option.some_inj]
      refine ⟨fun hd q hq x hx => ?_, fun hall => hall r hr y hy⟩
      obtain rfl := hone q hq r hr (by rw [hx]; rfl) (by rw [hy]; rfl)
      exact (Option.some.inj (hx.symm.trans hy)).trans hd

/-- A character on the near side of a pair leads to that on the far side, unless it is on the far
side of a pair in front. Either side may be called the near one. -/
lemma counterpart?_near {near far : CharPair → Char}
    (hother : ∀ q ∈ e.brackets, ∀ {c x}, q.other? c = some x
      ↔ near q = c ∧ far q = x ∨ far q = c ∧ near q = x)
    (hnear : (e.brackets.map near).Nodup) (hfar : (e.brackets.map far).Nodup)
    (hsplit : e.brackets = before ++ p :: after) :
    e.counterpart? (near p) = some (far p) ↔ ∀ q ∈ before, far q = near p → near q = far p := by
  have hmem : ∀ q ∈ before, q ∈ e.brackets := fun q hq => by simp [hsplit, hq]
  have hp : p ∈ e.brackets := by simp [hsplit]
  -- a pair in front has another character on the near side
  have hapart : ∀ q ∈ before, near q ≠ near p := by
    intro q hq heq
    have hnodup := List.nodup_append.mp (hsplit ▸ hnear.of_map)
    exact hnodup.2.2 q hq p List.mem_cons_self (List.inj_on_of_nodup_map hnear (hmem q hq) hp heq)
  have hfront : ∀ q ∈ before, ∀ {x}, q.other? (near p) = some x
      ↔ far q = near p ∧ near q = x := by
    intro q hq x
    rw [hother q (hmem q hq)]
    simp [hapart q hq]
  rw [counterpart?_split hsplit ((hother p hp).mpr (Or.inl ⟨rfl, rfl⟩))]
  · refine forall₂_congr fun q hq => ⟨fun hall hq' => ?_, fun hturned x hx => ?_⟩
    · exact hall (near q) ((hfront q hq).mpr ⟨hq', rfl⟩)
    · obtain ⟨hq', rfl⟩ := (hfront q hq).mp hx
      exact hturned hq'
  · intro q hq r hr hqx hrx
    obtain ⟨x, hx⟩ := Option.isSome_iff_exists.mp hqx
    obtain ⟨y, hy⟩ := Option.isSome_iff_exists.mp hrx
    exact List.inj_on_of_nodup_map hfar (hmem q hq) (hmem r hr)
      (((hfront q hq).mp hx).1.trans ((hfront r hr).mp hy).1.symm)

/-- **Looking up brackets goes both ways, unless a character opens one pair and closes another.**
The opener of a pair leads to its closer just if it closes no pair in front but the same one turned
round, and its closer to its opener just if it opens no pair in front but that. So all pairs are
found both ways just if no opener of a pair closes another but the pair turned round, and then
whatever is looked up leads back. -/
theorem counterpart?_symm (h : e.validate = .ok ()) :
    (∀ before p after, e.brackets = before ++ p :: after →
      (e.counterpart? p.opener = some p.closer
        ↔ ∀ q ∈ before, q.closer = p.opener → q.opener = p.closer)
      ∧ (e.counterpart? p.closer = some p.opener
        ↔ ∀ q ∈ before, q.opener = p.closer → q.closer = p.opener))
    ∧ ((∀ p ∈ e.brackets, e.counterpart? p.opener = some p.closer
        ∧ e.counterpart? p.closer = some p.opener)
      ↔ ∀ p ∈ e.brackets, ∀ q ∈ e.brackets, q.closer = p.opener → q.opener = p.closer)
    ∧ ((∀ p ∈ e.brackets, ∀ q ∈ e.brackets, q.closer = p.opener → q.opener = p.closer) →
      ∀ x y, e.counterpart? x = some y → e.counterpart? y = some x) := by
  have hvalid : e.Valid := validate_eq_ok_iff.mp h
  have hother : ∀ q ∈ e.brackets, ∀ {c x}, q.other? c = some x
      ↔ q.opener = c ∧ q.closer = x ∨ q.closer = c ∧ q.opener = x :=
    fun q hq => CharPair.other?_eq_some_iff (hvalid.distinct q hq)
  -- the two sides are one lemma, with openers and closers exchanged
  have hsides : ∀ before p after, e.brackets = before ++ p :: after →
      (e.counterpart? p.opener = some p.closer
        ↔ ∀ q ∈ before, q.closer = p.opener → q.opener = p.closer)
      ∧ (e.counterpart? p.closer = some p.opener
        ↔ ∀ q ∈ before, q.opener = p.closer → q.closer = p.opener) := fun before p after hsplit =>
    ⟨counterpart?_near hother hvalid.openers hvalid.closers hsplit,
      counterpart?_near (fun q hq => (hother q hq).trans or_comm) hvalid.closers hvalid.openers
        hsplit⟩
  have hback : (∀ p ∈ e.brackets, ∀ q ∈ e.brackets, q.closer = p.opener → q.opener = p.closer) →
      ∀ p ∈ e.brackets, e.counterpart? p.opener = some p.closer
        ∧ e.counterpart? p.closer = some p.opener := by
    intro hturned p hp
    obtain ⟨before, after, hsplit⟩ := List.append_of_mem hp
    have hmem : ∀ q ∈ before, q ∈ e.brackets := fun q hq => by simp [hsplit, hq]
    obtain ⟨hopener, hcloser⟩ := hsides before p after hsplit
    refine ⟨hopener.mpr fun q hq => hturned p hp q (hmem q hq), hcloser.mpr fun q hq hq' => ?_⟩
    exact (hturned q (hmem q hq) p hp hq'.symm).symm
  refine ⟨hsides, ⟨fun hall p hp q hq hq' => ?_, hback⟩, fun hturned x y hxy => ?_⟩
  · -- the character that both pairs have is looked up in two ways
    have hq'' := (hall q hq).2
    rw [hq', (hall p hp).1] at hq''
    exact (Option.some.inj hq'').symm
  · -- the pair that answers for `x` is found from its other side as well
    rw [counterpart?_eq] at hxy
    obtain ⟨p, hp, hxy⟩ := List.exists_of_findSome?_eq_some hxy
    rcases (hother p hp).mp hxy with ⟨rfl, rfl⟩ | ⟨rfl, rfl⟩
    · exact (hback hturned p hp).2
    · exact (hback hturned p hp).1

/-- A pair and the same pair turned round do not disturb each other. -/
theorem counterpart?_turned :
    let e : Editing := { shell with brackets := [⟨'<', '>'⟩, ⟨'(', ')'⟩, ⟨'>', '<'⟩] }
    e.validate = .ok () ∧ (e.counterpart? '>' = some '<' ∧ e.counterpart? '<' = some '>')
      ∧ ∀ x y, e.counterpart? x = some y → e.counterpart? y = some x := by
  intro e
  have hvalid : e.validate = .ok () := by decide
  obtain ⟨-, hpairs, hsymm⟩ := counterpart?_symm hvalid
  have hturned : ∀ p ∈ e.brackets, ∀ q ∈ e.brackets, q.closer = p.opener → q.opener = p.closer := by
    decide
  exact ⟨hvalid, hpairs.mpr hturned ⟨'>', '<'⟩ (by decide), hsymm hturned⟩

/-- Two pairs that share a character, which closes the one and opens the other, are accepted, and
the second is found from its closer only. -/
theorem counterpart?_shared :
    let e : Editing := { shell with brackets := [⟨'<', '>'⟩, ⟨'>', '!'⟩] }
    e.validate = .ok () ∧ (⟨'>', '!'⟩ : CharPair) ∈ e.brackets
      ∧ e.counterpart? '!' = some '>' ∧ e.counterpart? '>' = some '<' := by
  decide

end Editing

end ShellSyntax
