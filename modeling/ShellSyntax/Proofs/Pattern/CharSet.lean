import Mathlib.Data.List.Basic
import Mathlib.Tactic.Common
import ShellSyntax.Pattern.CharSet

/-!
What sets of characters contain.

* `Unicode.Ranges.Sorted`: the ranges of a set are in order and do not touch. The operations keep
  them so, and `Unicode.Ranges.contains_complement` says what the complement contains then;
* `CharSet.mem_single`, `CharSet.mem_ofList`, `CharSet.mem_except`: the sets of given characters,
  and of all others;
* `CharSet.Apart`: two sets have no character in common, as their ranges show.
-/

namespace ShellSyntax

namespace Unicode.Ranges

/-- The ranges are in order, and none is empty or touches the next. -/
def Sorted (rs : Ranges) : Prop := rs.Proper ∧ rs.Pairwise fun r s => r.2 + 1 < s.1

lemma sorted_nil : Sorted [] := ⟨fun _ h => absurd h List.not_mem_nil, .nil⟩

lemma sorted_cons {r : ℕ × ℕ} {rs : Ranges} :
    Sorted (r :: rs) ↔ r.1 ≤ r.2 ∧ (∀ s ∈ rs, r.2 + 1 < s.1) ∧ Sorted rs := by
  simp only [Sorted, Proper, List.forall_mem_cons, List.pairwise_cons]
  tauto

/-- What is put in begins no earlier than what was put in and what was there. -/
lemma lt_insert {n : ℕ} {r : ℕ × ℕ} {rs : Ranges} (hr : n < r.1) (hrs : ∀ s ∈ rs, n < s.1) :
    ∀ s ∈ insert r rs, n < s.1 := by
  induction rs generalizing r with
  | nil => simpa [insert] using hr
  | cons s rs ih =>
      obtain ⟨hs, hrest⟩ := List.forall_mem_cons.mp hrs
      rw [insert]
      split_ifs with hbefore hbehind
      · exact List.forall_mem_cons.mpr ⟨hr, hrs⟩
      · exact List.forall_mem_cons.mpr ⟨hs, ih hr hrest⟩
      · exact ih (show n < min r.1 s.1 by omega) hrest

lemma sorted_insert {r : ℕ × ℕ} {rs : Ranges} (hr : r.1 ≤ r.2) (hrs : Sorted rs) :
    Sorted (insert r rs) := by
  induction rs generalizing r with
  | nil => exact sorted_cons.mpr ⟨hr, by simp, sorted_nil⟩
  | cons s rs ih =>
      obtain ⟨hs, hgap, hrest⟩ := sorted_cons.mp hrs
      rw [insert]
      split_ifs with hbefore hbehind
      · refine sorted_cons.mpr ⟨hr, List.forall_mem_cons.mpr ⟨hbefore, ?_⟩, hrs⟩
        intro t ht
        have hlt := hgap t ht
        omega
      · exact sorted_cons.mpr ⟨hs, lt_insert hbehind hgap, ih hr hrest⟩
      · exact ih (show min r.1 s.1 ≤ max r.2 s.2 by omega) hrest

lemma sorted_union {rs ss : Ranges} (hrs : rs.Proper) (hss : Sorted ss) : Sorted (rs.union ss) := by
  rw [union]
  induction rs generalizing ss with
  | nil => exact hss
  | cons r rs ih =>
      obtain ⟨hr, hrest⟩ := List.forall_mem_cons.mp hrs
      exact ih hrest (sorted_insert hr hss)

lemma containsCode_append (rs ss : Ranges) (n : ℕ) :
    containsCode (rs ++ ss) n = (rs.containsCode n || ss.containsCode n) := List.any_append

/-- The gaps between sorted ranges contain what the ranges do not. -/
lemma containsCode_gapsFrom {start n : ℕ} (hn : n ≤ lastCode) {rs : Ranges} (hrs : Sorted rs)
    (hstart : ∀ r ∈ rs, start ≤ r.1) :
    (gapsFrom start rs).containsCode n = true ↔ start ≤ n ∧ rs.containsCode n = false := by
  induction rs generalizing start with
  | nil =>
      rw [gapsFrom, containsCode_nil]
      split_ifs with hle
      · simp [containsCode, hn]
      · simp [containsCode]
        omega
  | cons r rs ih =>
      obtain ⟨hr, hgap, hrest⟩ := sorted_cons.mp hrs
      obtain ⟨hle, -⟩ := List.forall_mem_cons.mp hstart
      have hgap' : ∀ s ∈ rs, r.2 + 1 ≤ s.1 := fun s hs => Nat.le_of_lt (hgap s hs)
      -- the code point lies in front of the first range, in it, or behind it
      have hbehind : n ≤ r.2 → containsCode rs n = false := by
        intro hle
        refine Bool.eq_false_iff.mpr fun h => ?_
        obtain ⟨s, hs, hfirst, -⟩ := containsCode_eq_true_iff.mp h
        have hlt := hgap s hs
        omega
      have hfirst : (if start < r.1 then [(start, r.1 - 1)] else [] : Ranges).containsCode n = true
          ↔ start ≤ n ∧ n < r.1 := by
        split_ifs with hlt
        · simp [containsCode]
          omega
        · simp [containsCode]
          omega
      rw [gapsFrom, containsCode_append, Bool.or_eq_true, hfirst, ih hrest hgap', containsCode_cons,
        Bool.or_eq_false_iff, decide_eq_false_iff_not]
      by_cases hle' : n ≤ r.2
      · have hnone := hbehind hle'
        simp only [hnone, and_true]
        omega
      · have hbehind' : ¬(r.1 ≤ n ∧ n ≤ r.2) := fun h => hle' h.2
        simp only [hbehind', not_false_eq_true, true_and]
        constructor
        · rintro (⟨-, hlt⟩ | ⟨-, hnone⟩)
          · omega
          · exact ⟨by omega, hnone⟩
        · rintro ⟨-, hnone⟩
          exact Or.inr ⟨by omega, hnone⟩

/-- The complement of a set contains the other characters. -/
lemma contains_complement {rs : Ranges} (hrs : Sorted rs) (c : Char) :
    rs.complement.contains c = !rs.contains c := by
  have hvalid : c.toNat < 0xD800 ∨ 0xDFFF < c.toNat ∧ c.toNat < 0x110000 := c.valid
  have hcode : c.toNat ≤ lastCode := by
    rw [lastCode]
    omega
  have hsurrogate : ¬(surrogates.1 ≤ c.toNat ∧ c.toNat ≤ surrogates.2) := by
    rw [surrogates]
    omega
  have hgaps := containsCode_gapsFrom hcode (sorted_insert (r := surrogates) (by decide) hrs)
    fun _ _ => Nat.zero_le _
  have hinsert := containsCode_insert (r := surrogates) (by decide) hrs.1 c.toNat
  rw [decide_eq_false hsurrogate, Bool.false_or] at hinsert
  rw [hinsert] at hgaps
  rw [Bool.eq_iff_iff, contains, complement, hgaps, contains, Bool.not_eq_true']
  simp

end Unicode.Ranges

namespace CharSet

variable {x y : Char} {cs : List Char}

lemma mem_single : (single x).mem y = true ↔ y = x := by
  have heq : y = x ↔ y.toNat = x.toNat := Char.toNat_inj.symm
  rw [heq]
  simp only [mem, single, of, Unicode.Ranges.contains, Unicode.Ranges.containsCode, List.map_cons,
    List.map_nil, List.any_cons, List.any_nil, Bool.or_false, decide_eq_true_eq]
  omega

lemma proper_single (x : Char) : (single x).ranges.Proper := by
  simp [single, of, Unicode.Ranges.Proper]

lemma sorted_ofList (cs : List Char) : (ofList cs).ranges.Sorted := by
  induction cs with
  | nil => exact Unicode.Ranges.sorted_nil
  | cons c cs ih => exact Unicode.Ranges.sorted_union (proper_single c) ih

/-- The set of given characters. -/
lemma mem_ofList : (ofList cs).mem x = true ↔ x ∈ cs := by
  induction cs with
  | nil => simp [ofList, none, mem, Unicode.Ranges.contains, Unicode.Ranges.containsCode]
  | cons c cs ih =>
      have hunion := mem_union (proper_single c) (sorted_ofList cs).1 x
      have hcons : ofList (c :: cs) = (single c).union (ofList cs) := rfl
      rw [hcons, hunion, Bool.or_eq_true, mem_single, ih, List.mem_cons]

lemma mem_ofList_eq (cs : List Char) : (ofList cs).mem = fun x => decide (x ∈ cs) := by
  funext x
  rw [Bool.eq_iff_iff, mem_ofList, decide_eq_true_eq]

/-- The set of all but given characters. -/
lemma mem_except : (except cs).mem x = true ↔ x ∉ cs := by
  rw [← mem_ofList, except, complement, mem, Unicode.Ranges.contains_complement (sorted_ofList cs),
    Bool.not_eq_true', ← Bool.not_eq_true]
  rfl

/-- Each range of the one set lies before or behind each range of the other. -/
def Apart (s t : CharSet) : Prop :=
  ∀ a ∈ s.ranges, ∀ b ∈ t.ranges, a.2 < b.1 ∨ b.2 < a.1

instance (s t : CharSet) : Decidable (s.Apart t) :=
  inferInstanceAs (Decidable (∀ a ∈ s.ranges, ∀ b ∈ t.ranges, a.2 < b.1 ∨ b.2 < a.1))

lemma Apart.mem_eq_false {s t : CharSet} (h : s.Apart t) (hx : s.mem x = true) :
    t.mem x = false := by
  refine Bool.eq_false_iff.mpr fun hx' => ?_
  obtain ⟨a, ha, hfirst, hlast⟩ := Unicode.Ranges.contains_eq_true_iff.mp hx
  obtain ⟨b, hb, hfirst', hlast'⟩ := Unicode.Ranges.contains_eq_true_iff.mp hx'
  have hab := h a ha b hb
  omega

end CharSet

end ShellSyntax
