/-!
Sets of code points, written as closed ranges.

* `Ranges`: the ranges of a set, in increasing order;
* `Ranges.contains`: membership of a character;
* `Ranges.insert`: the set with one more range. Ranges that overlap or touch become one, so that
  every set of characters has one list of ranges that is built this way;
* `Ranges.complement`: the characters that are not in the set. Surrogates are no characters;
* `Ranges.containsCode_insert`, `Ranges.containsCode_union`: neither loses nor gains code points, as
  long as the ranges are `Ranges.Proper`.
-/

namespace ShellSyntax.Unicode

/-- A set of code points as closed ranges `(first, last)`, in increasing order. -/
abbrev Ranges := List (Nat × Nat)

namespace Ranges

/-- Whether a code point lies in one of the ranges. -/
def containsCode (rs : Ranges) (n : Nat) : Bool :=
  rs.any fun r => decide (r.1 ≤ n ∧ n ≤ r.2)

/-- Whether a character lies in one of the ranges. -/
def contains (rs : Ranges) (c : Char) : Bool := rs.containsCode c.toNat

theorem containsCode_nil (n : Nat) : containsCode [] n = false := rfl

theorem containsCode_cons (r : Nat × Nat) (rs : Ranges) (n : Nat) :
    containsCode (r :: rs) n = (decide (r.1 ≤ n ∧ n ≤ r.2) || containsCode rs n) := rfl

theorem containsCode_eq_true_iff {rs : Ranges} {n : Nat} :
    rs.containsCode n = true ↔ ∃ r ∈ rs, r.1 ≤ n ∧ n ≤ r.2 := by
  simp [containsCode]

theorem contains_eq_true_iff {rs : Ranges} {c : Char} :
    rs.contains c = true ↔ ∃ r ∈ rs, r.1 ≤ c.toNat ∧ c.toNat ≤ r.2 :=
  containsCode_eq_true_iff

/-- The set with one more range. -/
def insert : Nat × Nat → Ranges → Ranges
  | r, [] => [r]
  | r, s :: rs =>
    if r.2 + 1 < s.1 then r :: s :: rs
    else if s.2 + 1 < r.1 then s :: insert r rs
    else insert (min r.1 s.1, max r.2 s.2) rs

/-- The first and the last of the code points that are no characters. -/
def surrogates : Nat × Nat := (0xD800, 0xDFFF)

/-- The last code point. -/
def lastCode : Nat := 0x10FFFF

/-- The code points from `start` on that are in none of the ranges. -/
def gapsFrom (start : Nat) : Ranges → Ranges
  | [] => if start ≤ lastCode then [(start, lastCode)] else []
  | r :: rs => (if start < r.1 then [(start, r.1 - 1)] else []) ++ gapsFrom (r.2 + 1) rs

/-- The characters that are not in the set. -/
def complement (rs : Ranges) : Ranges := gapsFrom 0 (insert surrogates rs)

/-- The characters from `first` to `last`. -/
def between (first last : Char) : Ranges :=
  if first.toNat < surrogates.1 ∧ surrogates.2 < last.toNat then
    [(first.toNat, surrogates.1 - 1), (surrogates.2 + 1, last.toNat)]
  else [(first.toNat, last.toNat)]

/-- The set of all characters in two sets. -/
def union (rs ss : Ranges) : Ranges := rs.foldl (fun set r => insert r set) ss

/-! ### What sets contain -/

/-- No range of the set is empty. -/
def Proper (rs : Ranges) : Prop := ∀ r ∈ rs, r.1 ≤ r.2

theorem proper_insert {r : Nat × Nat} {rs : Ranges} (hr : r.1 ≤ r.2) (hrs : rs.Proper) :
    (insert r rs).Proper := by
  induction rs generalizing r with
  | nil => simpa [insert, Proper] using hr
  | cons s rs ih =>
    have hs : s.1 ≤ s.2 := hrs s (by simp)
    have hrest : Proper rs := fun t ht => hrs t (by simp [ht])
    unfold insert
    split
    · intro t ht
      rcases List.mem_cons.1 ht with rfl | ht
      · exact hr
      · exact hrs t ht
    · split
      · intro t ht
        rcases List.mem_cons.1 ht with rfl | ht
        · exact hs
        · exact ih hr hrest t ht
      · exact ih (by simp only; omega) hrest

/-- Putting in a range loses no code point, and gains those of the range only. -/
theorem containsCode_insert {r : Nat × Nat} {rs : Ranges} (hr : r.1 ≤ r.2) (hrs : rs.Proper)
    (n : Nat) :
    (insert r rs).containsCode n = (decide (r.1 ≤ n ∧ n ≤ r.2) || rs.containsCode n) := by
  induction rs generalizing r with
  | nil => rfl
  | cons s rs ih =>
    have hs : s.1 ≤ s.2 := hrs s (by simp)
    have hrest : Proper rs := fun t ht => hrs t (by simp [ht])
    unfold insert
    split
    · rfl
    · split
      · rw [containsCode_cons, ih hr hrest, containsCode_cons, Bool.or_left_comm]
      · have hcover : decide (min r.1 s.1 ≤ n ∧ n ≤ max r.2 s.2) =
            (decide (r.1 ≤ n ∧ n ≤ r.2) || decide (s.1 ≤ n ∧ n ≤ s.2)) := by
          rw [← Bool.decide_or, decide_eq_decide]
          omega
        rw [ih (by simp only; omega) hrest, hcover, containsCode_cons, Bool.or_assoc]

theorem containsCode_union {rs ss : Ranges} (hrs : rs.Proper) (hss : ss.Proper) (n : Nat) :
    (rs.union ss).containsCode n = (rs.containsCode n || ss.containsCode n) := by
  unfold union
  induction rs generalizing ss with
  | nil => simp [containsCode_nil]
  | cons r rs ih =>
    have hr : r.1 ≤ r.2 := hrs r (by simp)
    rw [List.foldl_cons, ih (fun t ht => hrs t (by simp [ht])) (proper_insert hr hss),
      containsCode_insert hr hss, containsCode_cons, Bool.or_left_comm, Bool.or_assoc]

end Ranges

end ShellSyntax.Unicode
