import Mathlib.Data.List.Basic
import Mathlib.Tactic.Common
import ShellSyntax.Text.Blank

/-!
The bytes of texts in UTF-8, and their order.

* `Text.bytes`: the bytes of a text;
* `compare_utf8EncodeChar`: the bytes of a smaller character come first, whatever follows them;
* `Text.compare_bytes`: texts are in the order of their bytes. `compare_map_bytes`: so are lists of
  texts.
-/

namespace ShellSyntax

/-- The bytes of a text in UTF-8. -/
def Text.bytes (t : Text) : List UInt8 := t.flatMap String.utf8EncodeChar

/-! ### The order of lists -/

section

variable {α : Type} [Ord α] {a b : α} {l m : List α}

lemma eq_of_compare_ne_gt [Std.OrientedOrd α] [Std.LawfulEqOrd α] (h : compare a b ≠ .gt)
    (h' : compare b a ≠ .gt) : a = b := by
  refine Std.LawfulEqOrd.eq_of_compare ?_
  cases hcompare : compare a b with
  | lt => exact absurd (Std.OrientedCmp.gt_of_lt hcompare) h'
  | eq => rfl
  | gt => exact absurd hcompare h

lemma compare_cons (a b : α) (l m : List α) :
    compare (a :: l) (b :: m) = (compare a b).then (compare l m) := by
  rw [List.compare_eq_compareLex, List.compareLex_cons_cons]

lemma compare_cons_of_lt (h : compare a b = .lt) : compare (a :: l) (b :: m) = .lt := by
  rw [compare_cons, h]
  rfl

lemma compare_cons_of_eq (h : compare a b = .eq) : compare (a :: l) (b :: m) = compare l m := by
  rw [compare_cons, h]
  rfl

/-- What two lists have in common in front does not matter to their order. -/
lemma compare_append_left [Std.ReflOrd α] (k l m : List α) :
    compare (k ++ l) (k ++ m) = compare l m := by
  induction k with
  | nil => rfl
  | cons a k ih =>
      rw [List.cons_append, List.cons_append, compare_cons_of_eq Std.ReflOrd.compare_self, ih]

end

/-! ### The order of bytes -/

/-- Bytes are in the order of their numbers, and equal ones leave the order to what follows. -/
lemma compare_cons_ofNat {n m : ℕ} (hm : m < 256) {s t : List UInt8}
    (h : n < m ∨ n = m ∧ compare s t = .lt) :
    compare (UInt8.ofNat n :: s) (UInt8.ofNat m :: t) = .lt := by
  rcases h with h | ⟨rfl, h⟩
  · refine compare_cons_of_lt (compareOfLessAndEq_eq_lt.mpr ?_)
    exact (UInt8.ofNat_lt_iff_lt (Nat.lt_trans h hm) hm).mpr h
  · rw [compare_cons_of_eq Std.ReflOrd.compare_self, h]

/-- The bytes of a smaller character come first. -/
lemma compare_utf8EncodeChar {c d : Char} (h : c < d) (s t : List UInt8) :
    compare (String.utf8EncodeChar c ++ s) (String.utf8EncodeChar d ++ t) = .lt := by
  have hlt : c.val.toNat < d.val.toNat := UInt32.lt_iff_toNat_lt.mp (Char.lt_def.mp h)
  have hd : d.val.toNat < 0x110000 := by
    rcases d.valid with h | h <;> omega
  simp only [String.utf8EncodeChar]
  generalize c.val.toNat = v at hlt ⊢
  generalize d.val.toNat = w at hlt hd ⊢
  split_ifs
  -- characters of one byte, or the smaller one takes fewer, which its first byte tells
  all_goals first
    | omega
    | exact compare_cons_ofNat (by omega) (Or.inl (by omega))
    | skip
  · have hdigits : v / 64 % 32 + 192 < w / 64 % 32 + 192 ∨ v / 64 % 32 + 192 = w / 64 % 32 + 192
        ∧ v % 64 + 128 < w % 64 + 128 := by omega
    refine compare_cons_ofNat (by omega) (hdigits.imp_right (And.imp_right fun hlast => ?_))
    exact compare_cons_ofNat (by omega) (Or.inl hlast)
  · have hdigits : v / 4096 % 16 + 224 < w / 4096 % 16 + 224
        ∨ v / 4096 % 16 + 224 = w / 4096 % 16 + 224 ∧ (v / 64 % 64 + 128 < w / 64 % 64 + 128
          ∨ v / 64 % 64 + 128 = w / 64 % 64 + 128 ∧ v % 64 + 128 < w % 64 + 128) := by omega
    refine compare_cons_ofNat (by omega) (hdigits.imp_right (And.imp_right fun hdigits => ?_))
    refine compare_cons_ofNat (by omega) (hdigits.imp_right (And.imp_right fun hlast => ?_))
    exact compare_cons_ofNat (by omega) (Or.inl hlast)
  · have hfirst : v / 262144 % 8 + 240 < w / 262144 % 8 + 240
        ∨ v / 262144 % 8 + 240 = w / 262144 % 8 + 240 ∧ v % 262144 < w % 262144 := by omega
    refine compare_cons_ofNat (by omega) (hfirst.imp_right (And.imp_right fun hrest => ?_))
    have hdigits : v / 4096 % 64 + 128 < w / 4096 % 64 + 128
        ∨ v / 4096 % 64 + 128 = w / 4096 % 64 + 128 ∧ (v / 64 % 64 + 128 < w / 64 % 64 + 128
          ∨ v / 64 % 64 + 128 = w / 64 % 64 + 128 ∧ v % 64 + 128 < w % 64 + 128) := by
      clear hlt hd hfirst
      omega
    refine compare_cons_ofNat (by omega) (hdigits.imp_right (And.imp_right fun hdigits => ?_))
    refine compare_cons_ofNat (by omega) (hdigits.imp_right (And.imp_right fun hlast => ?_))
    exact compare_cons_ofNat (by omega) (Or.inl hlast)

namespace Text

lemma compare_bytes_of_lt {s t : Text} (h : compare s t = .lt) :
    compare s.bytes t.bytes = .lt := by
  induction s generalizing t with
  | nil =>
      cases t with
      | nil => cases h
      | cons d t =>
          have hpos : 0 < (String.utf8EncodeChar d).length := by
            rw [String.length_utf8EncodeChar]
            exact d.utf8Size_pos
          rw [bytes, bytes, List.flatMap_nil, List.flatMap_cons]
          obtain ⟨b, l, hd⟩ := List.exists_cons_of_length_pos hpos
          rw [hd]
          rfl
  | cons c s ih =>
      cases t with
      | nil => cases h
      | cons d t =>
          rw [bytes, bytes, List.flatMap_cons, List.flatMap_cons]
          rw [compare_cons] at h
          rcases Ordering.then_eq_lt.mp h with hlt | ⟨heq, hrest⟩
          · exact compare_utf8EncodeChar (compareOfLessAndEq_eq_lt.mp hlt) _ _
          · obtain rfl := Std.LawfulEqOrd.eq_of_compare heq
            rw [compare_append_left]
            exact ih hrest

/-- Texts are in the order of their bytes. -/
lemma compare_bytes (s t : Text) : compare s.bytes t.bytes = compare s t := by
  cases h : compare s t with
  | lt => exact compare_bytes_of_lt h
  | eq =>
      obtain rfl := Std.LawfulEqOrd.eq_of_compare h
      exact Std.ReflOrd.compare_self
  | gt =>
      exact Std.OrientedCmp.gt_of_lt (compare_bytes_of_lt (Std.OrientedCmp.lt_of_gt h))

end Text

/-- Lists of texts are in the order of the bytes of the texts. -/
lemma compare_map_bytes (p q : List Text) :
    compare (p.map Text.bytes) (q.map Text.bytes) = compare p q := by
  induction p generalizing q with
  | nil => cases q <;> rfl
  | cons s p ih =>
      cases q with
      | nil => rfl
      | cons t q =>
          rw [List.map_cons, List.map_cons, compare_cons, compare_cons, Text.compare_bytes, ih]

end ShellSyntax
