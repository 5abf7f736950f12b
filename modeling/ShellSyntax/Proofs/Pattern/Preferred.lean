import Mathlib.Data.List.Basic
import Mathlib.Tactic.Common
import ShellSyntax.Proofs.Pattern.Ways

/-!
Which way through a pattern is the preferred one.

* `Pattern.nullable`: whether a pattern can be gone through without a character. A way through any
  other pattern gets on;
* `Pattern.begins`: whether a way through a pattern can take a character first;
  `Pattern.ways_eq_nil`: where it cannot, there is no way through a pattern that needs one;
* `Pattern.head?_ways_cat` and its like: the preferred way through each form of pattern, if the
  preferred ways through its parts need not be given up. A repeated set takes as many characters as
  it can.
-/

namespace ShellSyntax

namespace Pattern

/-- Whether a pattern can be gone through without taking a character. -/
def nullable : Pattern → Bool
  | empty | atStart | atEnd | opt _ | star _ => true
  | one _ => false
  | cat p q => nullable p && nullable q
  | alt p q => nullable p || nullable q
  | plus p | group _ p => nullable p

/-- Whether a way through a pattern can take a character first. -/
def begins (x : Char) : Pattern → Bool
  | empty | atStart | atEnd => false
  | one set => set.mem x
  | cat p q => begins x p || nullable p && begins x q
  | alt p q => begins x p || begins x q
  | opt p | star p | plus p | group _ p => begins x p

variable {origin : ℕ} {p q : Pattern} {m n k : PatternMatch}

/-! ### The first character of a way -/

/-- Behind one round through a pattern no other character can come first. -/
lemma begins_round (x : Char) (p : Pattern) : (cat p (star p)).begins x = p.begins x := by
  rw [begins, begins]
  cases p.begins x <;> simp

/-- What a way does first: it takes nothing, and its pattern needs nothing, or it takes a character
with which the pattern can begin. -/
def Starts (p : Pattern) (m n : PatternMatch) : Prop :=
  (p.nullable = true ∧ n.stop = m.stop)
    ∨ ∃ x rest, m.stop.rest = x :: rest ∧ p.begins x = true ∧ (m.stop.past x rest).Reaches n.stop

namespace Starts

lemma mono (h : p.Starts m n) (hnull : p.nullable = true → q.nullable = true)
    (hbegins : ∀ x, p.begins x = true → q.begins x = true) : q.Starts m n := by
  rcases h with ⟨hp, hstop⟩ | ⟨x, rest, hrest, hx, hreach⟩
  · exact Or.inl ⟨hnull hp, hstop⟩
  · exact Or.inr ⟨x, rest, hrest, hbegins x hx, hreach⟩

lemma reaches (h : p.Starts m n) : m.stop.Reaches n.stop := by
  rcases h with ⟨-, hstop⟩ | ⟨x, rest, hrest, -, hreach⟩
  · rw [hstop]
  · exact (Cursor.Reaches.past hrest).trans hreach

/-- A way goes on where another ended. -/
lemma cat (h : p.Starts m k) (h' : q.Starts k n) : (cat p q).Starts m n := by
  rcases h with ⟨hp, hstop⟩ | ⟨x, rest, hrest, hx, hreach⟩
  · rcases h' with ⟨hq, hstop'⟩ | ⟨x, rest, hrest, hx, hreach⟩
    · exact Or.inl ⟨by simp [nullable, hp, hq], hstop'.trans hstop⟩
    · rw [hstop] at hrest hreach
      exact Or.inr ⟨x, rest, hrest, by simp [begins, hp, hx], hreach⟩
  · exact Or.inr ⟨x, rest, hrest, by simp [begins, hx], hreach.trans h'.reaches⟩

lemma repeated {f : PatternMatch → List PatternMatch} (hf : ∀ m, ∀ n ∈ f m, p.Starts m n)
    (i : ℕ) : ∀ m, ∀ n ∈ Pattern.repeated f i m, (star p).Starts m n := by
  induction i with
  | zero =>
      intro m n hn
      obtain rfl := List.mem_singleton.mp hn
      exact Or.inl ⟨rfl, rfl⟩
  | succ i ih =>
      intro m n hn
      rcases List.mem_append.mp hn with hn | hn
      · obtain ⟨k, hk, hn⟩ := List.mem_flatMap.mp hn
        have hround : (Pattern.cat p (star p)).Starts m n := (hf m k hk).cat (ih k n hn)
        exact hround.mono (fun _ => rfl) fun x hx => (begins_round x p).symm.trans hx
      · obtain rfl := List.mem_singleton.mp hn
        exact Or.inl ⟨rfl, rfl⟩

end Starts

/-- A way takes a character with which its pattern can begin, unless it takes nothing. -/
lemma starts_ways (h : n ∈ ways origin p m) : p.Starts m n := by
  induction p generalizing m n with
  | empty =>
      obtain rfl := List.mem_singleton.mp h
      exact Or.inl ⟨rfl, rfl⟩
  | one set =>
      obtain ⟨x, rest, hrest, hx, rfl⟩ := PatternMatch.mem_take.mp h
      exact Or.inr ⟨x, rest, hrest, hx, .refl _⟩
  | atStart =>
      obtain ⟨-, rfl⟩ := mem_ways_atStart.mp h
      exact Or.inl ⟨rfl, rfl⟩
  | atEnd =>
      obtain ⟨-, rfl⟩ := mem_ways_atEnd.mp h
      exact Or.inl ⟨rfl, rfl⟩
  | cat p q ihp ihq =>
      obtain ⟨k, hk, hn⟩ := List.mem_flatMap.mp h
      exact (ihp hk).cat (ihq hn)
  | alt p q ihp ihq =>
      rcases List.mem_append.mp h with hn | hn
      · exact (ihp hn).mono (fun hp => by simp [nullable, hp]) fun x hx => by simp [begins, hx]
      · exact (ihq hn).mono (fun hq => by simp [nullable, hq]) fun x hx => by simp [begins, hx]
  | opt p ih =>
      rcases List.mem_append.mp h with hn | hn
      · exact (ih hn).mono (fun _ => rfl) fun _ hx => hx
      · obtain rfl := List.mem_singleton.mp hn
        exact Or.inl ⟨rfl, rfl⟩
  | star p ih => exact .repeated (fun _ _ => ih) _ m n h
  | plus p ih =>
      -- once and then any number of times: a sequence that begins as its first pattern does
      obtain ⟨k, hk, hn⟩ := List.mem_flatMap.mp h
      have hround : (cat p (star p)).Starts m n :=
        (ih hk).cat (.repeated (fun _ _ => ih) _ k n hn)
      refine hround.mono (fun hp => ?_) fun x hx => (begins_round x p).symm.trans hx
      simpa [nullable] using hp
  | group i p ih =>
      obtain ⟨k, hk, rfl⟩ := List.mem_map.mp h
      exact (ih hk).mono (fun hp => hp) fun _ hx => hx

/-- A way through a pattern that needs a character gets on. -/
lemma lt_ways (hp : p.nullable = false) (h : n ∈ ways origin p m) :
    m.stop.offset < n.stop.offset := by
  rcases starts_ways h with ⟨hnull, -⟩ | ⟨x, rest, -, -, hreach⟩
  · rw [hp] at hnull
    cases hnull
  · have hx := x.utf8Size_pos
    have hle : m.stop.offset + x.utf8Size ≤ n.stop.offset := hreach.offset_le
    omega

/-- There is no way through a pattern that needs a character and cannot begin with the next one. -/
lemma ways_eq_nil (hp : p.nullable = false) {x : Char} {rest : Text}
    (hrest : m.stop.rest = x :: rest) (hx : p.begins x = false) : ways origin p m = [] := by
  refine List.eq_nil_iff_forall_not_mem.mpr fun n hn => ?_
  rcases starts_ways hn with ⟨hnull, -⟩ | ⟨y, rest', hrest', hy, -⟩
  · rw [hp] at hnull
    cases hnull
  · obtain ⟨rfl, -⟩ := List.cons.inj (hrest.symm.trans hrest')
    rw [hx] at hy
    cases hy

/-! ### The preferred way -/

lemma head?_ways_cat (hp : (ways origin p m).head? = some k)
    (hq : (ways origin q k).head? = some n) : (ways origin (cat p q) m).head? = some n := by
  obtain ⟨ks, hks⟩ := List.head?_eq_some_iff.mp hp
  obtain ⟨ns, hns⟩ := List.head?_eq_some_iff.mp hq
  rw [ways, hks, List.flatMap_cons, hns]
  rfl

lemma head?_ways_group {i : ℕ} (hp : (ways origin p (m.opened i)).head? = some n) :
    (ways origin (group i p) m).head? = some (n.closed i) := by
  rw [ways, List.head?_map, hp]
  rfl

lemma head?_ways_one {set : CharSet} {x : Char} {rest : Text} (hrest : m.stop.rest = x :: rest)
    (hx : set.mem x = true) :
    (ways origin (one set) m).head? = some ⟨m.stop.past x rest, m.captures⟩ := by
  rw [ways, m.take_cons set hrest, if_pos hx]
  rfl

/-- A repeated set takes as many characters as it can. -/
lemma head?_ways_star_one {set : CharSet} {t rest : Text} (hrest : m.stop.rest = t ++ rest)
    (ht : ∀ x ∈ t, set.mem x = true) (hnext : ∀ x ∈ rest.head?, set.mem x = false) :
    (ways origin (star (one set)) m).head?
      = some ⟨⟨m.stop.offset + t.size, rest⟩, m.captures⟩ := by
  induction t generalizing m with
  | nil =>
      rw [List.nil_append] at hrest
      have hnone : m.take set = [] := by
        cases hcases : rest with
        | nil => exact m.take_nil set (hrest.trans hcases)
        | cons y rest' =>
            rw [hcases] at hnext
            rw [m.take_cons set (hrest.trans hcases), hnext y rfl]
            rfl
      rw [ways_star_one, hnone]
      subst hrest
      rfl
  | cons x t ih =>
      obtain ⟨hx, ht⟩ := List.forall_mem_cons.mp ht
      rw [List.cons_append] at hrest
      have hlater := ih (m := ⟨m.stop.past x (t ++ rest), m.captures⟩) rfl ht
      rw [ways_star_one, m.take_cons set hrest, if_pos hx, List.flatMap_singleton,
        List.head?_append, hlater, Text.size_cons, ← Nat.add_assoc]
      rfl

lemma head?_ways_plus_one {set : CharSet} {t rest : Text} (hrest : m.stop.rest = t ++ rest)
    (hne : t ≠ []) (ht : ∀ x ∈ t, set.mem x = true)
    (hnext : ∀ x ∈ rest.head?, set.mem x = false) :
    (ways origin (plus (one set)) m).head?
      = some ⟨⟨m.stop.offset + t.size, rest⟩, m.captures⟩ := by
  obtain ⟨x, t, rfl⟩ := List.exists_cons_of_ne_nil hne
  obtain ⟨hx, ht⟩ := List.forall_mem_cons.mp ht
  have hfirst : (ways origin (one set) m).head? = some ⟨m.stop.past x (t ++ rest), m.captures⟩ :=
    head?_ways_one hrest hx
  have hlater : (ways origin (star (one set)) ⟨m.stop.past x (t ++ rest), m.captures⟩).head?
      = some ⟨⟨m.stop.offset + x.utf8Size + Text.size t, rest⟩, m.captures⟩ :=
    head?_ways_star_one rfl ht hnext
  rw [Text.size_cons, ← Nat.add_assoc]
  exact head?_ways_cat hfirst hlater

end Pattern

end ShellSyntax
