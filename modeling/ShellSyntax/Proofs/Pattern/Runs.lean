import Mathlib.Data.List.Basic
import Mathlib.Data.List.DropRight
import Mathlib.Tactic.Common
import ShellSyntax.Proofs.Pattern.Preferred

/-!
Runs of characters in the preferred way through a pattern.

* `Text.leading`: the first character of a text, if it is of a sort;
* `Pattern.ways_cat_one`, `Pattern.ways_eq_nil_of_head?`: a single character is there, or not;
* `Pattern.head?_flatMap_star`, `Pattern.head?_flatMap_opt`: where what comes behind a set cannot
  begin with a character of it, the preferred way takes the whole run of such characters, or the
  first character if it is one, and no other way counts;
* `Pattern.head?_ways_plus`: a set that is repeated once or more takes the whole run as well, if
  what comes behind it need take nothing;
* `Pattern.head?_ways_star_last`: where a character has to follow that may be one of the run, the
  run is given back up to the last such character.
-/

namespace ShellSyntax

/-- The first character of a text, if it is of a sort. -/
def Text.leading (p : Char → Bool) (t : Text) : Text := (t.take 1).filter p

lemma Text.leading_isPrefix (p : Char → Bool) (t : Text) : Text.leading p t <+: t := by
  cases t with
  | nil => exact List.nil_prefix
  | cons x t =>
      by_cases hx : p x = true
      · rw [show Text.leading p (x :: t) = [x] from List.filter_cons_of_pos hx]
        exact ⟨t, rfl⟩
      · rw [show Text.leading p (x :: t) = [] from List.filter_cons_of_neg hx]
        exact List.nil_prefix

namespace Pattern

variable {origin : ℕ} {set : CharSet} {f : PatternMatch → List PatternMatch}

/-! ### Single characters -/

lemma ways_anchored (p : Pattern) (c : Cursor) (cs : Captures) :
    ways c.offset (cat .atStart p) ⟨c, cs⟩ = ways c.offset p ⟨c, cs⟩ := by
  rw [ways, ways, if_pos rfl, List.flatMap_singleton]

/-- A character of the set is taken. -/
lemma ways_cat_one {x : Char} {rest : Text} {m : PatternMatch} (hrest : m.stop.rest = x :: rest)
    (hx : set.mem x = true) (q : Pattern) :
    ways origin (cat (one set) q) m = ways origin q ⟨m.stop.past x rest, m.captures⟩ := by
  rw [ways, ways, m.take_cons set hrest, if_pos hx, List.flatMap_singleton]

/-- There is no way through a pattern that needs a character, where the text ends or goes on with
one with which the pattern cannot begin. -/
lemma ways_eq_nil_of_head? {p : Pattern} (hp : p.nullable = false) {m : PatternMatch}
    (hbegins : ∀ x ∈ m.stop.rest.head?, p.begins x = false) : ways origin p m = [] := by
  cases hrest : m.stop.rest with
  | nil =>
      refine List.eq_nil_iff_forall_not_mem.mpr fun n hn => ?_
      have hlt := (reaches_ways hn).length_lt (lt_ways hp hn)
      rw [hrest] at hlt
      exact Nat.not_lt_zero _ hlt
  | cons x rest =>
      rw [hrest] at hbegins
      exact ways_eq_nil hp hrest (hbegins x rfl)

/-! ### Runs -/

/-- The ways through what comes behind do not begin with a character of the set. -/
def Shuns (f : PatternMatch → List PatternMatch) (set : CharSet) : Prop :=
  ∀ n x rest, n.stop.rest = x :: rest → set.mem x = true → f n = []

lemma shuns_ways {q : Pattern} (hq : q.nullable = false)
    (hbegins : ∀ x, set.mem x = true → q.begins x = false) : Shuns (ways origin q) set :=
  fun _ _ _ hrest hx => ways_eq_nil hq hrest (hbegins _ hx)

/-- If it cannot go on behind fewer, a way through a repeated set takes the whole run of its
characters. -/
lemma head?_flatMap_star (hf : Shuns f set) (m : PatternMatch) :
    ((ways origin (star (one set)) m).flatMap f).head?
      = (f ⟨m.stop.behind (m.stop.rest.takeWhile set.mem), m.captures⟩).head? := by
  induction hrest : m.stop.rest generalizing m with
  | nil =>
      rw [ways_star_one, m.take_nil set hrest]
      exact congrArg List.head? (List.flatMap_singleton ..)
  | cons x rest ih =>
      rw [ways_star_one, m.take_cons set hrest]
      by_cases hx : set.mem x = true
      · rw [if_pos hx, List.flatMap_singleton, List.flatMap_append, List.flatMap_singleton,
          hf m x rest hrest hx, List.append_nil, ih _ rfl, List.takeWhile_cons_of_pos hx,
          Cursor.behind_cons hrest]
      · rw [if_neg hx, List.takeWhile_cons_of_neg hx]
        exact congrArg List.head? (List.flatMap_singleton ..)

/-- The first character is taken if it is one of the set. -/
lemma take_cases (set : CharSet) (m : PatternMatch) :
    (m.take set = [] ∧ m.stop.rest.leading set.mem = [])
      ∨ m.take set = [⟨m.stop.behind (m.stop.rest.leading set.mem), m.captures⟩]
        ∧ ∃ x rest, m.stop.rest = x :: rest ∧ set.mem x = true := by
  cases hrest : m.stop.rest with
  | nil => exact Or.inl ⟨m.take_nil set hrest, rfl⟩
  | cons x rest =>
      rw [m.take_cons set hrest]
      by_cases hx : set.mem x = true
      · have hleading : Text.leading set.mem (x :: rest) = [x] := List.filter_cons_of_pos hx
        rw [if_pos hx, hleading, Cursor.behind_cons hrest]
        exact Or.inr ⟨rfl, x, rest, rfl, hx⟩
      · rw [if_neg hx]
        exact Or.inl ⟨rfl, List.filter_cons_of_neg hx⟩

/-- If it cannot go on in front of it, a way takes the first character that may be left out. -/
lemma head?_flatMap_opt (hf : Shuns f set) (m : PatternMatch) :
    ((ways origin (opt (one set)) m).flatMap f).head?
      = (f ⟨m.stop.behind (m.stop.rest.leading set.mem), m.captures⟩).head? := by
  rw [ways, ways, List.flatMap_append, List.flatMap_singleton]
  rcases take_cases set m with ⟨hnil, hleading⟩ | ⟨htake, x, rest, hrest, hx⟩
  · rw [hnil, hleading]
    rfl
  · rw [htake, List.flatMap_singleton, hf m x rest hrest hx, List.append_nil]

/-- A character that may be left out is taken, if it is one of the set. -/
lemma head?_ways_opt (m : PatternMatch) :
    (ways origin (opt (one set)) m).head?
      = some ⟨m.stop.behind (m.stop.rest.leading set.mem), m.captures⟩ := by
  rw [ways, ways]
  rcases take_cases set m with ⟨hnil, hleading⟩ | ⟨htake, -⟩
  · rw [hnil, hleading]
    rfl
  · rw [htake]
    rfl

/-- A set that is repeated once or more takes the whole run of its characters. -/
lemma head?_ways_plus {m : PatternMatch} (hne : m.stop.rest.takeWhile set.mem ≠ []) :
    (ways origin (plus (one set)) m).head?
      = some ⟨m.stop.behind (m.stop.rest.takeWhile set.mem), m.captures⟩ := by
  have hrest : m.stop.rest = m.stop.rest.takeWhile set.mem ++ m.stop.rest.dropWhile set.mem :=
    List.takeWhile_append_dropWhile.symm
  have hnext : ∀ x ∈ (m.stop.rest.dropWhile set.mem).head?, set.mem x = false := by
    intro x hx
    have hnot := List.head?_dropWhile_not set.mem m.stop.rest
    rw [Option.mem_def.mp hx] at hnot
    simpa using hnot
  have hdrop : m.stop.rest.drop (m.stop.rest.takeWhile set.mem).length
      = m.stop.rest.dropWhile set.mem := by
    conv_lhs => rw [hrest, List.drop_append_of_le_length (by simp)]
    simp
  rw [head?_ways_plus_one hrest hne (fun x hx => List.mem_takeWhile_imp hx) hnext, Cursor.behind,
    hdrop]

lemma ways_plus_eq_nil {m : PatternMatch} (hnone : m.stop.rest.takeWhile set.mem = []) :
    ways origin (plus (one set)) m = [] := by
  rw [ways_plus, ways]
  cases hrest : m.stop.rest with
  | nil => rw [m.take_nil set hrest, List.flatMap_nil]
  | cons x rest =>
      have hx : ¬set.mem x = true := by
        intro hx
        rw [hrest, List.takeWhile_cons_of_pos hx] at hnone
        cases hnone
      rw [m.take_cons set hrest, if_neg hx, List.flatMap_nil]

/-- What is left of a text up to the last character of a sort, character by character. -/
lemma rdropWhile_cons (p : Char → Bool) (x : Char) (t : Text) :
    (x :: t).rdropWhile p
      = if t.rdropWhile p = [] then if p x then [] else [x] else x :: t.rdropWhile p := by
  rw [List.rdropWhile, List.reverse_cons, List.dropWhile_append]
  by_cases ht : t.rdropWhile p = []
  · have hnil : t.reverse.dropWhile p = [] := List.reverse_eq_nil_iff.mp ht
    rw [if_pos ht, hnil, if_pos List.isEmpty_nil, List.dropWhile_cons]
    split <;> rfl
  · have hne : (t.reverse.dropWhile p).isEmpty = false := by
      rw [List.isEmpty_eq_false_iff]
      exact fun hnil => ht (List.reverse_eq_nil_iff.mpr hnil)
    rw [if_neg ht, hne, if_neg Bool.false_ne_true, List.reverse_append]
    rfl

/-- A run behind which a character of its own has to follow is given back up to the last such
character. -/
lemma head?_ways_star_last {last : CharSet} (hlast : ∀ x, last.mem x = true → set.mem x = true)
    (m : PatternMatch) :
    let run := (m.stop.rest.takeWhile set.mem).rdropWhile fun x => !last.mem x
    (ways origin (cat (star (one set)) (one last)) m).head?
      = if run = [] then none else some ⟨m.stop.behind run, m.captures⟩ := by
  rw [ways]
  induction hrest : m.stop.rest generalizing m with
  | nil =>
      rw [ways_star_one, m.take_nil set hrest]
      simp [ways, m.take_nil last hrest]
  | cons x rest ih =>
      rw [ways_star_one, m.take_cons set hrest]
      by_cases hx : set.mem x = true
      · rw [if_pos hx, List.flatMap_singleton, List.flatMap_append, List.flatMap_singleton,
          List.head?_append, ih _ rfl, List.takeWhile_cons_of_pos hx, rdropWhile_cons, ways,
          m.take_cons last hrest]
        -- the run behind the character is given back, or it is not
        generalize (rest.takeWhile set.mem).rdropWhile (fun x => !last.mem x) = run
        cases run with
        | nil => by_cases hx' : last.mem x = true <;> simp [hx', Cursor.behind_cons hrest]
        | cons y run => simp [Cursor.behind_cons hrest]
      · have hx' : ¬last.mem x = true := fun h => hx (hlast x h)
        rw [if_neg hx, List.takeWhile_cons_of_neg hx]
        simp [ways, m.take_cons last hrest, hx']

end Pattern

end ShellSyntax
