import Mathlib.Data.List.Basic
import Mathlib.Tactic.Common
import ShellSyntax.Pattern.Match
import ShellSyntax.Proofs.Text.Places

/-!
The ways of a pattern through a text, one at a time.

* `Pattern.ways`: all ways through a pattern from a place on, the most preferred first, where a part
  is tried again and again with what comes behind it;
* `Pattern.steady`: whether all that a pattern repeats is single characters, so that no way goes
  round without getting on. For such patterns `Pattern.Lockstep` shows that the first way is the
  match;
* `Pattern.ways_star_one`: a repeated character is taken once more, or else not at all;
* `Uniform`, `Pattern.uniform_ways`: whether there are ways, and where they end, does not depend on
  what groups have taken;
* `Pattern.reaches_ways`: a way leads on in the same line;
* `Pattern.mem_ways_atStart`, `Pattern.mem_ways_atEnd`: only where they hold do anchors let ways
  pass;
* `Pattern.mem_ways_star_one`, `Pattern.mem_ways_plus_one`: a way through a repeated set takes
  characters of the set;
* `Pattern.captures_ways`, `Pattern.mem_ways_group`: ways through a pattern without groups leave
  what groups have taken as it is, and a way through a group around one adds where it began and
  ended.
-/

namespace ShellSyntax

namespace PatternMatch

/-- The way on over one character of a set. -/
def take (set : CharSet) (m : PatternMatch) : List PatternMatch :=
  match m.stop.rest with
  | [] => []
  | c :: rest => if set.mem c then [⟨m.stop.past c rest, m.captures⟩] else []

/-- The way with a group begun. -/
def opened (i : ℕ) (m : PatternMatch) : PatternMatch := ⟨m.stop, m.captures.start i m.stop⟩

/-- The way with a group ended. -/
def closed (i : ℕ) (m : PatternMatch) : PatternMatch := ⟨m.stop, m.captures.stop i m.stop⟩

@[simp] lemma stop_closed (i : ℕ) (m : PatternMatch) : (m.closed i).stop = m.stop := rfl

lemma take_nil {m : PatternMatch} (set : CharSet) (h : m.stop.rest = []) : m.take set = [] := by
  rw [take, h]

lemma take_cons {m : PatternMatch} (set : CharSet) {c : Char} {rest : Text}
    (h : m.stop.rest = c :: rest) :
    m.take set = if set.mem c then [⟨m.stop.past c rest, m.captures⟩] else [] := by
  rw [take, h]

lemma mem_take {set : CharSet} {m n : PatternMatch} :
    n ∈ m.take set ↔ ∃ c rest, m.stop.rest = c :: rest ∧ set.mem c = true
      ∧ n = ⟨m.stop.past c rest, m.captures⟩ := by
  cases h : m.stop.rest with
  | nil => simp [take_nil set h]
  | cons c rest =>
      rw [take_cons set h]
      by_cases hc : set.mem c = true <;> simp [hc]

end PatternMatch

namespace Pattern

/-- The ways that take a further step any number of times, but `n` times at most: more steps before
fewer. -/
def repeated (next : PatternMatch → List PatternMatch) : ℕ → PatternMatch → List PatternMatch
  | 0, m => [m]
  | n + 1, m => (next m).flatMap (repeated next n) ++ [m]

/-- All ways through a pattern from where a way has come to, the most preferred first. A pattern can
be repeated as often as there are characters left. -/
def ways (origin : ℕ) : Pattern → PatternMatch → List PatternMatch
  | empty, m => [m]
  | one set, m => m.take set
  | atStart, m => if m.stop.offset = origin then [m] else []
  | atEnd, m => if m.stop.rest.isEmpty then [m] else []
  | cat p q, m => (ways origin p m).flatMap (ways origin q)
  | alt p q, m => ways origin p m ++ ways origin q m
  | opt p, m => ways origin p m ++ [m]
  | star p, m => repeated (ways origin p) m.stop.rest.length m
  | plus p, m => (ways origin p m).flatMap fun n => repeated (ways origin p) n.stop.rest.length n
  | group i p, m => (ways origin p (m.opened i)).map (·.closed i)

/-- Whether all that a pattern repeats is single characters. -/
def steady : Pattern → Bool
  | cat p q | alt p q => steady p && steady q
  | opt p | group _ p => steady p
  | star (one _) | plus (one _) => true
  | star _ | plus _ => false
  | empty | one _ | atStart | atEnd => true

variable {origin : ℕ}

lemma ways_plus (p : Pattern) (m : PatternMatch) :
    ways origin (plus p) m = (ways origin p m).flatMap (ways origin (star p)) := rfl

/-- A repeated character is taken once more, or else not at all. -/
lemma ways_star_one (set : CharSet) (m : PatternMatch) :
    ways origin (star (one set)) m
      = (m.take set).flatMap (ways origin (star (one set))) ++ [m] := by
  cases h : m.stop.rest with
  | nil =>
      rw [ways, h, m.take_nil set h]
      rfl
  | cons c rest =>
      rw [ways, h, m.take_cons set h, List.length_cons, repeated]
      congr 1
      rw [ways, m.take_cons set h]
      split
      · simp only [List.flatMap_cons, List.flatMap_nil, List.append_nil]
        rfl
      · rfl

/-! ### What ways depend on -/

/-- Where the results of a function on ways end depends only on where the ways have come to. -/
def Uniform (f : PatternMatch → List PatternMatch) : Prop :=
  ∀ m n, m.stop = n.stop → (f m).map (·.stop) = (f n).map (·.stop)

lemma Uniform.eq_nil_iff {f : PatternMatch → List PatternMatch} (hf : Uniform f)
    {m n : PatternMatch} (h : m.stop = n.stop) : f m = [] ↔ f n = [] := by
  rw [← List.map_eq_nil_iff (f := (·.stop)), hf m n h, List.map_eq_nil_iff]

lemma uniform_pure : Uniform fun m => [m] := fun m n h => by simp [h]

lemma uniform_take (set : CharSet) : Uniform (·.take set) := by
  intro m n h
  cases hm : m.stop.rest with
  | nil => simp only [m.take_nil set hm, n.take_nil set (h ▸ hm)]
  | cons c rest =>
      simp only [m.take_cons set hm, n.take_cons set (h ▸ hm), h]
      split <;> rfl

lemma Uniform.append {f g : PatternMatch → List PatternMatch} (hf : Uniform f) (hg : Uniform g) :
    Uniform fun m => f m ++ g m := fun m n h => by
  simp only [List.map_append, hf m n h, hg m n h]

lemma Uniform.flatMap {f g : PatternMatch → List PatternMatch} (hf : Uniform f)
    (hg : Uniform g) : Uniform fun m => (f m).flatMap g := by
  have hstops : ∀ l : List PatternMatch, (l.flatMap g).map (·.stop)
      = (l.map (·.stop)).flatMap fun c => (g ⟨c, .none⟩).map (·.stop) := by
    intro l
    rw [List.map_flatMap, List.flatMap_map]
    exact List.flatMap_congr fun m _ => hg m _ rfl
  intro m n h
  simp only [hstops, hf m n h]

lemma Uniform.repeated {f : PatternMatch → List PatternMatch} (hf : Uniform f) (k : ℕ) :
    Uniform (repeated f k) := by
  induction k with
  | zero => exact uniform_pure
  | succ k ih => exact (hf.flatMap ih).append uniform_pure

/-- Whether there are ways through a pattern, and where they end, does not depend on what groups
have taken. -/
lemma uniform_ways (p : Pattern) : Uniform (ways origin p) := by
  have hrepeat : ∀ {f}, Uniform f → Uniform fun m => Pattern.repeated f m.stop.rest.length m :=
    fun hf m n h => by simp only [h]; exact hf.repeated _ m n h
  induction p with
  | empty => exact uniform_pure
  | one set => exact uniform_take set
  | atStart =>
      intro m n h
      simp only [ways, h]
      split <;> simp [h]
  | atEnd =>
      intro m n h
      simp only [ways, h]
      split <;> simp [h]
  | cat p q ihp ihq => exact ihp.flatMap ihq
  | alt p q ihp ihq => exact ihp.append ihq
  | opt p ih => exact ih.append uniform_pure
  | star p ih => exact hrepeat ih
  | plus p ih => exact ih.flatMap (hrepeat ih)
  | group i p ih =>
      intro m n h
      simp only [ways, List.map_map, Function.comp_def, PatternMatch.stop_closed]
      exact ih _ _ h

/-! ### What a way takes -/

/-- What holds along each step of a repetition, and from each way to itself, holds along all of
it. -/
lemma of_mem_repeated {R : PatternMatch → PatternMatch → Prop} {f : PatternMatch → List PatternMatch}
    (hrefl : ∀ m, R m m) (htrans : ∀ {m n k}, R m n → R n k → R m k)
    (hf : ∀ m, ∀ n ∈ f m, R m n) (k : ℕ) : ∀ m, ∀ n ∈ repeated f k m, R m n := by
  induction k with
  | zero =>
      intro m n hn
      obtain rfl := List.mem_singleton.mp hn
      exact hrefl n
  | succ k ih =>
      intro m n hn
      rcases List.mem_append.mp hn with hn | hn
      · obtain ⟨n', hn', hn⟩ := List.mem_flatMap.mp hn
        exact htrans (hf m n' hn') (ih n' n hn)
      · obtain rfl := List.mem_singleton.mp hn
        exact hrefl n

/-- What holds along each character, and along a way that begins or ends a group, holds along each
way through a pattern. -/
lemma of_mem_ways {R : PatternMatch → PatternMatch → Prop} (hrefl : ∀ m, R m m)
    (htrans : ∀ {m n k}, R m n → R n k → R m k) (htake : ∀ set m, ∀ n ∈ m.take set, R m n)
    (p : Pattern) (hgroup : p.groupCount = 0 ∨ ∀ i m, R m (m.opened i) ∧ R m (m.closed i))
    (m : PatternMatch) : ∀ n ∈ ways origin p m, R m n := by
  induction p generalizing m with
  | empty =>
      intro n hn
      obtain rfl := List.mem_singleton.mp hn
      exact hrefl n
  | one set => exact htake set m
  | atStart | atEnd =>
      intro n hn
      rw [ways] at hn
      split at hn
      · obtain rfl := List.mem_singleton.mp hn
        exact hrefl n
      · cases hn
  | cat p q ihp ihq =>
      intro n hn
      obtain ⟨n', hn', hn⟩ := List.mem_flatMap.mp hn
      rw [groupCount, Nat.add_eq_zero_iff] at hgroup
      exact htrans (ihp (hgroup.imp_left And.left) m n' hn') (ihq (hgroup.imp_left And.right) n' n hn)
  | alt p q ihp ihq =>
      intro n hn
      rw [groupCount, Nat.add_eq_zero_iff] at hgroup
      rcases List.mem_append.mp hn with hn | hn
      · exact ihp (hgroup.imp_left And.left) m n hn
      · exact ihq (hgroup.imp_left And.right) m n hn
  | opt p ih =>
      intro n hn
      rcases List.mem_append.mp hn with hn | hn
      · exact ih hgroup m n hn
      · obtain rfl := List.mem_singleton.mp hn
        exact hrefl n
  | star p ih => exact of_mem_repeated hrefl htrans (ih hgroup) _ m
  | plus p ih =>
      intro n hn
      obtain ⟨n', hn', hn⟩ := List.mem_flatMap.mp hn
      exact htrans (ih hgroup m n' hn') (of_mem_repeated hrefl htrans (ih hgroup) _ n' n hn)
  | group i p ih =>
      intro n hn
      obtain ⟨n', hn', rfl⟩ := List.mem_map.mp hn
      -- there is a group, so the relation must hold along the beginning and the end of groups
      have hgroup := hgroup.resolve_left (Nat.succ_ne_zero _)
      exact htrans (hgroup i m).1 (htrans (ih (Or.inr hgroup) _ n' hn') (hgroup i n').2)

/-- A way leads on in the same line. -/
lemma reaches_ways {p : Pattern} {m n : PatternMatch} (h : n ∈ ways origin p m) :
    m.stop.Reaches n.stop := by
  refine of_mem_ways (R := fun m n => m.stop.Reaches n.stop) (fun m => .refl m.stop)
    (fun h h' => h.trans h') ?_ p (Or.inr fun i m => ⟨.refl m.stop, .refl m.stop⟩) m n h
  intro set m n hn
  obtain ⟨c, rest, hrest, -, rfl⟩ := PatternMatch.mem_take.mp hn
  exact .past hrest

/-- Ways through a pattern without groups leave what groups have taken as it is. -/
lemma captures_ways {p : Pattern} (hp : p.groupCount = 0) {m n : PatternMatch}
    (h : n ∈ ways origin p m) : n.captures = m.captures := by
  refine of_mem_ways (R := fun m n => n.captures = m.captures) (fun m => rfl)
    (fun h h' => h'.trans h) ?_ p (Or.inl hp) m n h
  intro set m n hn
  obtain ⟨c, rest, -, -, rfl⟩ := PatternMatch.mem_take.mp hn
  rfl

lemma mem_ways_cat {p q : Pattern} {m k n : PatternMatch} (h : k ∈ ways origin p m)
    (h' : n ∈ ways origin q k) : n ∈ ways origin (cat p q) m :=
  List.mem_flatMap.mpr ⟨k, h, h'⟩

lemma mem_ways_atStart {m n : PatternMatch} :
    n ∈ ways origin atStart m ↔ m.stop.offset = origin ∧ n = m := by
  rw [ways]
  split <;> simp_all

lemma mem_ways_atEnd {m n : PatternMatch} :
    n ∈ ways origin atEnd m ↔ m.stop.rest = [] ∧ n = m := by
  rw [ways]
  split <;> simp_all

/-- A way through a group around a pattern without groups adds where it began and ended. -/
lemma mem_ways_group {i : ℕ} {p : Pattern} (hp : p.groupCount = 0) {m n : PatternMatch}
    (h : n ∈ ways origin (group i p) m) : m.stop.Reaches n.stop
      ∧ n.captures = (m.captures.start i m.stop).stop i n.stop := by
  obtain ⟨n', hn', rfl⟩ := List.mem_map.mp h
  have hreach : (m.opened i).stop.Reaches n'.stop := reaches_ways hn'
  refine ⟨hreach, ?_⟩
  show n'.captures.stop i n'.stop = (m.captures.start i m.stop).stop i n'.stop
  rw [captures_ways hp hn']
  rfl

/-- A way through a repeated set ends where it is, or goes on behind a character of the set. -/
lemma mem_ways_star_one_iff {set : CharSet} {m n : PatternMatch} :
    n ∈ ways origin (star (one set)) m ↔ n = m ∨ ∃ c rest, m.stop.rest = c :: rest
      ∧ set.mem c = true ∧ n ∈ ways origin (star (one set)) ⟨m.stop.past c rest, m.captures⟩ := by
  rw [ways_star_one, List.mem_append, List.mem_singleton, List.mem_flatMap, or_comm]
  refine or_congr_right ⟨?_, ?_⟩
  · rintro ⟨k, hk, hn⟩
    obtain ⟨c, rest, hrest, hc, rfl⟩ := PatternMatch.mem_take.mp hk
    exact ⟨c, rest, hrest, hc, hn⟩
  · rintro ⟨c, rest, hrest, hc, hn⟩
    exact ⟨_, PatternMatch.mem_take.mpr ⟨c, rest, hrest, hc, rfl⟩, hn⟩

/-- The ways through a repeated set take characters of the set. -/
lemma mem_ways_star_one {set : CharSet} {m n : PatternMatch} :
    n ∈ ways origin (star (one set)) m ↔ ∃ t rest, m.stop.rest = t ++ rest
      ∧ (∀ x ∈ t, set.mem x = true) ∧ n = ⟨⟨m.stop.offset + t.size, rest⟩, m.captures⟩ := by
  refine ⟨fun h => ?_, ?_⟩
  · -- each round takes a character of the text that is left, which the induction is on
    induction hrest : m.stop.rest generalizing m with
    | nil =>
        rcases mem_ways_star_one_iff.mp h with rfl | ⟨c, rest, hcons, -⟩
        · exact ⟨[], n.stop.rest, hrest.symm, by simp, rfl⟩
        · cases hrest.symm.trans hcons
    | cons c rest ih =>
        rcases mem_ways_star_one_iff.mp h with rfl | ⟨c', rest', hcons, hc, hn⟩
        · exact ⟨[], n.stop.rest, hrest.symm, by simp, rfl⟩
        · obtain ⟨rfl, rfl⟩ := List.cons.inj (hrest.symm.trans hcons)
          obtain ⟨t, later, rfl, ht, rfl⟩ := ih hn rfl
          refine ⟨c :: t, later, rfl, List.forall_mem_cons.mpr ⟨hc, ht⟩, ?_⟩
          rw [Text.size_cons, ← Nat.add_assoc]
          rfl
  · rintro ⟨t, rest, hrest, ht, rfl⟩
    induction t generalizing m with
    | nil =>
        obtain ⟨⟨offset, text⟩, captures⟩ := m
        obtain rfl : text = rest := hrest
        exact mem_ways_star_one_iff.mpr (Or.inl rfl)
    | cons c t ih =>
        obtain ⟨hc, ht⟩ := List.forall_mem_cons.mp ht
        have hlater := ih (m := ⟨m.stop.past c (t ++ rest), m.captures⟩) rfl ht
        refine mem_ways_star_one_iff.mpr (Or.inr ⟨c, t ++ rest, hrest, hc, ?_⟩)
        rw [Text.size_cons, ← Nat.add_assoc]
        exact hlater

/-- The ways through a set that is repeated once or more take characters of the set. -/
lemma mem_ways_plus_one {set : CharSet} {m n : PatternMatch} :
    n ∈ ways origin (plus (one set)) m ↔ ∃ (t : Text) (rest : Text), t ≠ [] ∧ m.stop.rest = t ++ rest
      ∧ (∀ x ∈ t, set.mem x = true) ∧ n = ⟨⟨m.stop.offset + t.size, rest⟩, m.captures⟩ := by
  rw [ways_plus, List.mem_flatMap]
  refine ⟨?_, ?_⟩
  · rintro ⟨n', hn', hn⟩
    obtain ⟨c, rest', hrest, hc, rfl⟩ := PatternMatch.mem_take.mp hn'
    obtain ⟨t, rest, heq, ht, rfl⟩ := mem_ways_star_one.mp hn
    refine ⟨c :: t, rest, List.cons_ne_nil c t, ?_, List.forall_mem_cons.mpr ⟨hc, ht⟩, ?_⟩
    · rw [hrest, List.cons_append]
      exact congrArg (c :: ·) heq
    · rw [Text.size_cons, ← Nat.add_assoc]
      rfl
  · rintro ⟨t, rest, hne, hrest, ht, rfl⟩
    obtain ⟨c, t, rfl⟩ := List.exists_cons_of_ne_nil hne
    obtain ⟨hc, ht⟩ := List.forall_mem_cons.mp ht
    refine ⟨_, PatternMatch.mem_take.mpr ⟨c, t ++ rest, hrest, hc, rfl⟩, ?_⟩
    refine mem_ways_star_one.mpr ⟨t, rest, rfl, ht, ?_⟩
    rw [Text.size_cons, ← Nat.add_assoc]
    rfl

end Pattern

end ShellSyntax
