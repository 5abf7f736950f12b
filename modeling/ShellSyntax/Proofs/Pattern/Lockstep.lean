import Mathlib.Data.List.Basic
import Mathlib.Tactic.Common
import ShellSyntax.Proofs.Pattern.Fronts

/-!
Following all ways at once finds the most preferred one.

* `Pattern.Within`, `Pattern.Apart`: the places of a part of the pattern, and places outside of it;
* `Pattern.Stands`: a pattern stands at a part of the whole, with the ways that go on behind it;
* `Pattern.Enters`, `Pattern.Resumes`: wherever a pattern stands, all ways into it are followed,
  and all ways on from a part that has taken its character. Each form of a pattern has a lemma for
  the one and for the other; `Pattern.enters_of_steady` and `Pattern.resumes_of_steady` put them
  together, by induction on the pattern;
* `Pattern.matchFrom?_eq_head?`: the match of a steady pattern is the first of its ways.
-/

namespace ShellSyntax

namespace Pattern

section Lockstep

variable {whole : Pattern} {origin : ℕ} {here : Cursor} {among : Place → Prop} {k : Next}
  {after after' : PatternMatch → List PatternMatch} {p q : Pattern} {part : Place} {next : Next}

/-! ### Parts of a pattern -/

/-- A place is within a part of the pattern, or is that part. -/
def Within (part r : Place) : Prop := part.turns <:+ r.turns

/-- None of the places lies within a part of the pattern. -/
def Apart (part : Place) (among : Place → Prop) : Prop := ∀ r, among r → ¬Within part r

lemma within_self (part : Place) : Within part part := List.suffix_refl _

lemma within_of_first {r : Place} (h : Within part.first r) : Within part r :=
  (List.suffix_cons _ _).trans h

lemma within_of_second {r : Place} (h : Within part.second r) : Within part r :=
  (List.suffix_cons _ _).trans h

lemma not_within_first_self (part : Place) : ¬Within part.first part := fun h =>
  absurd h.length_le (by simp [Place.first])

lemma not_within_second_self (part : Place) : ¬Within part.second part := fun h =>
  absurd h.length_le (by simp [Place.second])

/-- The two parts of a part have no place in common. -/
lemma not_within_both {r : Place} (h : Within part.first r) : ¬Within part.second r := by
  intro h'
  have hsuffix := List.suffix_of_suffix_length_le h h' (by simp [Place.first, Place.second])
  simpa [Place.first, Place.second] using hsuffix.eq_of_length (by simp [Place.first, Place.second])

lemma Apart.first (h : Apart part among) : Apart part.first among :=
  fun r hr hw => h r hr (within_of_first hw)

lemma Apart.second (h : Apart part among) : Apart part.second among :=
  fun r hr hw => h r hr (within_of_second hw)

/-- What lies behind the first part of a sequence is apart from it. -/
lemma Apart.first_of_both (h : Apart part among) :
    Apart part.first fun r => Within part.second r ∨ among r := by
  rintro r (hr | hr) hw
  · exact not_within_both hw hr
  · exact h.first r hr hw

lemma Follows.of_first
    (h : whole.Follows origin here k (fun r => Within part.first r ∨ among r) after) :
    whole.Follows origin here k (fun r => Within part r ∨ among r) after :=
  h.mono fun _ hr => hr.imp_left within_of_first

lemma Follows.of_second
    (h : whole.Follows origin here k (fun r => Within part.second r ∨ among r) after) :
    whole.Follows origin here k (fun r => Within part r ∨ among r) after :=
  h.mono fun _ hr => hr.imp_left within_of_second

lemma Follows.of_both
    (h : whole.Follows origin here k
      (fun r => Within part.first r ∨ Within part.second r ∨ among r) after) :
    whole.Follows origin here k (fun r => Within part r ∨ among r) after := by
  refine h.mono ?_
  rintro r (hr | hr | hr)
  · exact Or.inl (within_of_first hr)
  · exact Or.inl (within_of_second hr)
  · exact Or.inr hr

/-- Within a part, a place is visited from which a continuation comes to other places of the part.
-/
lemma Follows.visit_within {inside : Place → Prop} {spot : Place}
    (h : whole.Follows origin here k (fun r => inside r ∨ among r) after)
    (hspot : Within part spot) (hinside : ∀ r, inside r → Within part r) (hself : ¬inside spot)
    (hamong : Apart part among)
    (hfuture : ∀ m, whole.future origin spot.turns.reverse m = after m) :
    whole.Follows origin here (fun cs => Front.visit spot (k cs))
      (fun r => Within part r ∨ among r) after := by
  refine (h.visit ?_ hfuture).mono ?_
  · rintro (hin | hout)
    · exact hself hin
    · exact hamong spot hout hspot
  · rintro r (rfl | hin | hout)
    · exact Or.inl hspot
    · exact Or.inl (hinside r hin)
    · exact Or.inr hout

/-- The pattern `p` stands at a part of the whole pattern, and `after` goes on behind it. -/
structure Stands (whole : Pattern) (origin : ℕ) (p : Pattern) (part : Place)
    (after : PatternMatch → List PatternMatch) : Prop where
  future : ∀ turns m, whole.future origin (part.turns.reverse ++ turns) m
    = (p.future origin turns m).flatMap after
  resumed : ∀ turns m, whole.resumed origin (part.turns.reverse ++ turns) m
    = (p.resumed origin turns m).flatMap after

namespace Stands

lemma first (h : Stands whole origin p part after)
    (hfuture : ∀ turns m, (p.future origin (false :: turns) m).flatMap after
      = (q.future origin turns m).flatMap after')
    (hresumed : ∀ turns m, (p.resumed origin (false :: turns) m).flatMap after
      = (q.resumed origin turns m).flatMap after') : Stands whole origin q part.first after' where
  future turns m := by
    rw [← hfuture, ← h.future]
    simp [Place.first]
  resumed turns m := by
    rw [← hresumed, ← h.resumed]
    simp [Place.first]

lemma second (h : Stands whole origin p part after)
    (hfuture : ∀ turns m, (p.future origin (true :: turns) m).flatMap after
      = (q.future origin turns m).flatMap after')
    (hresumed : ∀ turns m, (p.resumed origin (true :: turns) m).flatMap after
      = (q.resumed origin turns m).flatMap after') : Stands whole origin q part.second after' where
  future turns m := by
    rw [← hfuture, ← h.future]
    simp [Place.second]
  resumed turns m := by
    rw [← hresumed, ← h.resumed]
    simp [Place.second]

/-- The first pattern of a sequence, with the second one behind it. -/
lemma cat_first (h : Stands whole origin (cat p q) part after) :
    Stands whole origin p part.first fun m => (ways origin q m).flatMap after :=
  h.first (fun _ _ => by rw [future_cat, List.flatMap_assoc])
    fun _ _ => by rw [resumed_cat, List.flatMap_assoc]

lemma cat_second (h : Stands whole origin (cat p q) part after) :
    Stands whole origin q part.second after := h.second (fun _ _ => rfl) fun _ _ => rfl

lemma alt_first (h : Stands whole origin (alt p q) part after) :
    Stands whole origin p part.first after := h.first (fun _ _ => rfl) fun _ _ => rfl

lemma alt_second (h : Stands whole origin (alt p q) part after) :
    Stands whole origin q part.second after := h.second (fun _ _ => rfl) fun _ _ => rfl

lemma opt_first (h : Stands whole origin (opt p) part after) :
    Stands whole origin p part.first after := h.first (fun _ _ => rfl) fun _ _ => rfl

/-- What a group records, with the end of the group behind it. -/
lemma group_first {i : ℕ} (h : Stands whole origin (group i p) part after) :
    Stands whole origin p part.first fun m => after (m.closed i) :=
  h.first (fun _ _ => by rw [future_group, List.flatMap_map])
    fun _ _ => by rw [resumed_group, List.flatMap_map]

/-- A character that is repeated, with its further rounds behind it. -/
lemma star_one {set : CharSet} (h : Stands whole origin (star (one set)) part after) :
    Stands whole origin (one set) part.first
      fun m => (ways origin (star (one set)) m).flatMap after :=
  h.first (fun _ _ => by rw [future_star, List.flatMap_assoc])
    fun _ _ => by rw [resumed_star, List.flatMap_assoc]

lemma plus_one {set : CharSet} (h : Stands whole origin (plus (one set)) part after) :
    Stands whole origin (one set) part.first
      fun m => (ways origin (star (one set)) m).flatMap after :=
  h.first (fun _ _ => by rw [future_plus, List.flatMap_assoc])
    fun _ _ => by rw [resumed_plus, List.flatMap_assoc]

/-- The ways on from the part itself. -/
lemma future_part (h : Stands whole origin p part after) (m : PatternMatch) :
    whole.future origin part.turns.reverse m = (ways origin p m).flatMap after := by
  have hpart := h.future [] m
  rw [List.append_nil] at hpart
  rw [hpart]
  cases p <;> rfl

/-- The ways on from the second turn. -/
lemma future_second (h : Stands whole origin p part after) (m : PatternMatch) :
    whole.future origin part.second.turns.reverse m = (p.future origin [true] m).flatMap after := by
  rw [← h.future]
  simp [Place.second]

end Stands

/-! ### Following a pattern -/

section Forms

variable (whole origin here)

/-- Wherever the pattern `p` stands, all ways into it are followed, and from its end on what comes
behind. -/
def Enters (p : Pattern) : Prop :=
  ∀ ⦃part next among after⦄, Stands whole origin p part after →
    whole.Follows origin here next among after → Apart part among →
      whole.Follows origin here (enter origin here p part next) (fun r => Within part r ∨ among r)
        fun m => (ways origin p m).flatMap after

/-- Wherever the pattern `p` stands, all ways on from a part of it that has taken its character are
followed, and from its end on what comes behind. -/
def Resumes (p : Pattern) : Prop :=
  ∀ turns ⦃part next among after⦄, Stands whole origin p part after →
    whole.Follows origin here next among after → Apart part among →
      whole.Follows origin here (resume origin here p turns part next)
        (fun r => Within part r ∨ among r) fun m => (p.resumed origin turns m).flatMap after

end Forms

/-- Where a condition holds, what comes behind goes on at once. -/
lemma follows_if (c : Prop) [Decidable c] (hnext : whole.Follows origin here next among after) :
    whole.Follows origin here (if c then next else .stop) (fun r => Within part r ∨ among r)
      fun m => (if c then [m] else []).flatMap after := by
  by_cases hc : c
  · rw [if_pos hc]
    refine (hnext.mono fun _ => Or.inr).congr fun cs => ?_
    rw [if_pos hc, List.flatMap_singleton]
  · rw [if_neg hc]
    refine follows_stop.congr fun cs => ?_
    rw [if_neg hc, List.flatMap_nil]

lemma enters_empty : Enters whole origin here empty := by
  intro part next among after _ hnext _
  exact follows_if True hnext

lemma enters_atStart : Enters whole origin here atStart := by
  intro part next among after _ hnext _
  exact (follows_if (here.offset = origin) hnext).congr fun _ => rfl

lemma enters_atEnd : Enters whole origin here atEnd := by
  intro part next among after _ hnext _
  exact (follows_if (here.rest.isEmpty) hnext).congr fun _ => rfl

/-- A single character is waited for, and then what comes behind it goes on. -/
lemma follows_one {set : CharSet} (h : Stands whole origin (one set) part after) :
    whole.Follows origin here (Front.await part set) (· = part)
      fun m => (m.take set).flatMap after := by
  have hresumed : whole.resumed origin part.turns.reverse = after := by
    funext m
    have hpart := h.resumed [] m
    rw [List.append_nil] at hpart
    rw [hpart, resumed_one, List.flatMap_singleton]
  have hfuture := h.future_part
  rw [← hresumed] at hfuture ⊢
  exact follows_await hfuture

lemma enters_one (set : CharSet) : Enters whole origin here (one set) := by
  intro part next among after hs _ _
  refine (follows_one hs).mono ?_
  rintro r rfl
  exact Or.inl (within_self _)

lemma resumes_one (set : CharSet) : Resumes whole origin here (one set) := by
  intro turns part next among after _ hnext _
  match turns with
  | [] =>
      refine (hnext.mono fun _ => Or.inr).congr fun cs => ?_
      rw [resumed_one, List.flatMap_singleton]
  | _ :: _ => exact follows_stop

/-- In a sequence, the second pattern is what comes behind the first. -/
lemma Enters.cat (hp : Enters whole origin here p) (hq : Enters whole origin here q) :
    Enters whole origin here (cat p q) := by
  intro part next among after hs hnext hamong
  have hsecond := hq hs.cat_second hnext hamong.second
  exact (hp hs.cat_first hsecond hamong.first_of_both).of_both.congr
    fun cs => by rw [ways, List.flatMap_assoc]

lemma Resumes.cat (hp : Resumes whole origin here p) (hq : Resumes whole origin here q)
    (henter : Enters whole origin here q) : Resumes whole origin here (cat p q) := by
  intro turns part next among after hs hnext hamong
  match turns with
  | false :: turns =>
      -- the character was in the first pattern, so the second is still to be entered
      have hsecond := henter hs.cat_second hnext hamong.second
      exact (hp turns hs.cat_first hsecond hamong.first_of_both).of_both.congr
        fun cs => by rw [resumed_cat, List.flatMap_assoc]
  | true :: turns => exact (hq turns hs.cat_second hnext hamong.second).of_second
  | [] => exact follows_stop

/-- Both alternatives are followed, the first one first. -/
lemma Enters.alt (hp : Enters whole origin here p) (hq : Enters whole origin here q) :
    Enters whole origin here (alt p q) := by
  intro part next among after hs hnext hamong
  have hfirst := hp hs.alt_first hnext hamong.first
  have hsecond := hq hs.alt_second hnext hamong.second
  have hboth : whole.Follows origin here _
      (fun r => (Within part.first r ∨ Within part.second r) ∨ among r)
      fun m => (ways origin (Pattern.alt p q) m).flatMap after :=
    ((hfirst.mono fun _ hr => hr.imp_left Or.inl).append
      (hsecond.mono fun _ hr => hr.imp_left Or.inr)).congr
        fun cs => by rw [ways, List.flatMap_append]
  -- the choice itself is a part that is visited, and it lies in neither alternative
  exact hboth.visit_within (within_self part)
    (fun _ hr => hr.elim within_of_first within_of_second)
    (not_or.mpr ⟨not_within_first_self part, not_within_second_self part⟩) hamong hs.future_part

lemma Resumes.alt (hp : Resumes whole origin here p) (hq : Resumes whole origin here q) :
    Resumes whole origin here (alt p q) := by
  intro turns part next among after hs hnext hamong
  match turns with
  | false :: turns => exact (hp turns hs.alt_first hnext hamong.first).of_first
  | true :: turns => exact (hq turns hs.alt_second hnext hamong.second).of_second
  | [] => exact follows_stop

/-- What may be left out is followed first, then what comes behind it. -/
lemma Enters.opt (hp : Enters whole origin here p) : Enters whole origin here (opt p) := by
  intro part next among after hs hnext hamong
  have hboth : whole.Follows origin here _ (fun r => Within part.first r ∨ among r)
      fun m => (ways origin (Pattern.opt p) m).flatMap after :=
    ((hp hs.opt_first hnext hamong.first).append (hnext.mono fun _ => Or.inr)).congr
      fun cs => by rw [ways, List.flatMap_append, List.flatMap_singleton]
  exact hboth.visit_within (within_self part) (fun _ => within_of_first)
    (not_within_first_self part) hamong hs.future_part

lemma Resumes.opt (hp : Resumes whole origin here p) : Resumes whole origin here (opt p) := by
  intro turns part next among after hs hnext hamong
  match turns with
  | false :: turns => exact (hp turns hs.opt_first hnext hamong.first).of_first
  | [] | true :: _ => exact follows_stop

/-- Behind the pattern that a group records, the end of the group is recorded. -/
lemma Follows.closed (hnext : whole.Follows origin here next among after) (i : ℕ) :
    whole.Follows origin here (fun cs => next (cs.stop i here)) among
      fun m => after (m.closed i) := fun cs f hf => hnext (cs.stop i here) f hf

lemma Enters.group (hp : Enters whole origin here p) (i : ℕ) :
    Enters whole origin here (group i p) := by
  intro part next among after hs hnext hamong
  have hinner := hp hs.group_first (hnext.closed i) hamong.first
  have hopened : whole.Follows origin here (enter origin here (Pattern.group i p) part next)
      (fun r => Within part.first r ∨ among r)
      fun m => (ways origin p (m.opened i)).flatMap fun m => after (m.closed i) :=
    fun cs f hf => hinner (cs.start i here) f hf
  exact hopened.of_first.congr fun cs => by rw [ways, List.flatMap_map]

lemma Resumes.group (hp : Resumes whole origin here p) (i : ℕ) :
    Resumes whole origin here (group i p) := by
  intro turns part next among after hs hnext hamong
  match turns with
  | false :: turns =>
      exact (hp turns hs.group_first (hnext.closed i) hamong.first).of_first.congr
        fun cs => by rw [resumed_group, List.flatMap_map]
  | [] | true :: _ => exact follows_stop

/-- A repeated character is waited for once more, or else what comes behind goes on. -/
lemma follows_round {set : CharSet}
    (h : Stands whole origin (one set) part.first
      fun m => (ways origin (star (one set)) m).flatMap after)
    (hnext : whole.Follows origin here next among after) :
    whole.Follows origin here (fun cs f => next cs (Front.await part.first set cs f))
      (fun r => Within part.first r ∨ among r)
      fun m => (ways origin (star (one set)) m).flatMap after := by
  refine (((follows_one h).mono ?_).append (hnext.mono fun _ => Or.inr)).congr fun cs => ?_
  · rintro r rfl
    exact Or.inl (within_self _)
  · rw [ways_star_one, List.flatMap_append, List.flatMap_assoc, List.flatMap_singleton]

/-- The same behind a character that was taken. The choice is a part of its own then. -/
lemma follows_again {set : CharSet}
    (h : Stands whole origin (one set) part.first
      fun m => (ways origin (star (one set)) m).flatMap after)
    (hsecond : ∀ m, whole.future origin part.second.turns.reverse m
      = (ways origin (star (one set)) m).flatMap after)
    (hnext : whole.Follows origin here next among after) (hamong : Apart part among) :
    whole.Follows origin here (again (Front.await part.first set) next part)
      (fun r => Within part r ∨ among r)
      fun m => (ways origin (star (one set)) m).flatMap after := by
  have hself : ¬Within part.first part.second := fun h => not_within_both h (within_self _)
  exact (follows_round h hnext).visit_within (within_of_second (within_self _))
    (fun _ => within_of_first) hself hamong hsecond

lemma enters_star_one (set : CharSet) : Enters whole origin here (star (one set)) := by
  intro part next among after hs hnext hamong
  exact (follows_round hs.star_one hnext).visit_within (within_self part)
    (fun _ => within_of_first) (not_within_first_self part) hamong hs.future_part

lemma enters_plus_one (set : CharSet) : Enters whole origin here (plus (one set)) := by
  intro part next among after hs _ _
  refine ((follows_one hs.plus_one).mono ?_).congr fun cs => ?_
  · rintro r rfl
    exact Or.inl (within_of_first (within_self _))
  · rw [ways_plus, ways, List.flatMap_assoc]

lemma resumes_star_one (set : CharSet) : Resumes whole origin here (star (one set)) := by
  intro turns part next among after hs hnext hamong
  match turns with
  | [false] =>
      refine (follows_again hs.star_one hs.future_second hnext hamong).congr fun cs => ?_
      rw [resumed_star, resumed_one, List.flatMap_singleton]
  | [] | true :: _ | false :: _ :: _ =>
      -- no other part takes a character
      exact follows_stop

lemma resumes_plus_one (set : CharSet) : Resumes whole origin here (plus (one set)) := by
  intro turns part next among after hs hnext hamong
  match turns with
  | [false] =>
      refine (follows_again hs.plus_one hs.future_second hnext hamong).congr fun cs => ?_
      rw [resumed_plus, resumed_one, List.flatMap_singleton]
  | [] | true :: _ | false :: _ :: _ => exact follows_stop

/-- All ways into a steady pattern are followed. -/
lemma enters_of_steady (hp : p.steady) : Enters whole origin here p := by
  induction p with
  | empty => exact enters_empty
  | one set => exact enters_one set
  | atStart => exact enters_atStart
  | atEnd => exact enters_atEnd
  | cat p q ihp ihq =>
      rw [steady, Bool.and_eq_true] at hp
      exact (ihp hp.1).cat (ihq hp.2)
  | alt p q ihp ihq =>
      rw [steady, Bool.and_eq_true] at hp
      exact (ihp hp.1).alt (ihq hp.2)
  | opt p ih => exact (ih hp).opt
  | star p ih =>
      -- only single characters are repeated
      cases p with
      | one set => exact enters_star_one set
      | _ => cases hp
  | plus p ih =>
      cases p with
      | one set => exact enters_plus_one set
      | _ => cases hp
  | group i p ih => exact (ih hp).group i

/-- All ways on from a part of a steady pattern that has taken its character are followed. -/
lemma resumes_of_steady (hp : p.steady) : Resumes whole origin here p := by
  induction p with
  | one set => exact resumes_one set
  | cat p q ihp ihq =>
      rw [steady, Bool.and_eq_true] at hp
      exact (ihp hp.1).cat (ihq hp.2) (enters_of_steady hp.2)
  | alt p q ihp ihq =>
      rw [steady, Bool.and_eq_true] at hp
      exact (ihp hp.1).alt (ihq hp.2)
  | opt p ih => exact (ih hp).opt
  | star p ih =>
      cases p with
      | one set => exact resumes_star_one set
      | _ => cases hp
  | plus p ih =>
      cases p with
      | one set => exact resumes_plus_one set
      | _ => cases hp
  | group i p ih => exact (ih hp).group i
  | empty | atStart | atEnd =>
      -- there is no part that takes a character
      intro turns part next among after _ _ _
      exact follows_stop

/-- The whole pattern stands at the place of the whole, with nothing behind it. -/
lemma stands_whole (p : Pattern) (origin : ℕ) : Stands p origin p .whole fun m => [m] where
  future turns m := by simp [Place.whole]
  resumed turns m := by simp [Place.whole]

/-- No place lies behind the end of the pattern. -/
lemma follows_finish_alone (p : Pattern) :
    p.Follows origin here Front.finish (fun _ => False) fun m => [m] := follows_finish

/-! ### Matches -/

/-- Threads that meet the character `c` lead to the same matches behind it. -/
lemma advances_threads (hp : p.steady) {c : Char} {rest : Text} (hrest : here.rest = c :: rest)
    (threads : List Thread) {f : Front}
    (hf : p.Settled origin (here.past c rest) (fun _ => True) f) :
    p.Advances origin (here.past c rest) (fun _ => True)
      (threads.flatMap (p.threadWays origin here)) f
      (threads.foldl (fun f t => if t.set.mem c then
        resume origin (here.past c rest) p t.place.turns.reverse .whole Front.finish t.captures f
        else f) f) := by
  induction threads generalizing f with
  | nil => exact ⟨by simp, fun _ hpart => Or.inl hpart⟩
  | cons t threads ih =>
      rw [List.foldl_cons, List.flatMap_cons, threadWays, PatternMatch.take_cons t.set hrest]
      split
      · have hfollows : p.Follows origin (here.past c rest)
            (resume origin (here.past c rest) p t.place.turns.reverse .whole Front.finish)
            (fun _ => True) (p.resumed origin t.place.turns.reverse) :=
          ((resumes_of_steady hp _ (stands_whole p origin) (follows_finish_alone p)
            fun _ h _ => h).mono fun _ _ => trivial).congr
              fun cs => by rw [List.flatMap_singleton']
        have hstep := hfollows t.captures f hf
        rw [List.flatMap_singleton]
        exact hstep.trans (ih (hstep.settled hf))
      · exact ih hf

lemma head?_results (f : Front) :
    (p.results origin here f).head?
      = (f.threads.flatMap (p.threadWays origin here)).head?.or (f.match? here) := by
  rw [results, List.head?_append]
  cases f.match? here <;> rfl

/-- The match that threads lead to is the most preferred of what they lead to. -/
lemma scan_eq (hp : p.steady) (rest : Text) (offset : ℕ) (threads : List Thread)
    (best : Option PatternMatch) :
    scan p origin rest offset threads best
      = (threads.flatMap (p.threadWays origin ⟨offset, rest⟩)).head?.or best := by
  induction rest generalizing offset threads best with
  | nil =>
      have hnone : threads.flatMap (p.threadWays origin ⟨offset, []⟩) = [] := by
        refine List.flatMap_eq_nil_iff.mpr fun t _ => ?_
        rw [threadWays, PatternMatch.take_nil t.set rfl, List.flatMap_nil]
      rw [hnone, scan]
      rfl
  | cons c rest ih =>
      cases threads with
      | nil => rfl
      | cons t threads =>
          -- behind `c`, the front has the results that the threads led to in front of it
          set here : Cursor := ⟨offset, c :: rest⟩
          have hnone : p.Settled origin (here.past c rest) (fun _ => True) .none :=
            fun _ h => absurd h (by simp [Front.none])
          have hadvance := (advances_threads hp (show here.rest = c :: rest from rfl)
            (t :: threads) hnone).head
          set f := advance p origin (here.past c rest) c (t :: threads)
          have hscan : scan p origin (c :: rest) offset (t :: threads) best
              = scan p origin rest (offset + c.utf8Size) f.threads
                  (f.match? (here.past c rest) <|> best) := rfl
          have hempty : p.results origin (here.past c rest) .none = [] := rfl
          rw [hempty, List.nil_append] at hadvance
          -- a match that ends behind `c` counts unless a thread leads to a preferred one
          rw [hscan, ih, ← hadvance, Option.orElse_eq_orElse, Option.orElse_eq_or,
            ← Option.or_assoc]
          exact congrArg (·.or best) (head?_results f).symm

/-- **The match of a steady pattern is its most preferred way.** -/
theorem matchFrom?_eq_head? (hp : p.steady) (origin : ℕ) (c : Cursor) :
    p.matchFrom? origin c = (p.ways origin ⟨c, .none⟩).head? := by
  have hfollows : p.Follows origin c (enter origin c p .whole Front.finish) _ (p.ways origin) :=
    (enters_of_steady hp (stands_whole p origin) (follows_finish_alone p) fun _ h _ => h).congr
      fun cs => by rw [List.flatMap_singleton']
  have hhead := (hfollows .none .none fun _ h => absurd h (by simp [Front.none])).head
  have hempty : p.results origin c .none = [] := rfl
  rw [hempty, List.nil_append] at hhead
  rw [matchFrom?, scan_eq hp, ← hhead, head?_results]

end Lockstep

end Pattern

end ShellSyntax
