import Mathlib.Data.List.Basic
import Mathlib.Tactic.Common
import ShellSyntax.Proofs.Pattern.Ways

/-!
What a front leads to.

A way that comes to a part where another has been at the same place of the text is given up. The
other is preferred, and goes on alike: so it leads to a match if the later one does.

* `Pattern.future`, `Pattern.resumed`: all ways on to the end of the pattern, from a part that is
  about to be entered, and from one that has just taken its character;
* `Pattern.results`: the matches that a front will lead to, the most preferred first;
* `Pattern.Dead`: no match lies behind a part. `Pattern.Settled`: as long as a front has no results,
  the parts it has seen are dead. This is the invariant that lets a later way be given up;
* `Pattern.Follows`: a continuation adds the results that it stands for, as far as they count, and
  keeps the invariant. So does a part that is visited (`Pattern.follows_visit`), and one that waits
  for its character (`Pattern.follows_await`).
-/

namespace ShellSyntax

namespace Pattern

/-! ### The ways on from a part -/

/-- All ways to the end of a pattern from a part of it that is about to be entered. The part is
given by the turns to it. A repetition that has been round once is entered again behind its second
turn. -/
def future (origin : ℕ) : Pattern → List Bool → PatternMatch → List PatternMatch
  | p, [], m => ways origin p m
  | cat p q, false :: turns, m => (future origin p turns m).flatMap (ways origin q)
  | cat _ q, true :: turns, m => future origin q turns m
  | alt p _, false :: turns, m => future origin p turns m
  | alt _ q, true :: turns, m => future origin q turns m
  | opt p, false :: turns, m => future origin p turns m
  | star p, false :: turns, m => (future origin p turns m).flatMap (ways origin (star p))
  | star p, [true], m => ways origin (star p) m
  | plus p, false :: turns, m => (future origin p turns m).flatMap (ways origin (star p))
  | plus p, [true], m => ways origin (star p) m
  | group i p, false :: turns, m => (future origin p turns m).map (·.closed i)
  | _, _, _ => []

/-- All ways to the end of a pattern from a part of it that has just taken its character. -/
def resumed (origin : ℕ) : Pattern → List Bool → PatternMatch → List PatternMatch
  | one _, [], m => [m]
  | cat p q, false :: turns, m => (resumed origin p turns m).flatMap (ways origin q)
  | cat _ q, true :: turns, m => resumed origin q turns m
  | alt p _, false :: turns, m => resumed origin p turns m
  | alt _ q, true :: turns, m => resumed origin q turns m
  | opt p, false :: turns, m => resumed origin p turns m
  | star p, false :: turns, m => (resumed origin p turns m).flatMap (ways origin (star p))
  | plus p, false :: turns, m => (resumed origin p turns m).flatMap (ways origin (star p))
  | group i p, false :: turns, m => (resumed origin p turns m).map (·.closed i)
  | _, _, _ => []

section

variable {origin : ℕ} {p q : Pattern} {set : CharSet} {i : ℕ} {turns : List Bool} {m : PatternMatch}

lemma future_cat : future origin (cat p q) (false :: turns) m
    = (future origin p turns m).flatMap (ways origin q) := rfl

lemma future_star : future origin (star p) (false :: turns) m
    = (future origin p turns m).flatMap (ways origin (star p)) := rfl

lemma future_plus : future origin (plus p) (false :: turns) m
    = (future origin p turns m).flatMap (ways origin (star p)) := rfl

lemma future_group : future origin (group i p) (false :: turns) m
    = (future origin p turns m).map (·.closed i) := rfl

lemma resumed_one : resumed origin (one set) [] m = [m] := rfl

lemma resumed_cat : resumed origin (cat p q) (false :: turns) m
    = (resumed origin p turns m).flatMap (ways origin q) := rfl

lemma resumed_star : resumed origin (star p) (false :: turns) m
    = (resumed origin p turns m).flatMap (ways origin (star p)) := rfl

lemma resumed_plus : resumed origin (plus p) (false :: turns) m
    = (resumed origin p turns m).flatMap (ways origin (star p)) := rfl

lemma resumed_group : resumed origin (group i p) (false :: turns) m
    = (resumed origin p turns m).map (·.closed i) := rfl

end

lemma uniform_future (origin : ℕ) (p : Pattern) (turns : List Bool) :
    Uniform (future origin p turns) := by
  induction p generalizing turns with
  | cat p q ihp ihq =>
      match turns with
      | [] => exact uniform_ways _
      | false :: turns => exact (ihp turns).flatMap (uniform_ways q)
      | true :: turns => exact ihq turns
  | alt p q ihp ihq =>
      match turns with
      | [] => exact uniform_ways _
      | false :: turns => exact ihp turns
      | true :: turns => exact ihq turns
  | opt p ih =>
      match turns with
      | [] => exact uniform_ways _
      | false :: turns => exact ih turns
      | true :: _ => exact fun _ _ _ => rfl
  | star p ih | plus p ih =>
      match turns with
      | [] => exact uniform_ways _
      | false :: turns => exact (ih turns).flatMap (uniform_ways (star p))
      | [true] => exact uniform_ways (star p)
      | true :: _ :: _ => exact fun _ _ _ => rfl
  | group i p ih =>
      match turns with
      | [] => exact uniform_ways _
      | false :: turns =>
          intro m n h
          simp only [future_group, List.map_map, Function.comp_def, PatternMatch.stop_closed]
          exact ih turns m n h
      | true :: _ => exact fun _ _ _ => rfl
  | _ =>
      match turns with
      | [] => exact uniform_ways _
      | true :: _ | false :: _ => exact fun _ _ _ => rfl

/-! ### What a front leads to -/

section Fronts

variable (whole : Pattern) (origin : ℕ) (here : Cursor)

/-- The matches that a thread leads to. -/
def threadWays (t : Thread) : List PatternMatch :=
  ((⟨here, t.captures⟩ : PatternMatch).take t.set).flatMap
    (whole.resumed origin t.place.turns.reverse)

/-- The matches that a front leads to, the most preferred first. -/
def results (f : Front) : List PatternMatch :=
  f.threads.flatMap (whole.threadWays origin here) ++ (f.match? here).toList

/-- No match lies behind a part. -/
def Dead (part : Place) : Prop :=
  ∀ cs, whole.future origin part.turns.reverse ⟨here, cs⟩ = []

/-- As long as a front has no results, the parts it has seen among some are dead. -/
def Settled (among : Place → Prop) (f : Front) : Prop :=
  ∀ part ∈ f.seen, among part → whole.results origin here f = [] → whole.Dead origin here part

/-- From the front `f` to the front `g` the results of `found` were added, as far as they count, and
only parts among some were come to. -/
structure Advances (among : Place → Prop) (found : List PatternMatch) (f g : Front) : Prop where
  head : (whole.results origin here g).head? = (whole.results origin here f ++ found).head?
  seen : ∀ part ∈ g.seen, part ∈ f.seen ∨
    (among part ∧ (whole.results origin here g = [] → whole.Dead origin here part))

/-- A continuation adds the results of the ways that `after` goes on with. -/
def Follows (k : Next) (among : Place → Prop) (after : PatternMatch → List PatternMatch) : Prop :=
  ∀ cs f, whole.Settled origin here among f →
    whole.Advances origin here among (after ⟨here, cs⟩) f (k cs f)

variable {whole origin here} {among among' : Place → Prop} {f g g' : Front}
  {found found' : List PatternMatch} {k k' : Next} {after after' : PatternMatch → List PatternMatch}

lemma Advances.results_eq_nil (h : whole.Advances origin here among found f g)
    (hg : whole.results origin here g = []) :
    whole.results origin here f = [] ∧ found = [] := by
  have hhead := h.head
  rw [hg, List.head?_nil, eq_comm, List.head?_eq_none_iff] at hhead
  exact List.append_eq_nil_iff.mp hhead

/-- What was seen on the way is dead as well, if there are still no results. -/
lemma Advances.settled (h : whole.Advances origin here among found f g)
    (hf : whole.Settled origin here among' f) : whole.Settled origin here among' g := by
  intro part hpart hamong hg
  rcases h.seen part hpart with hseen | ⟨-, hdead⟩
  · exact hf part hseen hamong (h.results_eq_nil hg).1
  · exact hdead hg

lemma Advances.trans (h : whole.Advances origin here among found f g)
    (h' : whole.Advances origin here among found' g g') :
    whole.Advances origin here among (found ++ found') f g' where
  head := by
    rw [h'.head, List.head?_append, h.head, ← List.append_assoc, List.head?_append (l := _ ++ _)]
  seen part hpart := by
    rcases h'.seen part hpart with hseen | hnew
    · rcases h.seen part hseen with hseen | ⟨hamong, hdead⟩
      · exact Or.inl hseen
      · exact Or.inr ⟨hamong, fun hg => hdead (h'.results_eq_nil hg).1⟩
    · exact Or.inr hnew

lemma Advances.mono (h : whole.Advances origin here among found f g)
    (hle : ∀ part, among part → among' part) : whole.Advances origin here among' found f g where
  head := h.head
  seen part hpart := (h.seen part hpart).imp id fun hnew => ⟨hle _ hnew.1, hnew.2⟩

lemma Follows.mono (h : whole.Follows origin here k among after)
    (hle : ∀ part, among part → among' part) : whole.Follows origin here k among' after :=
  fun cs f hf => (h cs f fun part hpart ha => hf part hpart (hle part ha)).mono hle

lemma Follows.congr (h : whole.Follows origin here k among after)
    (heq : ∀ cs, after' ⟨here, cs⟩ = after ⟨here, cs⟩) :
    whole.Follows origin here k among after' := fun cs f hf => heq cs ▸ h cs f hf

/-- Two continuations one after the other. -/
lemma Follows.append (h : whole.Follows origin here k among after)
    (h' : whole.Follows origin here k' among after') :
    whole.Follows origin here (fun cs f => k' cs (k cs f)) among fun m => after m ++ after' m :=
  fun cs f hf => (h cs f hf).trans (h' cs _ ((h cs f hf).settled hf))

/-- A way that is given up adds nothing. -/
lemma follows_stop : whole.Follows origin here .stop among fun _ => [] :=
  fun _ _ _ => ⟨by simp [Next.stop], fun _ hpart => Or.inl hpart⟩

/-- The end of the pattern completes a way. -/
lemma follows_finish : whole.Follows origin here Front.finish among fun m => [m] := by
  intro cs f hf
  refine ⟨?_, fun _ hpart => Or.inl hpart⟩
  cases hc : f.complete <;>
    simp [results, Front.finish, Front.match?, Front.threads, hc, List.head?_append]

/-- At a part that is come to, the ways go on from there, unless others have been there. -/
lemma follows_visit {part : Place} {go : Captures → Front → Front}
    (hgo : ∀ cs f, f.complete = none → whole.Settled origin here among f →
      whole.Advances origin here among (after ⟨here, cs⟩) f (go cs f))
    (hpart : ¬among part)
    (hfuture : ∀ m, whole.future origin part.turns.reverse m = after m) :
    whole.Follows origin here (fun cs => Front.visit part (go cs))
      (fun q => q = part ∨ among q) after := by
  intro cs f hf
  show whole.Advances origin here _ _ f (Front.visit part (go cs) f)
  rw [Front.visit]
  split
  · -- the way is given up: there is a result already, or nothing lies behind the part
    rename_i hskip
    refine ⟨?_, fun _ hq => Or.inl hq⟩
    rw [Bool.or_eq_true] at hskip
    by_cases hnil : whole.results origin here f = []
    · rcases hskip with hcomplete | hseen
      · -- a complete way is a result
        simp [results, Front.match?, List.append_eq_nil_iff, Option.toList_eq_nil_iff] at hnil
        simp [hnil.2] at hcomplete
      · have hdead := hf part (by simpa using hseen) (Or.inl rfl) hnil cs
        rw [← hfuture, hdead, List.append_nil]
    · rw [List.head?_append_of_ne_nil _ hnil]
  · -- the way goes on, and the part is seen from now on
    rename_i hskip
    simp only [Bool.or_eq_true, not_or] at hskip
    have hgo' := hgo cs { f with seen := part :: f.seen } (by simpa using hskip.1) <| by
      intro q hq hamong hnil
      rcases List.mem_cons.mp hq with rfl | hq
      · exact absurd hamong hpart
      · exact hf q hq (Or.inr hamong) hnil
    refine ⟨hgo'.head, fun q hq => ?_⟩
    rcases hgo'.seen q hq with hseen | ⟨hamong, hdead⟩
    · rcases List.mem_cons.mp hseen with rfl | hseen
      · -- if this way found nothing, no other one will find anything here
        refine Or.inr ⟨Or.inl rfl, fun hnil cs' => ?_⟩
        have huniform := (uniform_future origin whole q.turns.reverse).eq_nil_iff
          (m := ⟨here, cs⟩) (n := ⟨here, cs'⟩) rfl
        rw [← huniform, hfuture]
        exact (hgo'.results_eq_nil hnil).2
      · exact Or.inl hseen
    · exact Or.inr ⟨Or.inr hamong, hdead⟩

/-- A part at which a continuation goes on. What it comes to lies behind the part. -/
lemma Follows.visit {part : Place} (h : whole.Follows origin here k among after)
    (hpart : ¬among part) (hfuture : ∀ m, whole.future origin part.turns.reverse m = after m) :
    whole.Follows origin here (fun cs => Front.visit part (k cs))
      (fun q => q = part ∨ among q) after :=
  follows_visit (fun cs f _ hf => h cs f hf) hpart hfuture

/-- A part that takes a character makes a thread. -/
lemma follows_await {part : Place} {set : CharSet}
    (hfuture : ∀ m, whole.future origin part.turns.reverse m
      = (m.take set).flatMap (whole.resumed origin part.turns.reverse)) :
    whole.Follows origin here (Front.await part set) (· = part)
      fun m => (m.take set).flatMap (whole.resumed origin part.turns.reverse) := by
  have hgo : ∀ cs f, f.complete = none → whole.Settled origin here (fun _ => False) f →
      whole.Advances origin here (fun _ => False)
        (((⟨here, cs⟩ : PatternMatch).take set).flatMap (whole.resumed origin part.turns.reverse))
        f { f with waiting := ⟨part, set, cs⟩ :: f.waiting } := by
    intro cs f hcomplete _
    refine ⟨?_, fun _ hpart => Or.inl hpart⟩
    simp [results, Front.match?, Front.threads, hcomplete, threadWays]
  exact (follows_visit hgo id hfuture).mono fun q hq => hq.resolve_right id

end Fronts

end Pattern

end ShellSyntax
