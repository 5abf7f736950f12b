import Mathlib.Data.List.Basic
import Mathlib.Tactic.Common
import ShellSyntax.Proofs.Pattern.Ways
import ShellSyntax.Proofs.Text.Places

/-!
Passages through patterns of any form.

* `Pattern.Passes`: a way through a pattern, with what its groups take. Unlike `Pattern.ways` this
  covers repetitions of any pattern, and knows no preference;
* `Pattern.Waits`: a way into a pattern, up to a part that waits for a character;
* `Pattern.Sound`: all that a front has come to was come to on such ways. `Pattern.sound_enter`,
  `Pattern.sound_resume`: the steps of the matcher keep this, by induction on the pattern and on the
  way to the part that goes on;
* `Pattern.passes_find?`: so a match is a passage;
* `Pattern.Grows`, `Pattern.Passes.grows`: on a passage, groups begin and end within it.
-/

namespace ShellSyntax

namespace Pattern

/-! ### Passages -/

/-- A passage leads through a pattern, from what has been matched before it to what has been matched
behind it. -/
inductive Passes (origin : ℕ) : Pattern → PatternMatch → PatternMatch → Prop where
  | empty {m : PatternMatch} : Passes origin .empty m m
  | one {set : CharSet} {m n : PatternMatch} (h : n ∈ m.take set) : Passes origin (.one set) m n
  | atStart {m : PatternMatch} (h : m.stop.offset = origin) : Passes origin .atStart m m
  | atEnd {m : PatternMatch} (h : m.stop.rest = []) : Passes origin .atEnd m m
  | cat {p q : Pattern} {m k n : PatternMatch} (hp : Passes origin p m k)
      (hq : Passes origin q k n) : Passes origin (.cat p q) m n
  | altLeft {p q : Pattern} {m n : PatternMatch} (hp : Passes origin p m n) :
      Passes origin (.alt p q) m n
  | altRight {p q : Pattern} {m n : PatternMatch} (hq : Passes origin q m n) :
      Passes origin (.alt p q) m n
  | optSome {p : Pattern} {m n : PatternMatch} (hp : Passes origin p m n) :
      Passes origin (.opt p) m n
  | optNone {p : Pattern} {m : PatternMatch} : Passes origin (.opt p) m m
  | starNil {p : Pattern} {m : PatternMatch} : Passes origin (.star p) m m
  | starSnoc {p : Pattern} {m k n : PatternMatch} (hrounds : Passes origin (.star p) m k)
      (hp : Passes origin p k n) : Passes origin (.star p) m n
  | plus {p : Pattern} {m k n : PatternMatch} (hrounds : Passes origin (.star p) m k)
      (hp : Passes origin p k n) : Passes origin (.plus p) m n
  | group {i : ℕ} {p : Pattern} {m n : PatternMatch} (hp : Passes origin p (m.opened i) n) :
      Passes origin (.group i p) m (n.closed i)

/-- A passage leads into a pattern, to a part that waits for a character of a set. The part is given
by the turns to it. -/
inductive Waits (origin : ℕ) (set : CharSet) :
    Pattern → List Bool → PatternMatch → PatternMatch → Prop where
  | one {m : PatternMatch} : Waits origin set (.one set) [] m m
  | catLeft {p q : Pattern} {turns : List Bool} {m n : PatternMatch}
      (hp : Waits origin set p turns m n) : Waits origin set (.cat p q) (false :: turns) m n
  | catRight {p q : Pattern} {turns : List Bool} {m k n : PatternMatch} (hp : Passes origin p m k)
      (hq : Waits origin set q turns k n) : Waits origin set (.cat p q) (true :: turns) m n
  | altLeft {p q : Pattern} {turns : List Bool} {m n : PatternMatch}
      (hp : Waits origin set p turns m n) : Waits origin set (.alt p q) (false :: turns) m n
  | altRight {p q : Pattern} {turns : List Bool} {m n : PatternMatch}
      (hq : Waits origin set q turns m n) : Waits origin set (.alt p q) (true :: turns) m n
  | opt {p : Pattern} {turns : List Bool} {m n : PatternMatch}
      (hp : Waits origin set p turns m n) : Waits origin set (.opt p) (false :: turns) m n
  | star {p : Pattern} {turns : List Bool} {m k n : PatternMatch}
      (hrounds : Passes origin (.star p) m k) (hp : Waits origin set p turns k n) :
      Waits origin set (.star p) (false :: turns) m n
  | plus {p : Pattern} {turns : List Bool} {m k n : PatternMatch}
      (hrounds : Passes origin (.star p) m k) (hp : Waits origin set p turns k n) :
      Waits origin set (.plus p) (false :: turns) m n
  | group {i : ℕ} {p : Pattern} {turns : List Bool} {m n : PatternMatch}
      (hp : Waits origin set p turns (m.opened i) n) :
      Waits origin set (.group i p) (false :: turns) m n

section Soundness

variable (whole : Pattern) (origin : ℕ) (first : PatternMatch) (here : Cursor)

/-- All that a front has come to was come to by passages from `first`. -/
structure Sound (f : Front) : Prop where
  waiting : ∀ t ∈ f.waiting, Waits origin t.set whole t.place.turns.reverse first
    ⟨here, t.captures⟩
  complete : ∀ cs, f.complete = some cs → Passes origin whole first ⟨here, cs⟩

/-- A pattern that is a part of the whole one is come to from `first` with what `m` has matched. -/
def Entered (p : Pattern) (part : Place) (m : PatternMatch) : Prop :=
  ∀ turns set n, Waits origin set p turns m n →
    Waits origin set whole (part.turns.reverse ++ turns) first n

/-- A continuation keeps fronts sound behind a pattern that is entered with what `m` has matched. -/
def Keeps (next : Next) (p : Pattern) (m : PatternMatch) : Prop :=
  ∀ cs f, Passes origin p m ⟨here, cs⟩ → whole.Sound origin first here f →
    whole.Sound origin first here (next cs f)

variable {whole origin first here} {p q : Pattern} {part : Place} {next : Next} {m k : PatternMatch}
  {cs : Captures} {f : Front}

/-! ### Parts that are entered -/

lemma Entered.of_first (h : ∀ turns set n, Waits origin set p turns m n →
      Waits origin set q (false :: turns) k n) (hq : whole.Entered origin first q part k) :
    whole.Entered origin first p part.first m := by
  intro turns set n hn
  have hwhole := hq _ set n (h turns set n hn)
  rwa [Place.first, List.reverse_cons, List.append_assoc]

lemma Entered.of_second (h : ∀ turns set n, Waits origin set p turns m n →
      Waits origin set q (true :: turns) k n) (hq : whole.Entered origin first q part k) :
    whole.Entered origin first p part.second m := by
  intro turns set n hn
  have hwhole := hq _ set n (h turns set n hn)
  rwa [Place.second, List.reverse_cons, List.append_assoc]

lemma entered_whole (whole : Pattern) (origin : ℕ) (first : PatternMatch) :
    whole.Entered origin first whole .whole first := fun _ _ _ h => h

/-! ### Entering a pattern -/

lemma Sound.visit {go : Front → Front} (hf : whole.Sound origin first here f)
    (hgo : ∀ f, whole.Sound origin first here f → whole.Sound origin first here (go f)) :
    whole.Sound origin first here (Front.visit part go f) := by
  rw [Front.visit]
  split
  · exact hf
  · exact hgo _ ⟨hf.waiting, hf.complete⟩

lemma sound_none : whole.Sound origin first here .none :=
  ⟨fun _ ht => absurd ht List.not_mem_nil, fun _ h => by cases h⟩

lemma keeps_stop (p : Pattern) (m : PatternMatch) : whole.Keeps origin first here .stop p m :=
  fun _ _ _ hf => hf

lemma keeps_finish : whole.Keeps origin first here Front.finish whole first := by
  intro cs f hpass hf
  refine ⟨hf.waiting, fun cs' hcs' => ?_⟩
  rw [Front.finish, Option.orElse_eq_orElse, Option.orElse_eq_or, Option.or_eq_some_iff] at hcs'
  rcases hcs' with hbefore | ⟨-, hhere⟩
  · exact hf.complete cs' hbefore
  · obtain rfl := Option.some.inj hhere
    exact hpass

lemma Sound.await {set : CharSet} (hf : whole.Sound origin first here f)
    (hcs : Waits origin set whole part.turns.reverse first ⟨here, cs⟩) :
    whole.Sound origin first here (Front.await part set cs f) := by
  refine hf.visit fun f hf => ⟨fun t ht => ?_, hf.complete⟩
  rcases List.mem_cons.mp ht with rfl | ht
  · exact hcs
  · exact hf.waiting t ht

/-- What keeps fronts sound behind a form keeps them sound behind a part that completes it. -/
lemma Keeps.imp (hnext : whole.Keeps origin first here next q k)
    (h : ∀ n, Passes origin p m n → Passes origin q k n) :
    whole.Keeps origin first here next p m :=
  fun cs f hpass => hnext cs f (h ⟨here, cs⟩ hpass)

/-- Behind a round of a repetition, a further round and what comes behind keep fronts sound. -/
lemma keeps_again {round : Next} (hrounds : Passes origin (.star p) m k)
    (hround : ∀ cs f, Passes origin (.star p) m ⟨here, cs⟩ → whole.Sound origin first here f →
      whole.Sound origin first here (round cs f))
    (hnext : whole.Keeps origin first here next p k) :
    whole.Keeps origin first here (again round next part) p k := by
  intro cs f hpass hf
  exact hf.visit fun f hf => hnext cs _ hpass (hround cs f (.starSnoc hrounds hpass) hf)

/-- Entering a pattern keeps fronts sound. -/
lemma sound_enter (hp : whole.Entered origin first p part ⟨here, cs⟩)
    (hnext : whole.Keeps origin first here next p ⟨here, cs⟩)
    (hf : whole.Sound origin first here f) :
    whole.Sound origin first here (enter origin here p part next cs f) := by
  induction p generalizing part next cs f with
  | empty => exact hnext cs f .empty hf
  | one set =>
      have hwaits := hp [] set _ .one
      rw [List.append_nil] at hwaits
      exact hf.await hwaits
  | atStart =>
      rw [enter]
      split
      · rename_i horigin
        exact hnext cs f (.atStart horigin) hf
      · exact hf
  | atEnd =>
      rw [enter]
      split
      · rename_i hend
        exact hnext cs f (.atEnd (List.isEmpty_iff.mp hend)) hf
      · exact hf
  | cat p q ihp ihq =>
      rw [enter]
      -- wherever a passage through the first pattern ends, the second is entered
      refine ihp (hp.of_first fun _ _ _ => .catLeft) (fun cs' f' hpass hf' => ?_) hf
      exact ihq (hp.of_second fun _ _ _ => .catRight hpass) (hnext.imp fun _ => .cat hpass) hf'
  | alt p q ihp ihq =>
      rw [enter]
      refine hf.visit fun f hf => ?_
      have hleft := ihp (hp.of_first fun _ _ _ => .altLeft) (hnext.imp fun _ => .altLeft) hf
      exact ihq (hp.of_second fun _ _ _ => .altRight) (hnext.imp fun _ => .altRight) hleft
  | opt p ih =>
      rw [enter]
      refine hf.visit fun f hf => hnext cs _ .optNone ?_
      exact ih (hp.of_first fun _ _ _ => .opt) (hnext.imp fun _ => .optSome) hf
  | star p ih =>
      rw [enter]
      refine hf.visit fun f hf => hnext cs _ .starNil ?_
      -- a round that took no character is followed by one that can only wait for one
      refine ih (hp.of_first fun _ _ _ => .star .starNil) (keeps_again .starNil ?_ ?_) hf
      · exact fun cs' f' hrounds => ih (hp.of_first fun _ _ _ => .star hrounds) (keeps_stop p _)
      · exact hnext.imp fun _ => .starSnoc .starNil
  | plus p ih =>
      rw [enter]
      refine ih (hp.of_first fun _ _ _ => .plus .starNil) (keeps_again .starNil ?_ ?_) hf
      · exact fun cs' f' hrounds => ih (hp.of_first fun _ _ _ => .plus hrounds) (keeps_stop p _)
      · exact hnext.imp fun _ => .plus .starNil
  | group i p ih =>
      rw [enter]
      refine ih (hp.of_first fun _ _ _ => .group (m := ⟨here, cs⟩)) (fun cs' f' hpass hf' => ?_) hf
      exact hnext _ f' (.group (m := ⟨here, cs⟩) hpass) hf'

/-- Going on from a part that has taken its character keeps fronts sound. -/
lemma sound_resume {set : CharSet} {turns : List Bool} {n : PatternMatch} {x : Char} {rest : Text}
    (hwaits : Waits origin set p turns m n) (hrest : n.stop.rest = x :: rest)
    (hx : set.mem x = true) (hhere : here = n.stop.past x rest)
    (hp : whole.Entered origin first p part m) (hnext : whole.Keeps origin first here next p m)
    (hf : whole.Sound origin first here f) :
    whole.Sound origin first here (resume origin here p turns part next n.captures f) := by
  induction hwaits generalizing part next f with
  | @one m =>
      -- the way that waited has passed its character, and is behind the part now
      have htake : ⟨here, m.captures⟩ ∈ m.take set :=
        PatternMatch.mem_take.mpr ⟨x, rest, hrest, hx, by rw [hhere]⟩
      exact hnext m.captures f (.one htake) hf
  | catLeft hwaits ih =>
      rw [resume]
      refine ih hrest hhere (hp.of_first fun _ _ _ => .catLeft) (fun cs f hpass hf => ?_) hf
      exact sound_enter (hp.of_second fun _ _ _ => .catRight hpass)
        (hnext.imp fun _ => .cat hpass) hf
  | catRight hpass hwaits ih =>
      rw [resume]
      exact ih hrest hhere (hp.of_second fun _ _ _ => .catRight hpass)
        (hnext.imp fun _ => .cat hpass) hf
  | altLeft hwaits ih =>
      rw [resume]
      exact ih hrest hhere (hp.of_first fun _ _ _ => .altLeft) (hnext.imp fun _ => .altLeft) hf
  | altRight hwaits ih =>
      rw [resume]
      exact ih hrest hhere (hp.of_second fun _ _ _ => .altRight) (hnext.imp fun _ => .altRight) hf
  | opt hwaits ih =>
      rw [resume]
      exact ih hrest hhere (hp.of_first fun _ _ _ => .opt) (hnext.imp fun _ => .optSome) hf
  | @star p turns m k n hrounds hwaits ih =>
      rw [resume]
      -- the rounds before the one that waited are part of the passage
      refine ih hrest hhere (hp.of_first fun _ _ _ => .star hrounds) (keeps_again hrounds ?_ ?_) hf
      · exact fun cs f hrounds' =>
          sound_enter (hp.of_first fun _ _ _ => .star hrounds') (keeps_stop p _)
      · exact hnext.imp fun _ => .starSnoc hrounds
  | @plus p turns m k n hrounds hwaits ih =>
      rw [resume]
      refine ih hrest hhere (hp.of_first fun _ _ _ => .plus hrounds) (keeps_again hrounds ?_ ?_) hf
      · exact fun cs f hrounds' =>
          sound_enter (hp.of_first fun _ _ _ => .plus hrounds') (keeps_stop p _)
      · exact hnext.imp fun _ => .plus hrounds
  | group hwaits ih =>
      rw [resume]
      refine ih hrest hhere (hp.of_first fun _ _ _ => .group) (fun cs f hpass => ?_) hf
      exact hnext _ f (.group hpass)

end Soundness

/-! ### Matches are passages -/

variable {p : Pattern} {origin : ℕ} {first n : PatternMatch} {c : Cursor}

lemma sound_advance {x : Char} {rest : Text} (hrest : c.rest = x :: rest) {threads : List Thread}
    (hthreads : ∀ t ∈ threads,
      Waits origin t.set p t.place.turns.reverse first ⟨c, t.captures⟩) :
    p.Sound origin first (c.past x rest) (advance p origin (c.past x rest) x threads) := by
  rw [advance]
  refine List.foldlRecOn threads _ sound_none fun f hf t ht => ?_
  split
  · rename_i hx
    exact sound_resume (n := ⟨c, t.captures⟩) (hthreads t ht) hrest hx rfl
      (entered_whole p origin first) keeps_finish hf
  · exact hf

/-- What a front has completed, and else what was found before, is a passage. -/
lemma Sound.passes {f : Front} {best : Option PatternMatch} (hf : p.Sound origin first c f)
    (hbest : ∀ n, best = some n → Passes origin p first n) (h : (f.match? c <|> best) = some n) :
    Passes origin p first n := by
  rw [Option.orElse_eq_orElse, Option.orElse_eq_or, Option.or_eq_some_iff] at h
  rcases h with hhere | ⟨-, hbefore⟩
  · obtain ⟨cs, hcs, rfl⟩ := Option.map_eq_some_iff.mp hhere
    exact hf.complete cs hcs
  · exact hbest n hbefore

lemma passes_scan {rest : Text} {offset : ℕ} {threads : List Thread} {best : Option PatternMatch}
    (hthreads : ∀ t ∈ threads,
      Waits origin t.set p t.place.turns.reverse first ⟨⟨offset, rest⟩, t.captures⟩)
    (hbest : ∀ n, best = some n → Passes origin p first n)
    (h : scan p origin rest offset threads best = some n) : Passes origin p first n := by
  induction rest generalizing offset threads best with
  | nil => exact hbest n h
  | cons x rest ih =>
      cases threads with
      | nil => exact hbest n h
      | cons t threads =>
          have hsound := sound_advance (c := ⟨offset, x :: rest⟩) rfl hthreads
          exact ih (fun t ht => hsound.waiting t (List.mem_reverse.mp ht))
            (fun n hn => hsound.passes hbest hn) h

lemma passes_matchFrom? (h : p.matchFrom? origin c = some n) : Passes origin p ⟨c, .none⟩ n := by
  have hsound : p.Sound origin ⟨c, .none⟩ c (enter origin c p .whole Front.finish .none .none) :=
    sound_enter (entered_whole p origin ⟨c, .none⟩) keeps_finish sound_none
  refine passes_scan (fun t ht => hsound.waiting t (List.mem_reverse.mp ht)) (fun n hn => ?_) h
  obtain ⟨cs, hcs, rfl⟩ := Option.map_eq_some_iff.mp hn
  exact hsound.complete cs hcs

lemma passes_searchFrom? (h : p.searchFrom? origin c = some n) :
    ∃ a, c.Reaches a ∧ Passes origin p ⟨a, .none⟩ n := by
  obtain ⟨offset, rest⟩ := c
  rw [searchFrom?] at h
  induction rest generalizing offset with
  | nil => exact ⟨_, .refl _, passes_matchFrom? h⟩
  | cons x rest ih =>
      rw [searchFrom?.go, Option.orElse_eq_orElse, Option.orElse_eq_or, Option.or_eq_some_iff] at h
      rcases h with hhere | ⟨-, hlater⟩
      · exact ⟨_, .refl _, passes_matchFrom? hhere⟩
      · obtain ⟨a, hreach, hpass⟩ := ih _ hlater
        exact ⟨a, (Cursor.Reaches.past (a := ⟨offset, x :: rest⟩) rfl).trans hreach, hpass⟩

/-- **A match is a passage through the pattern**, from the place where it was looked for or from one
behind it. -/
theorem passes_find? (h : p.find? c = some n) :
    ∃ a, c.Reaches a ∧ Passes c.offset p ⟨a, .none⟩ n := by
  rw [find?] at h
  split at h
  · exact ⟨c, .refl c, passes_matchFrom? h⟩
  · exact passes_searchFrom? h

/-! ### What groups take on a passage -/

/-- Groups that a passage goes through lie within it. -/
structure Grows (m n : PatternMatch) : Prop where
  reaches : m.stop.Reaches n.stop
  captures : ∀ i, (n.captures.starts.lookup i = m.captures.starts.lookup i
      ∧ n.captures.stops.lookup i = m.captures.stops.lookup i)
    ∨ ∃ a b, n.captures.starts.lookup i = some a ∧ n.captures.stops.lookup i = some b
      ∧ m.stop.Reaches a ∧ a.Reaches b ∧ b.Reaches n.stop

namespace Grows

variable {m k : PatternMatch}

lemma refl (m : PatternMatch) : Grows m m := ⟨.refl _, fun _ => Or.inl ⟨rfl, rfl⟩⟩

lemma trans (h : Grows m k) (h' : Grows k n) : Grows m n := by
  refine ⟨h.reaches.trans h'.reaches, fun i => ?_⟩
  rcases h'.captures i with ⟨hstart, hstop⟩ | ⟨a, b, hstart, hstop, ha, hab, hb⟩
  · rw [hstart, hstop]
    refine (h.captures i).imp id ?_
    rintro ⟨a, b, hstart, hstop, ha, hab, hb⟩
    exact ⟨a, b, hstart, hstop, ha, hab, hb.trans h'.reaches⟩
  · exact Or.inr ⟨a, b, hstart, hstop, h.reaches.trans ha, hab, hb⟩

/-- A group around a passage has begun before it and ended behind it. -/
lemma group {i : ℕ} (h : Grows (m.opened i) n) : Grows m (n.closed i) := by
  refine ⟨h.reaches, fun j => ?_⟩
  by_cases hj : j = i
  · -- this group ends here, and it began at `m` unless it began anew on the passage
    subst hj
    have hstop : (n.closed j).captures.stops.lookup j = some n.stop := List.lookup_cons_self
    rcases h.captures j with ⟨hstart, -⟩ | ⟨a, b, hstart, -, ha, hab, hb⟩
    · have hhere : n.captures.starts.lookup j = some m.stop := hstart.trans List.lookup_cons_self
      exact Or.inr ⟨m.stop, n.stop, hhere, hstop, .refl _, h.reaches, .refl _⟩
    · exact Or.inr ⟨a, n.stop, hstart, hstop, ha, hab.trans hb, .refl _⟩
  · -- the other groups are left as they are
    have hother : ∀ (c : Cursor) entries, List.lookup j ((i, c) :: entries) = entries.lookup j :=
      fun c entries => by rw [List.lookup_cons, beq_eq_false_iff_ne.mpr hj]
    have hstart : (n.closed i).captures.starts.lookup j = n.captures.starts.lookup j := rfl
    have hstop : (n.closed i).captures.stops.lookup j = n.captures.stops.lookup j := hother _ _
    have hopened : (m.opened i).captures.starts.lookup j = m.captures.starts.lookup j := hother _ _
    have hcaptures := h.captures j
    rwa [hopened, ← hstart, ← hstop] at hcaptures

end Grows

/-- On a passage groups begin and end within it. -/
lemma Passes.grows {m : PatternMatch} (h : Passes origin p m n) : Grows m n := by
  induction h with
  | empty | atStart | atEnd | optNone | starNil => exact .refl _
  | @one set m n h =>
      obtain ⟨x, rest, hrest, -, rfl⟩ := PatternMatch.mem_take.mp h
      exact ⟨.past hrest, fun _ => Or.inl ⟨rfl, rfl⟩⟩
  | cat _ _ ihp ihq => exact ihp.trans ihq
  | altLeft _ ih | altRight _ ih | optSome _ ih => exact ih
  | starSnoc _ _ ihs ihp | plus _ _ ihs ihp => exact ihs.trans ihp
  | group _ ih => exact ih.group

end Pattern

end ShellSyntax
