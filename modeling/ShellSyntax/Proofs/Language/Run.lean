import Mathlib.Data.List.Basic
import Mathlib.Tactic.Common
import ShellSyntax.Language.Tokens
import ShellSyntax.Proofs.Rule.Match

/-!
The run of the tokenizer over a line.

* `Language.firstMatch?_eq_some`: the match that is found is one of a rule of the current state that
  stands under the tag;
* `Language.reaches_step`, `Language.lt_step`: a step gets on in the line;
* `Language.Visit`, `Language.visits`: the places where the tokenizer looks for a match, each with
  the state it is in there;
* `Language.tokens_tokenizeFrom`: the tokens of a line are those found at the visits, one visit
  after the other;
* `Language.reaches_visitsFrom`: visits are paid to places of the line with text behind them;
* `Language.stops`: the places of the visits, and the place where the tokenizer ends, with the state
  that the line leaves.
-/

namespace ShellSyntax

namespace Language

variable {l : Language} {s : LineState} {c : Cursor} {x : Char} {rest : Text} {r : Rule}
  {m : RuleMatch}

/-! ### One step -/

/-- The match that is found is one of a rule of the current state that stands under the tag. -/
lemma firstMatch?_eq_some (h : l.firstMatch? s c = some (r, m)) :
    r ∈ l.rules s.current ∧ r.match? c = some m ∧ r.accepts m s.tag = true := by
  obtain ⟨r', hr', hfound⟩ := List.exists_of_findSome?_eq_some h
  obtain ⟨m', hm', heq⟩ := Option.map_eq_some_iff.mp hfound
  obtain ⟨rfl, rfl⟩ := Prod.mk.inj heq
  rw [Option.filter_eq_some_iff] at hm'
  exact ⟨hr', hm'⟩

/-- A match that stands under the tag is found if no rule before its own matches. -/
lemma firstMatch?_of_rules {before behind : List Rule}
    (hrules : l.rules s.current = before ++ r :: behind)
    (hbefore : ∀ r' ∈ before, r'.match? c = none) (hm : r.match? c = some m)
    (haccepts : r.accepts m s.tag = true) :
    l.firstMatch? s c = some (r, m) := by
  have hnone : before.findSome? (fun r' =>
      ((r'.match? c).filter (r'.accepts · s.tag)).map (r', ·)) = none := by
    refine List.findSome?_eq_none_iff.mpr fun r' hr' => ?_
    rw [hbefore r' hr']
    rfl
  rw [firstMatch?, hrules, List.findSome?_append, hnone, Option.none_or, List.findSome?_cons, hm,
    Option.filter_some, if_pos haccepts]
  rfl

lemma step_of_match (h : l.firstMatch? s c = some (r, m)) (x : Char) (rest : Text) :
    l.step s c x rest = ⟨l.tokensOf r m, stateAfter r m s, m.stop⟩ := by
  rw [step, h]

lemma step_of_none (h : l.firstMatch? s c = none) (x : Char) (rest : Text) :
    l.step s c x rest
      = ⟨[.ofSpan (c.spanTo (c.past x rest)) .plain], s, c.past x rest⟩ := by
  rw [step, h]

/-- Without a tag the state changes as the rule asks for. -/
lemma stateAfter_of_none (h : r.capturedTag m = none) :
    stateAfter r m s = s.apply r.transition := by
  rw [stateAfter, h]
  cases r.transition <;> rfl

/-- A step leads on in the same line. -/
lemma reaches_step (hrest : c.rest = x :: rest) : c.Reaches (l.step s c x rest).next := by
  cases hfound : l.firstMatch? s c with
  | none =>
      rw [step_of_none hfound]
      exact .past hrest
  | some found =>
      rw [step_of_match hfound]
      exact Rule.reaches_match? (firstMatch?_eq_some hfound).2.1

/-- A step takes at least one character. -/
lemma lt_step (s : LineState) (c : Cursor) (x : Char) (rest : Text) :
    c.offset < (l.step s c x rest).next.offset := by
  cases hfound : l.firstMatch? s c with
  | none =>
      have hx := x.utf8Size_pos
      rw [step_of_none hfound]
      show c.offset < c.offset + x.utf8Size
      omega
  | some found =>
      rw [step_of_match hfound]
      exact Rule.lt_match? (firstMatch?_eq_some hfound).2.1

/-- After a step there are fewer characters left. -/
lemma length_step (hrest : c.rest = x :: rest) :
    (l.step s c x rest).next.rest.length < c.rest.length :=
  (reaches_step hrest).length_lt (lt_step s c x rest)

/-! ### All steps -/

/-- A place where the tokenizer looks for a match, and the state it is in there. -/
structure Visit where
  state : LineState
  place : Cursor

/-- The places where the tokenizer looks for a match from a place on, in at most `fuel` steps. -/
def visitsFrom (l : Language) : ℕ → LineState → Cursor → List Visit
  | 0, _, _ => []
  | fuel + 1, s, c =>
    match c.rest with
    | [] => []
    | x :: rest =>
      let found := l.step s c x rest
      ⟨s, c⟩ :: visitsFrom l fuel found.state found.next

/-- The places where the tokenizer looks for a match in a line that begins in a state. -/
def visits (l : Language) (line : Text) (start : LineState) : List Visit :=
  l.visitsFrom line.length start (.start line)

/-- The tokens found at a place where the tokenizer looks for a match. -/
def tokensAt (l : Language) (v : Visit) : List Token :=
  match v.place.rest with
  | [] => []
  | x :: rest => (l.step v.state v.place x rest).tokens

lemma tokenizeFrom_of_nil (fuel : ℕ) (s : LineState) (hrest : c.rest = []) :
    l.tokenizeFrom fuel s c = ⟨[], s⟩ := by
  cases fuel with
  | zero => rfl
  | succ fuel => rw [tokenizeFrom, hrest]

lemma tokenizeFrom_succ (fuel : ℕ) (s : LineState) (hrest : c.rest = x :: rest) :
    l.tokenizeFrom (fuel + 1) s c =
      ⟨(l.step s c x rest).tokens
          ++ (l.tokenizeFrom fuel (l.step s c x rest).state (l.step s c x rest).next).tokens,
        (l.tokenizeFrom fuel (l.step s c x rest).state (l.step s c x rest).next).endState⟩ := by
  rw [tokenizeFrom, hrest]

lemma visitsFrom_of_nil (fuel : ℕ) (s : LineState) (hrest : c.rest = []) :
    l.visitsFrom fuel s c = [] := by
  cases fuel with
  | zero => rfl
  | succ fuel => rw [visitsFrom, hrest]

lemma visitsFrom_succ (fuel : ℕ) (s : LineState) (hrest : c.rest = x :: rest) :
    l.visitsFrom (fuel + 1) s c =
      ⟨s, c⟩ :: l.visitsFrom fuel (l.step s c x rest).state (l.step s c x rest).next := by
  rw [visitsFrom, hrest]

lemma tokensAt_eq {v : Visit} (hrest : v.place.rest = x :: rest) :
    l.tokensAt v = (l.step v.state v.place x rest).tokens := by
  rw [tokensAt, hrest]

/-- The tokens of a line are those found at the visits, one visit after the other. -/
lemma tokens_tokenizeFrom (fuel : ℕ) (s : LineState) (c : Cursor) :
    (l.tokenizeFrom fuel s c).tokens = (l.visitsFrom fuel s c).flatMap l.tokensAt := by
  induction fuel generalizing s c with
  | zero => rfl
  | succ fuel ih =>
      cases hrest : c.rest with
      | nil =>
          rw [tokenizeFrom_of_nil _ s hrest, visitsFrom_of_nil _ s hrest]
          rfl
      | cons x rest =>
          rw [tokenizeFrom_succ fuel s hrest, visitsFrom_succ fuel s hrest, List.flatMap_cons,
            tokensAt_eq hrest, ih]

/-- Visits are paid to places of the line with text behind them. -/
lemma reaches_visitsFrom {fuel : ℕ} {v : Visit} (hv : v ∈ l.visitsFrom fuel s c) :
    c.Reaches v.place ∧ v.place.rest ≠ [] := by
  induction fuel generalizing s c with
  | zero => cases hv
  | succ fuel ih =>
      cases hrest : c.rest with
      | nil =>
          rw [visitsFrom_of_nil _ s hrest] at hv
          cases hv
      | cons x rest =>
          rw [visitsFrom_succ fuel s hrest] at hv
          rcases List.mem_cons.mp hv with rfl | hv
          · exact ⟨.refl c, by rw [hrest]; exact List.cons_ne_nil x rest⟩
          · obtain ⟨hreach, hne⟩ := ih hv
            exact ⟨(reaches_step hrest).trans hreach, hne⟩

/-! ### Stops -/

/-- The places where the tokenizer stops from a place on: where it looks for a match, and where it
ends. -/
def stopsFrom (l : Language) (fuel : ℕ) (s : LineState) (c : Cursor) : List Visit :=
  l.visitsFrom fuel s c ++ [⟨(l.tokenizeFrom fuel s c).endState, c.finish⟩]

/-- The places where the tokenizer stops in a line that begins in a state. -/
def stops (l : Language) (line : Text) (start : LineState) : List Visit :=
  l.stopsFrom line.length start (.start line)

lemma exists_stopsFrom_eq_cons (fuel : ℕ) (s : LineState) (c : Cursor)
    (hfuel : c.rest.length ≤ fuel) : ∃ later, l.stopsFrom fuel s c = ⟨s, c⟩ :: later := by
  cases hrest : c.rest with
  | nil =>
      have hfinish : c.finish = c := by
        cases c
        simp_all [Cursor.finish]
      rw [stopsFrom, visitsFrom_of_nil _ s hrest, tokenizeFrom_of_nil _ s hrest, hfinish]
      exact ⟨[], rfl⟩
  | cons x rest =>
      obtain ⟨fuel, rfl⟩ : ∃ fuel', fuel = fuel' + 1 :=
        Nat.exists_eq_succ_of_ne_zero (by rw [hrest, List.length_cons] at hfuel; omega)
      rw [stopsFrom, visitsFrom_succ fuel s hrest]
      exact ⟨_, rfl⟩

lemma stopsFrom_succ (fuel : ℕ) (s : LineState) (hrest : c.rest = x :: rest) :
    l.stopsFrom (fuel + 1) s c
      = ⟨s, c⟩ :: l.stopsFrom fuel (l.step s c x rest).state (l.step s c x rest).next := by
  rw [stopsFrom, visitsFrom_succ fuel s hrest, tokenizeFrom_succ fuel s hrest,
    (reaches_step (l := l) (s := s) hrest).finish_eq]
  rfl

/-- Behind a visit the tokenizer stops next where its step leads. -/
lemma exists_stopsFrom_eq {fuel : ℕ} (hfuel : c.rest.length ≤ fuel) {v : Visit}
    (hv : v ∈ l.visitsFrom fuel s c) (hrest : v.place.rest = x :: rest) :
    ∃ before after, l.stopsFrom fuel s c
      = before ++ v :: ⟨(l.step v.state v.place x rest).state, (l.step v.state v.place x rest).next⟩
        :: after := by
  induction fuel generalizing s c with
  | zero => cases hv
  | succ fuel ih =>
      cases hcrest : c.rest with
      | nil =>
          rw [visitsFrom_of_nil _ s hcrest] at hv
          cases hv
      | cons y later =>
          have hlater : (l.step s c y later).next.rest.length ≤ fuel := by
            have hlt := length_step (l := l) (s := s) hcrest
            omega
          rw [visitsFrom_succ fuel s hcrest] at hv
          rw [stopsFrom_succ fuel s hcrest]
          rcases List.mem_cons.mp hv with rfl | hv
          · -- the visit is the first one, and the stops behind its step begin with the next
            obtain ⟨rfl, rfl⟩ := List.cons.inj (hcrest.symm.trans hrest)
            obtain ⟨after, hafter⟩ := exists_stopsFrom_eq_cons fuel
              (l.step s c y later).state (l.step s c y later).next hlater
            exact ⟨[], after, congrArg (⟨s, c⟩ :: ·) hafter⟩
          · obtain ⟨before, after, heq⟩ := ih hlater hv
            exact ⟨⟨s, c⟩ :: before, after, congrArg (⟨s, c⟩ :: ·) heq⟩

/-- The tokens of a line are those found at the stops. -/
lemma tokens_tokenizeLine_stops (line : Text) (start : LineState) :
    (l.tokenizeLine line start).tokens = (l.stops line start).flatMap l.tokensAt := by
  rw [stops, stopsFrom, List.flatMap_append, List.flatMap_singleton]
  exact (tokens_tokenizeFrom _ _ _).trans (List.append_nil _).symm

end Language

end ShellSyntax
