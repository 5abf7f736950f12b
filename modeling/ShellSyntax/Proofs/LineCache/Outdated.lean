import Mathlib.Data.List.Basic
import Mathlib.Tactic.Common
import ShellSyntax.Proofs.LineCache.Refresh

/-!
Caches of which some lines were tokenized in an earlier definition of the language.

* `LineCache.Chained`: what is kept of lines that were tokenized one after the other, each from the
  state in which the one above it ends, and in a given language unless the line is outdated;
* `LineCache.Chained.redefine`: in another language, all lines that have text are outdated;
* `LineCache.PassedOver`: the lines that a look at a document need not look at again, by the
  reports. `LineCache.Chained.update`, `LineCache.Chained.refresh`: bringing a cache up to date
  leaves no other lines outdated;
* `LineCache.Chained.eq_known`: where no line is outdated, the lines are what tokenizing from
  scratch finds.
-/

namespace ShellSyntax

namespace LineCache

variable {l : Language}

/-! ### Lines in the order of a text -/

/-- What is kept of lines that were tokenized from a state on, each line from where the one above it
ends, in a language or, if the line is outdated, in any. -/
def Chained (l : Language) : (ℕ → Prop) → LineState → List Text → List CachedLine → Prop
  | _, _, [], [] => True
  | outdated, s, line :: lines, o :: rest =>
    (∃ l' : Language, o = .ofTokens (l'.tokenizeLine line s) ∧ (l' = l ∨ outdated 0))
      ∧ Chained l (fun i => outdated (i + 1)) o.endState lines rest
  | _, _, _, _ => False

namespace Chained

variable {p q : ℕ → Prop} {s : LineState} {base lines : List Text} {old : List CachedLine}

lemma length_eq (h : Chained l p s base old) : old.length = base.length := by
  induction base generalizing p s old with
  | nil =>
      cases old with
      | nil => rfl
      | cons o rest => exact absurd h id
  | cons line base ih =>
      cases old with
      | nil => exact absurd h id
      | cons o rest => exact congrArg (· + 1) (ih h.2)

lemma mono (h : Chained l p s base old) (hpq : ∀ i < base.length, p i → q i) :
    Chained l q s base old := by
  induction base generalizing p q s old with
  | nil =>
      cases old with
      | nil => trivial
      | cons o rest => exact absurd h id
  | cons line base ih =>
      cases old with
      | nil => exact absurd h id
      | cons o rest =>
          obtain ⟨⟨l', ho, hl'⟩, hrest⟩ := h
          refine ⟨⟨l', ho, hl'.imp_right (hpq 0 (Nat.succ_pos _))⟩, ih hrest fun i hi => ?_⟩
          exact hpq (i + 1) (Nat.succ_lt_succ hi)

/-- In a language of another definition, the lines that have text are outdated. -/
lemma redefine (h : Chained l p s base old) (l' : Language) :
    Chained l' (fun i => base[i]? ≠ some []) s base old := by
  induction base generalizing p s old with
  | nil =>
      cases old with
      | nil => trivial
      | cons o rest => exact absurd h id
  | cons line base ih =>
      cases old with
      | nil => exact absurd h id
      | cons o rest =>
          obtain ⟨⟨l'', ho, -⟩, hrest⟩ := h
          refine ⟨?_, ih hrest⟩
          by_cases hline : line = []
          · -- a line without text has no tokens and leaves the state as it is
            subst hline
            exact ⟨l', ho, .inl rfl⟩
          · exact ⟨l'', ho, .inr fun h0 => hline (Option.some.inj h0)⟩

/-- The state behind the lines of a cache, if they begin in a state. -/
def endState (s : LineState) (old : List CachedLine) : LineState :=
  old.getLast?.elim s (·.endState)

lemma endState_cons (s : LineState) (o : CachedLine) (old : List CachedLine) :
    endState s (o :: old) = endState o.endState old := by
  rw [endState, endState, List.getLast?_cons]
  cases old.getLast? <;> rfl

lemma take (h : Chained l p s base old) (k : ℕ) :
    Chained l p s (base.take k) (old.take k) := by
  induction k generalizing p s base old with
  | zero =>
      rw [List.take_zero, List.take_zero]
      trivial
  | succ k ih =>
      match base, old, h with
      | [], [], _ => trivial
      | line :: base, o :: rest, h => exact ⟨h.1, ih h.2⟩

lemma drop (h : Chained l p s base old) (k : ℕ) :
    Chained l (fun i => p (i + k)) (endState s (old.take k)) (base.drop k) (old.drop k) := by
  induction k generalizing p s base old with
  | zero => exact h
  | succ k ih =>
      match base, old, h with
      | [], [], _ => trivial
      | line :: base, o :: rest, h =>
          rw [List.take_succ_cons, endState_cons]
          exact ih h.2

lemma append {more : List Text} {old' : List CachedLine} (h : Chained l p s base old)
    (h' : Chained l (fun i => p (i + base.length)) (endState s old) more old') :
    Chained l p s (base ++ more) (old ++ old') := by
  induction base generalizing p s old with
  | nil =>
      cases old with
      | nil => exact h'
      | cons o rest => exact absurd h id
  | cons line base ih =>
      cases old with
      | nil => exact absurd h id
      | cons o rest =>
          rw [endState_cons] at h'
          refine ⟨h.1, ih h.2 (h'.mono fun i _ hi => ?_)⟩
          rwa [List.length_cons, ← Nat.add_assoc] at hi

lemma known (l : Language) (p : ℕ → Prop) (s : LineState) (lines : List Text) :
    Chained l p s lines (known l lines s) := by
  induction lines generalizing p s with
  | nil => trivial
  | cons line lines ih =>
      rw [known_cons]
      exact ⟨⟨l, rfl, .inl rfl⟩, ih _ _⟩

/-- Where no line is outdated, the lines are what tokenizing from scratch finds. -/
lemma eq_known (h : Chained l p s base old) (hp : ∀ i < base.length, ¬p i) :
    old = LineCache.known l base s := by
  induction base generalizing p s old with
  | nil =>
      cases old with
      | nil => rfl
      | cons o rest => exact absurd h id
  | cons line base ih =>
      cases old with
      | nil => exact absurd h id
      | cons o rest =>
          obtain ⟨⟨l', rfl, hl'⟩, hrest⟩ := h
          obtain rfl := hl'.resolve_right (hp 0 (Nat.succ_pos _))
          rw [known_cons, ih hrest fun i hi => hp (i + 1) (Nat.succ_lt_succ hi)]
          rfl

/-! ### Bringing up to date -/

/-- Lines are looked at from any state on, as long as a later line was forgotten. Of the lines
behind all forgotten ones, those stay outdated that were. -/
lemma update (edited : ℕ → Prop) [DecidablePred edited] (h : Chained l p s base old)
    (hlen : lines.length = base.length)
    (hedited : ∀ i, lines[i]? ≠ base[i]? → ∃ d, edited d ∧ i ≤ d ∧ d < base.length)
    (s' : LineState) :
    Chained l (fun i => p i ∧ 0 < i ∧ ∀ d, edited d → d < base.length → d < i) s' lines
      (LineCache.update l s' lines (forgetting edited old)) := by
  induction base generalizing p s old lines edited s' with
  | nil =>
      obtain rfl := List.length_eq_zero_iff.mp hlen
      cases old with
      | nil => trivial
      | cons o rest => exact absurd h id
  | cons line' base ih =>
      obtain ⟨line, lines, rfl⟩ := List.exists_cons_of_length_eq_add_one hlen
      cases old with
      | nil => exact absurd h id
      | cons o rest =>
          have hlen' : lines.length = base.length := Nat.succ.inj hlen
          have hlater : ∀ i, lines[i]? ≠ base[i]? →
              ∃ d, edited (d + 1) ∧ i ≤ d ∧ d < base.length := by
            intro i hi
            obtain ⟨d, hd, hid, hlt⟩ := hedited (i + 1) (by simpa using hi)
            obtain ⟨d, rfl⟩ := Nat.exists_eq_add_of_lt (Nat.lt_of_lt_of_le (Nat.succ_pos i) hid)
            rw [List.length_cons] at hlt
            exact ⟨d, by simpa using hd, by omega, by omega⟩
          have hend : (if edited 0 then { o with tokens := none } else o).endState
              = o.endState := by split <;> rfl
          rw [forgetting_cons, LineCache.update, hend]
          refine ⟨⟨l, rfl, .inl rfl⟩, ?_⟩
          show Chained l _ (l.tokenizeLine line s').endState lines (ite _ _ _)
          -- what is forgotten later on is forgotten of this line's successors
          have hsucc : ∀ i, (∀ d, edited (d + 1) → d < base.length → d < i) →
              ∀ d, edited d → d < (line' :: base).length → d < i + 1 := by
            intro i hi d hd hlt
            cases d with
            | zero => exact Nat.succ_pos i
            | succ d => exact Nat.succ_lt_succ (hi d hd (Nat.lt_of_succ_lt_succ hlt))
          split
          · rename_i hstop
            -- nothing is forgotten later on, so the later lines are what they were
            have hno : ∀ i < rest.length, ¬edited (i + 1) :=
              not_edited_of_isSome (List.all_eq_true.mp hstop.2)
            have hlength := h.2.length_eq
            have hsame : lines = base := by
              refine List.ext_getElem? fun i => ?_
              by_contra hi
              obtain ⟨d, hd, -, hlt⟩ := hlater i hi
              exact hno d (by omega) hd
            rw [forgetting_eq_self hno, hsame, hstop.1]
            refine h.2.mono fun i _ hp => ⟨hp, Nat.succ_pos i, hsucc i fun d hd hlt => ?_⟩
            exact absurd hd (hno d (by omega))
          · refine (ih (fun i => edited (i + 1)) h.2 hlen' hlater _).mono fun i _ hi => ?_
            exact ⟨hi.1, Nat.succ_pos i, hsucc i hi.2.2⟩

end Chained

/-- A look at `count` lines, of which there were `before`, passes over a line that stands above all
reported lines, or, if the number of lines is what it was, below them all. -/
def PassedOver (ds : List ℕ) (before count i : ℕ) : Prop :=
  (∀ d ∈ ds, i < d) ∨ (count = before ∧ ∀ d ∈ ds, d < count → d < i)

instance (ds : List ℕ) (before count : ℕ) : DecidablePred (PassedOver ds before count) :=
  fun _ => inferInstanceAs (Decidable (_ ∨ _))

/-- What is forgotten behind some lines, counted from there on. -/
lemma forgetting_drop (edited : ℕ → Prop) [DecidablePred edited] (old : List CachedLine) (k : ℕ) :
    (forgetting edited old).drop k = forgetting (fun i => edited (i + k)) (old.drop k) := by
  refine List.ext_getElem? fun i => ?_
  simp only [forgetting, List.getElem?_drop, List.getElem?_mapIdx, Nat.add_comm k i]

/-- If the number of lines has changed, nothing is known of the lines behind the settled ones. -/
lemma drop_fit_of_ne {c : LineCache} {count : ℕ} (hne : c.lines.length ≠ count)
    (hsettled : c.settled ≤ c.lines.length) :
    (c.fit count).lines.drop (min c.settled count)
      = List.replicate (count - min c.settled count) .unknown := by
  have hkept : (c.lines.take (min c.settled count)).length = min c.settled count := by
    rw [List.length_take]
    omega
  rw [fit, if_neg hne]
  exact List.drop_left' hkept

/-- Behind the settled lines of a cache, lines are looked at from any state on, as far as they are
not passed over. -/
lemma Chained.resume {p : ℕ → Prop} {base lines : List Text} {old : List CachedLine}
    (h : Chained l p .root base old) {language : Option String} {ds : List ℕ}
    (hreport : Reported ds base lines) {c : LineCache}
    (hc : c = (⟨language, old, base.length⟩ : LineCache).invalidateEach ds) {k : ℕ}
    (hk : k = min c.settled lines.length) :
    Chained l (fun i => p (i + k) ∧ PassedOver ds base.length lines.length (i + k))
      (Chained.endState .root (old.take k)) (lines.drop k)
      (LineCache.update l (Chained.endState .root (old.take k)) (lines.drop k)
        ((c.fit lines.length).lines.drop k)) := by
  have hlines : c.lines = forgetting (· ∈ ds) old := by
    rw [hc]
    exact lines_invalidateEach _ _
  have hsettled : c.settled ≤ base.length := by
    rw [hc]
    exact settled_invalidateEach_le _ _
  have hlength := h.length_eq
  have hcount : c.lines.length = base.length := by rw [hlines, length_forgetting, hlength]
  have hkds : ∀ d ∈ ds, k ≤ d := fun d hd => by
    have hle : c.settled ≤ d := by
      rw [hc]
      exact settled_invalidateEach_le_of_mem _ hd
    omega
  by_cases hlen : c.lines.length = lines.length
  · have hdropped : (lines.drop k).length = (base.drop k).length := by
      rw [List.length_drop, List.length_drop]
      omega
    rw [fit, if_pos hlen, hlines, forgetting_drop]
    refine ((h.drop k).update (fun i => i + k ∈ ds) hdropped (fun i hi => ?_) _).mono
      fun i _ hi => ⟨hi.1, .inr ⟨by omega, fun d hd hlt => ?_⟩⟩
    · -- a line that has changed has a reported one below
      rw [List.getElem?_drop, List.getElem?_drop] at hi
      obtain ⟨d, hd, hid, hlt⟩ := hreport.below (by omega) (k + i) hi
      refine ⟨d - k, by rwa [Nat.sub_add_cancel (by omega)], by omega, ?_⟩
      rw [List.length_drop]
      omega
    · have hkd := hkds d hd
      have hlt' := hi.2.2 (d - k) (by rwa [Nat.sub_add_cancel hkd]) (by
        rw [List.length_drop]
        omega)
      omega
  · -- the lines are tokenized anew
    rw [hk, drop_fit_of_ne hlen (hcount ▸ hsettled), ← List.length_drop,
      update_eq_known l (resumable_replicate l _)]
    exact Chained.known l _ _ _

/-- **A look at a document leaves only such lines outdated that it passes over.** -/
theorem Chained.refresh {p : ℕ → Prop} {base lines : List Text} {old : List CachedLine}
    (h : Chained l p .root base old) (language : Option String) {ds : List ℕ}
    (hreport : Reported ds base lines) :
    ∃ new, ((⟨language, old, base.length⟩ : LineCache).invalidateEach ds).refresh l lines
        = ⟨language, new, lines.length⟩
      ∧ Chained l (fun i => p i ∧ PassedOver ds base.length lines.length i) .root lines new := by
  set c := (⟨language, old, base.length⟩ : LineCache).invalidateEach ds with hc
  have hlines : c.lines = forgetting (· ∈ ds) old := lines_invalidateEach _ _
  have hsettled : c.settled ≤ base.length := settled_invalidateEach_le _ _
  have hlanguage : c.language = language := language_invalidateEach _ _
  have hlength := h.length_eq
  have hcount : c.lines.length = base.length := by rw [hlines, length_forgetting, hlength]
  obtain ⟨htake, hmin⟩ := c.fit_take (by omega) lines.length
  have hresume := h.resume hreport hc rfl
  set k := min c.settled lines.length with hk
  have hkds : ∀ d ∈ ds, k ≤ d := fun d hd =>
    Nat.le_trans (Nat.min_le_left _ _) (settled_invalidateEach_le_of_mem _ hd)
  -- the lines that are kept are those of the new text
  have hkept : c.lines.take k = old.take k := by
    rw [hlines, take_forgetting, forgetting_eq_self]
    intro i hi hmem
    have := hkds i hmem
    rw [List.length_take] at hi
    omega
  have htext : lines.take k = base.take k :=
    hreport.take_eq (Nat.min_le_right _ _) (by omega) hkds
  have habove : Chained l (fun i => p i ∧ PassedOver ds base.length lines.length i) .root
      (lines.take k) (old.take k) := by
    rw [htext]
    refine (h.take k).mono fun i hi hp => ⟨hp, .inl fun d hd => ?_⟩
    have := hkds d hd
    rw [List.length_take] at hi
    omega
  -- below them the lines go on from the state that they leave behind
  have htaken : (lines.take k).length = k := by
    rw [List.length_take]
    omega
  have hwhole := habove.append (by rw [htaken]; exact hresume)
  rw [List.take_append_drop] at hwhole
  refine ⟨_, ?_, hwhole⟩
  rw [LineCache.refresh]
  simp only [hmin, htake, hkept, language_fit, hlanguage]
  rfl

end LineCache

end ShellSyntax
