import Mathlib.Data.List.Basic
import Mathlib.Tactic.Common
import ShellSyntax.LineCache

/-!
Bringing a cache up to date.

* `Language.endAfter`: the state behind lines. `tokenizeLines_append` goes on with it;
* `LineCache.known`, `LineCache.ofLines`: what is kept of lines that have just been tokenized, and
  the cache of a document that consists of them;
* `LineCache.invalidateEach`: the cache after some lines were reported as edited;
* `LineCache.Resumable`: what makes it safe to stop early: wherever all later lines are known, they
  are what tokenizing from the old end state finds. `update_eq_known` draws the conclusion;
* `LineCache.Reported`: the lines that differ lie within the reported ones, as far as the cache
  depends on it;
* `LineCache.refresh_invalidateEach`: bringing the cache of some lines up to date with others whose
  differences were reported gives the cache of the others. No trace of the old lines is left;
* `LineCache.getElem?_refresh`: where no line leaves a state behind, what is kept of a line below
  all reported ones stays, whatever the line has become.
-/

namespace ShellSyntax

/-! ### The state behind lines -/

namespace Language

variable (l : Language)

/-- The state behind lines, the first of which begins in a state. -/
def endAfter (lines : List Text) (s : LineState) : LineState :=
  lines.foldl (fun s line => (l.tokenizeLine line s).endState) s

@[simp] lemma endAfter_nil (s : LineState) : l.endAfter [] s = s := rfl

@[simp] lemma endAfter_cons (line : Text) (lines : List Text) (s : LineState) :
    l.endAfter (line :: lines) s = l.endAfter lines (l.tokenizeLine line s).endState := rfl

lemma tokenizeLines_append (lines more : List Text) (s : LineState) :
    l.tokenizeLines (lines ++ more) s
      = l.tokenizeLines lines s ++ l.tokenizeLines more (l.endAfter lines s) := by
  induction lines generalizing s with
  | nil => rfl
  | cons line lines ih => simp [tokenizeLines, ih]

@[simp] lemma length_tokenizeLines (lines : List Text) (s : LineState) :
    (l.tokenizeLines lines s).length = lines.length := by
  induction lines generalizing s with
  | nil => rfl
  | cons line lines ih => simp [tokenizeLines, ih]

end Language

namespace LineCache

variable (l : Language)

/-! ### Lines that have just been tokenized -/

/-- What is kept of lines that have been tokenized from a state on. -/
def known (lines : List Text) (s : LineState) : List CachedLine :=
  (l.tokenizeLines lines s).map .ofTokens

@[simp] lemma known_nil (s : LineState) : known l [] s = [] := rfl

@[simp] lemma known_cons (line : Text) (lines : List Text) (s : LineState) :
    known l (line :: lines) s
      = .ofTokens (l.tokenizeLine line s) :: known l lines (l.tokenizeLine line s).endState := rfl

@[simp] lemma length_known (lines : List Text) (s : LineState) :
    (known l lines s).length = lines.length := by
  simp [known]

lemma known_append (lines more : List Text) (s : LineState) :
    known l (lines ++ more) s = known l lines s ++ known l more (l.endAfter lines s) := by
  simp [known, l.tokenizeLines_append]

lemma take_known (k : ℕ) (lines : List Text) (s : LineState) :
    (known l lines s).take k = known l (lines.take k) s := by
  induction lines generalizing k s with
  | nil => simp
  | cons line lines ih => cases k <;> simp [ih]

/-- The last of the known lines leaves the state behind them all. -/
lemma getLast?_known (lines : List Text) (s : LineState) :
    (known l lines s).getLast?.elim s (·.endState) = l.endAfter lines s := by
  induction lines generalizing s with
  | nil => rfl
  | cons line lines ih =>
      rw [known_cons, List.getLast?_cons, Language.endAfter_cons, ← ih]
      cases (known l lines _).getLast? <;> rfl

/-- The cache of a document that has just been looked at. -/
def ofLines (language : Option String) (lines : List Text) : LineCache :=
  ⟨language, known l lines .root, lines.length⟩

/-- Its tokens are those of tokenizing from scratch. -/
lemma tokens_ofLines (language : Option String) (lines : List Text) :
    (ofLines l language lines).tokens = (l.tokenizeLines lines .root).map (·.tokens) := by
  simp [tokens, ofLines, known, CachedLine.ofTokens, Function.comp_def]

/-- So are its end states, and it has no others. -/
lemma lineState?_ofLines (language : Option String) (lines : List Text) (i : ℕ) :
    (ofLines l language lines).lineState? i
      = (l.tokenizeLines lines .root)[i]?.map (·.endState) := by
  rw [lineState?, ofLines]
  split
  · simp [known, CachedLine.ofTokens, Function.comp_def]
  · rename_i hi
    rw [List.getElem?_eq_none (by simpa using hi)]
    rfl

/-! ### Reports of edited lines -/

/-- The cache after lines were reported as edited, the latest report first. -/
def invalidateEach (c : LineCache) : List ℕ → LineCache
  | [] => c
  | d :: ds => (c.invalidateEach ds).invalidateFrom d

/-- The lines without the tokens of those in `edited`. -/
def forgetting (edited : ℕ → Prop) [DecidablePred edited] (lines : List CachedLine) :
    List CachedLine :=
  lines.mapIdx fun i line => if edited i then { line with tokens := none } else line

lemma forgetting_cons (edited : ℕ → Prop) [DecidablePred edited] (line : CachedLine)
    (lines : List CachedLine) :
    forgetting edited (line :: lines)
      = (if edited 0 then { line with tokens := none } else line)
        :: forgetting (fun i => edited (i + 1)) lines := by
  rw [forgetting, List.mapIdx_cons]
  rfl

@[simp] lemma length_forgetting (edited : ℕ → Prop) [DecidablePred edited]
    (lines : List CachedLine) : (forgetting edited lines).length = lines.length := by
  simp [forgetting]

lemma getElem?_forgetting {edited : ℕ → Prop} [DecidablePred edited] {lines : List CachedLine}
    {i : ℕ} (hi : i < lines.length → ¬edited i) : (forgetting edited lines)[i]? = lines[i]? := by
  rw [forgetting, List.getElem?_mapIdx]
  by_cases hlt : i < lines.length
  · rw [List.getElem?_eq_getElem hlt, Option.map_some, if_neg (hi hlt)]
  · rw [List.getElem?_eq_none (by omega)]
    rfl

lemma forgetting_eq_self {edited : ℕ → Prop} [DecidablePred edited] {lines : List CachedLine}
    (h : ∀ i < lines.length, ¬edited i) : forgetting edited lines = lines :=
  List.ext_getElem? fun i => getElem?_forgetting (h i)

/-- Forgetting tokens changes no end state. -/
lemma endState_of_mem_forgetting {edited : ℕ → Prop} [DecidablePred edited]
    {lines : List CachedLine} {o : CachedLine} (ho : o ∈ forgetting edited lines) :
    ∃ o' ∈ lines, o.endState = o'.endState := by
  rw [forgetting, List.mem_mapIdx] at ho
  obtain ⟨i, hi, rfl⟩ := ho
  refine ⟨lines[i], List.getElem_mem hi, ?_⟩
  split <;> rfl

lemma take_forgetting (k : ℕ) (edited : ℕ → Prop) [DecidablePred edited]
    (lines : List CachedLine) :
    (forgetting edited lines).take k = forgetting edited (lines.take k) := by
  refine List.ext_getElem? fun i => ?_
  simp only [forgetting, List.getElem?_take, List.getElem?_mapIdx]
  split <;> rfl

/-- Where all tokens are there, none were forgotten. -/
lemma not_edited_of_isSome {edited : ℕ → Prop} [DecidablePred edited] {lines : List CachedLine}
    (h : ∀ r ∈ forgetting edited lines, r.tokens.isSome) : ∀ i < lines.length, ¬edited i := by
  induction lines generalizing edited with
  | nil => simp
  | cons line lines ih =>
      rw [forgetting_cons] at h
      intro i hi
      cases i with
      | zero =>
          intro h0
          have hnone := h _ List.mem_cons_self
          rw [if_pos h0] at hnone
          simp at hnone
      | succ i => exact ih (fun r hr => h r (List.mem_cons_of_mem _ hr)) i (by simpa using hi)

@[simp] lemma language_invalidateEach (c : LineCache) (ds : List ℕ) :
    (c.invalidateEach ds).language = c.language := by
  induction ds with
  | nil => rfl
  | cons d ds ih => rw [← ih]; rfl

lemma lines_invalidateEach (c : LineCache) (ds : List ℕ) :
    (c.invalidateEach ds).lines = forgetting (· ∈ ds) c.lines := by
  induction ds with
  | nil =>
      refine List.ext_getElem? fun i => ?_
      simp [invalidateEach, forgetting]
  | cons d ds ih =>
      refine List.ext_getElem? fun i => ?_
      rw [invalidateEach, invalidateFrom, ih]
      simp only [forgetting, List.getElem?_modify, List.getElem?_mapIdx, List.mem_cons]
      cases c.lines[i]? with
      | none => simp
      | some line =>
          by_cases hd : d = i
          · by_cases hi : i ∈ ds <;> simp [hd, hi]
          · simp [hd, Ne.symm hd]

/-- Reports only unsettle lines. -/
lemma settled_invalidateEach_le (c : LineCache) (ds : List ℕ) :
    (c.invalidateEach ds).settled ≤ c.settled := by
  induction ds with
  | nil => exact Nat.le_refl _
  | cons d ds ih => exact Nat.le_trans (Nat.min_le_left _ _) ih

/-- No reported line is settled. -/
lemma settled_invalidateEach_le_of_mem (c : LineCache) {ds : List ℕ} {d : ℕ} (hd : d ∈ ds) :
    (c.invalidateEach ds).settled ≤ d := by
  induction ds with
  | nil => cases hd
  | cons e ds ih =>
      rcases List.mem_cons.mp hd with rfl | hd
      · exact Nat.min_le_right _ _
      · exact Nat.le_trans (Nat.min_le_left _ _) (ih hd)

/-! ### Stopping early -/

/-- Wherever all later lines are known, they are what tokenizing from the old end state finds. -/
def Resumable : List Text → List CachedLine → Prop
  | [], [] => True
  | _ :: lines, old :: rest =>
    ((∀ r ∈ rest, r.tokens.isSome) → rest = known l lines old.endState) ∧ Resumable lines rest
  | _, _ => False

/-- From any state on, the tokens of lines whose old ones can be resumed are found. -/
lemma update_eq_known {lines : List Text} {old : List CachedLine} (h : Resumable l lines old)
    (s : LineState) : update l s lines old = known l lines s := by
  induction lines generalizing old s with
  | nil =>
      cases old with
      | nil => rfl
      | cons o rest => exact absurd h id
  | cons line lines ih =>
      cases old with
      | nil => exact absurd h id
      | cons o rest =>
          obtain ⟨hstop, hrest⟩ := h
          rw [update, known_cons]
          congr 1
          split
          · rename_i hc
            rw [hc.1]
            exact hstop (List.all_eq_true.mp hc.2)
          · exact ih hrest _

lemma Resumable.drop {lines : List Text} {old : List CachedLine} (h : Resumable l lines old)
    (k : ℕ) : Resumable l (lines.drop k) (old.drop k) := by
  induction k generalizing lines old with
  | zero => simpa using h
  | succ k ih =>
      match lines, old, h with
      | [], [], h =>
          rw [List.drop_nil, List.drop_nil]
          exact h
      | _ :: lines, _ :: rest, h => simpa using ih h.2

/-- Lines of which nothing is known give no reason to stop. -/
lemma resumable_replicate (lines : List Text) :
    Resumable l lines (List.replicate lines.length .unknown) := by
  induction lines with
  | nil => trivial
  | cons line lines ih =>
      refine ⟨fun h => ?_, ih⟩
      cases lines with
      | nil => rfl
      | cons next lines =>
          exact absurd (h .unknown (by simp [List.replicate_succ])) (by simp [CachedLine.unknown])

/-- Known lines, less the tokens of some, can be resumed with lines that differ from them only
above a forgotten line, or at one: where no forgotten line follows, the lines are the same. -/
lemma resumable_forgetting {base lines : List Text} (edited : ℕ → Prop) [DecidablePred edited]
    (hlen : lines.length = base.length)
    (h : ∀ i, lines[i]? ≠ base[i]? → ∃ d, edited d ∧ i ≤ d ∧ d < base.length) (s : LineState) :
    Resumable l lines (forgetting edited (known l base s)) := by
  induction base generalizing lines edited s with
  | nil =>
      rw [List.length_eq_zero_iff.mp hlen]
      trivial
  | cons old base ih =>
      obtain ⟨line, lines, rfl⟩ := List.exists_cons_of_length_eq_add_one hlen
      have hlen' : lines.length = base.length := by simpa using hlen
      have hlater : ∀ i, lines[i]? ≠ base[i]? → ∃ d, edited (d + 1) ∧ i ≤ d ∧ d < base.length := by
        intro i hi
        obtain ⟨d, hd, hid, hdl⟩ := h (i + 1) (by simpa using hi)
        obtain ⟨d, rfl⟩ := Nat.exists_eq_add_of_lt (Nat.lt_of_lt_of_le (Nat.succ_pos i) hid)
        simp only [List.length_cons] at hdl
        exact ⟨d, by simpa using hd, by omega, by omega⟩
      rw [known_cons, forgetting_cons]
      refine ⟨fun hall => ?_, ih _ hlen' hlater _⟩
      -- no forgotten line follows, so neither does a difference
      have hno := not_edited_of_isSome hall
      have hsame : lines = base := by
        refine List.ext_getElem? fun i => ?_
        by_contra hi
        obtain ⟨d, hd, -, hlt⟩ := hlater i hi
        exact hno d (by simpa using hlt) hd
      rw [forgetting_eq_self hno, hsame]
      split <;> rfl

/-! ### Bringing up to date -/

/-- The reports `ds` cover what differs between the lines a cache has seen and the lines there are
now. Reported lines stand above each difference. If the number of lines is the same, so that
lines are taken for what they were, reported lines also stand below it. -/
structure Reported (ds : List ℕ) (base lines : List Text) : Prop where
  above : ∀ i, i < lines.length → i < base.length → lines[i]? ≠ base[i]? → ∃ d ∈ ds, d ≤ i
  below : lines.length = base.length →
    ∀ i, lines[i]? ≠ base[i]? → ∃ d ∈ ds, i ≤ d ∧ d < lines.length

/-- Lines above all reported ones are what they were. -/
lemma Reported.take_eq {ds : List ℕ} {base lines : List Text} (h : Reported ds base lines)
    {k : ℕ} (hl : k ≤ lines.length) (hb : k ≤ base.length) (hds : ∀ d ∈ ds, k ≤ d) :
    lines.take k = base.take k := by
  refine List.ext_getElem? fun i => ?_
  rw [List.getElem?_take, List.getElem?_take]
  split
  · rename_i hi
    by_contra hne
    obtain ⟨d, hd, hdi⟩ := h.above i (by omega) (by omega) hne
    exact absurd (hds d hd) (by omega)
  · rfl

@[simp] lemma language_fit (c : LineCache) (count : ℕ) : (c.fit count).language = c.language := by
  rw [fit]
  split <;> rfl

@[simp] lemma language_refresh (c : LineCache) (lines : List Text) :
    (c.refresh l lines).language = c.language := c.language_fit lines.length

/-- Fitting a cache to a number of lines leaves the settled lines of that number alone. -/
lemma fit_take (c : LineCache) (hc : c.settled ≤ c.lines.length) (count : ℕ) :
    (c.fit count).lines.take (min c.settled count) = c.lines.take (min c.settled count)
      ∧ min (c.fit count).settled count = min c.settled count := by
  rw [fit]
  split
  · exact ⟨rfl, rfl⟩
  · refine ⟨?_, by simp⟩
    rw [List.take_append_of_le_length (by simp; omega), List.take_take, Nat.min_self]

/-- Behind the settled lines of a cache that was fitted to a text whose differences were reported,
tokenizing can be resumed. -/
lemma resumable_fit (language : Option String) {base lines : List Text} {ds : List ℕ}
    (h : Reported ds base lines) (c : LineCache)
    (hc : c = (ofLines l language base).invalidateEach ds) :
    Resumable l (lines.drop (min c.settled lines.length))
      ((c.fit lines.length).lines.drop (min c.settled lines.length)) := by
  have hlines : c.lines = forgetting (· ∈ ds) (known l base .root) := by
    rw [hc]; exact lines_invalidateEach _ _
  have hsettled : c.settled ≤ base.length := by
    rw [hc]; exact settled_invalidateEach_le _ _
  rw [fit]
  split
  · rename_i hlen
    have hlen' : lines.length = base.length := by rw [← hlen, hlines]; simp
    rw [hlines]
    refine (resumable_forgetting l _ hlen' (fun i hi => ?_) .root).drop l _
    obtain ⟨d, hd, hid, hdl⟩ := h.below hlen' i hi
    exact ⟨d, hd, hid, hlen' ▸ hdl⟩
  · have hk : (c.lines.take (min c.settled lines.length)).length = min c.settled lines.length := by
      rw [List.length_take, hlines]
      simp
      omega
    have hdrop : (c.lines.take (min c.settled lines.length)
        ++ List.replicate (lines.length - min c.settled lines.length) CachedLine.unknown).drop
          (min c.settled lines.length)
        = List.replicate (lines.drop (min c.settled lines.length)).length .unknown := by
      rw [List.drop_left' hk, List.length_drop]
    rw [hdrop]
    exact resumable_replicate l _

/-- The cache of `base` whose differences from `lines` were reported becomes the cache of
`lines`. -/
theorem refresh_invalidateEach (language : Option String) {base lines : List Text} {ds : List ℕ}
    (h : Reported ds base lines) :
    ((ofLines l language base).invalidateEach ds).refresh l lines = ofLines l language lines := by
  set c := (ofLines l language base).invalidateEach ds with hc
  have hlines : c.lines = forgetting (· ∈ ds) (known l base .root) := lines_invalidateEach _ _
  have hsettled : c.settled ≤ base.length := settled_invalidateEach_le _ _
  obtain ⟨htake, hmin⟩ := c.fit_take (by rw [hlines]; simpa using hsettled) lines.length
  have hresume := resumable_fit l language h c hc
  set k := min c.settled lines.length with hk
  have hkds : ∀ d ∈ ds, k ≤ d := fun d hd =>
    Nat.le_trans (Nat.min_le_left _ _) (settled_invalidateEach_le_of_mem _ hd)
  -- the lines that are kept are those of the new text
  have hkept : c.lines.take k = known l (lines.take k) .root := by
    rw [hlines, take_forgetting, forgetting_eq_self, take_known,
      h.take_eq (Nat.min_le_right _ _) (by omega) hkds]
    intro i hi hmem
    have := hkds i hmem
    rw [List.length_take] at hi
    omega
  have hlanguage : c.language = language := language_invalidateEach _ _
  rw [refresh]
  simp only [hmin, htake, hkept, getLast?_known, update_eq_known l hresume]
  rw [← known_append, List.take_append_drop, ofLines, language_fit, hlanguage]

/-! ### Lines that are passed over -/

section Stateless

variable {l} (hl : ∀ line, (l.tokenizeLine line .root).endState = .root)

include hl

lemma endState_known (lines : List Text) : ∀ o ∈ known l lines .root, o.endState = .root := by
  induction lines with
  | nil => simp
  | cons line lines ih =>
      intro o ho
      rw [known_cons, hl] at ho
      rcases List.mem_cons.mp ho with rfl | ho
      · exact hl line
      · exact ih o ho

/-- Where no line leaves a state behind, lines are passed over as soon as all later ones are
known. -/
lemma getElem?_update {lines : List Text} {old : List CachedLine}
    (hold : ∀ o ∈ old, o.endState = .root) {i : ℕ} (hi : 0 < i)
    (hknown : ∀ o ∈ old.drop i, o.tokens.isSome) : (update l .root lines old)[i]? = old[i]? := by
  induction old generalizing lines i with
  | nil => cases lines <;> rfl
  | cons o old ih =>
      cases lines with
      | nil => rfl
      | cons line lines =>
          obtain ⟨i, rfl⟩ := Nat.exists_eq_add_of_lt hi
          rw [Nat.zero_add] at hknown ⊢
          rw [update, List.getElem?_cons_succ, List.getElem?_cons_succ, hl]
          split
          · rfl
          · rename_i hstop
            rw [hold o List.mem_cons_self, eq_self_iff_true, true_and, List.all_eq_true] at hstop
            refine ih (fun o' ho' => hold o' (List.mem_cons_of_mem _ ho')) ?_ hknown
            rcases Nat.eq_zero_or_pos i with rfl | hpos
            · exact absurd hknown hstop
            · exact hpos

/-- Where no line leaves a state behind, a line below all reported ones is passed over, whatever it
has become. -/
lemma getElem?_refresh (language : Option String) {base lines : List Text} {ds : List ℕ} {i : ℕ}
    (hlen : lines.length = base.length) (habove : ∃ d ∈ ds, d < i)
    (hbelow : ∀ d ∈ ds, i ≤ d → base.length ≤ d) :
    (((ofLines l language base).invalidateEach ds).refresh l lines).lines[i]?
      = (known l base .root)[i]? := by
  set c := (ofLines l language base).invalidateEach ds with hc
  have hlines : c.lines = forgetting (· ∈ ds) (known l base .root) := lines_invalidateEach _ _
  have hcount : c.lines.length = lines.length := by rw [hlines, hlen]; simp
  -- the look begins above the line, and finds all lines from it on as they were
  have hstart : min c.settled lines.length < i := by
    obtain ⟨d, hd, hdi⟩ := habove
    have hsettled : c.settled ≤ d := settled_invalidateEach_le_of_mem _ hd
    omega
  set k := min c.settled lines.length with hk
  have hroot : ∀ o ∈ c.lines, o.endState = .root := by
    intro o ho
    obtain ⟨o', ho', hsame⟩ := endState_of_mem_forgetting (hlines ▸ ho)
    exact hsame.trans (endState_known hl base o' ho')
  have hunedited : ∀ j, i ≤ j → c.lines[j]? = (known l base .root)[j]? := by
    intro j hij
    rw [hlines]
    refine getElem?_forgetting fun hj hmem => ?_
    exact absurd (hbelow j hmem hij) (by simpa using hj)
  have hknown : ∀ o ∈ (c.lines.drop k).drop (i - k), o.tokens.isSome := by
    intro o ho
    rw [List.drop_drop, show k + (i - k) = i by omega] at ho
    obtain ⟨j, hj⟩ := List.mem_iff_getElem?.mp ho
    rw [List.getElem?_drop, hunedited _ (Nat.le_add_right i j), known, List.getElem?_map] at hj
    obtain ⟨r, -, rfl⟩ := Option.map_eq_some_iff.mp hj
    rfl
  -- it begins in the state in which all lines end, so it stops in front of the line
  have hstate : (c.lines.take k).getLast?.elim .root (·.endState) = LineState.root := by
    cases hlast : (c.lines.take k).getLast? with
    | none => rfl
    | some o => exact hroot o (List.mem_of_mem_take (List.mem_of_getLast? hlast))
  have hkept : (c.lines.take k).length = k := by
    rw [List.length_take, hcount]
    omega
  rw [refresh, fit, if_pos hcount]
  simp only [← hk, hstate]
  rw [List.getElem?_append_right (by omega), hkept,
    getElem?_update hl (fun o ho => hroot o (List.mem_of_mem_drop ho)) (by omega) hknown,
    List.getElem?_drop, show k + (i - k) = i by omega]
  exact hunedited i (Nat.le_refl i)

end Stateless

end LineCache

end ShellSyntax
