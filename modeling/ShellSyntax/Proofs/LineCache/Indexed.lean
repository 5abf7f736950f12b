import Mathlib.Data.List.Basic
import Mathlib.Tactic.Common
import ShellSyntax.LineCache

/-!
The cache of a document as two lists that are read and written at indices.

* `IndexedCache`: the end states of lines and their tokens, apart from each other.
  `IndexedCache.refresh?` brings them up to date one index after the other, and fails where an index
  lies behind the end of a list;
* `IndexedCache.WellFormed`: the lists have the same length, and the settled lines are there, with
  their tokens. `IndexedCache.Holds`: so are all lines;
* `LineCache.indexed`: the two lists of a cache. `LineCache.indexed_fit`,
  `LineCache.indexed_invalidateFrom`: what is done to the cache is done to them;
* `LineCache.WellFormed`: the settled lines of a cache are there, with their tokens. The operations
  keep that, and `LineCache.Complete` says what a look at the document leaves behind;
* `LineCache.refresh?_indexed`: then no index is ever behind the end, and both ways of bringing a
  cache up to date find the same.
-/

namespace ShellSyntax

/-- What is kept of a document, as two lists with an entry for each line. -/
structure IndexedCache where
  /-- The states at the ends of lines. -/
  states : List LineState
  /-- The tokens of lines, unless a line is new or has been edited. -/
  tokens : List (Option (List Token))
  /-- The number of lines from the top that need not be looked at again. -/
  settled : ℕ

namespace IndexedCache

/-- The two lists of a document that has not been looked at. -/
def empty : IndexedCache := ⟨[], [], 0⟩

/-- What is kept of lines, as two lists. -/
def ofLines (lines : List CachedLine) (settled : ℕ) : IndexedCache :=
  ⟨lines.map (·.endState), lines.map (·.tokens), settled⟩

/-- The list of the first `count` entries, filled up with `a`. -/
def resize {α : Type} (count : ℕ) (a : α) (as : List α) : List α :=
  as.take count ++ List.replicate (count - as.length) a

/-- The list with another entry at an index, unless the index lies behind its end. -/
def write? {α : Type} (as : List α) (i : ℕ) (a : α) : Option (List α) :=
  if i < as.length then some (as.set i a) else none

/-- Takes note that a line was edited. -/
def invalidateFrom (c : IndexedCache) (line : ℕ) : IndexedCache :=
  { c with tokens := c.tokens.set line none, settled := min c.settled line }

/-- The two lists for a document of `count` lines. If their number has changed, only the settled
ones are kept. -/
def fit (c : IndexedCache) (count : ℕ) : IndexedCache :=
  if c.tokens.length = count then c
  else
    let keep := min c.settled count
    ⟨resize count .root (c.states.take keep), resize count none (c.tokens.take keep), keep⟩

/-- Looks at lines from an index on, the first of which begins in a state. -/
def lookFrom? (l : Language) : ℕ → LineState → List Text → IndexedCache → Option IndexedCache
  | _, _, [], c => some c
  | i, s, line :: lines, c =>
    let found := l.tokenizeLine line s
    c.states[i]?.bind fun old =>
    (write? c.states i found.endState).bind fun states =>
    (write? c.tokens i (some found.tokens)).bind fun tokens =>
      if found.endState = old ∧ (tokens.drop (i + 1)).all Option.isSome then
        some { c with states, tokens }
      else lookFrom? l (i + 1) found.endState lines { c with states, tokens }

/-- The tokens of all lines, and the two lists brought up to date. -/
def refresh? (c : IndexedCache) (l : Language) (lines : List Text) :
    Option (List (List Token) × IndexedCache) :=
  let c := c.fit lines.length
  let start := min c.settled lines.length
  (if start = 0 then some .root else c.states[start - 1]?).bind fun s =>
    (lookFrom? l start s (lines.drop start) c).map fun c =>
      (c.tokens.map (·.getD []), { c with settled := lines.length })

/-- The lists have the same length, and the settled lines are there, with their tokens. -/
structure WellFormed (c : IndexedCache) : Prop where
  length_eq : c.states.length = c.tokens.length
  settled_le : c.settled ≤ c.tokens.length
  known : ∀ i < c.settled, ∃ ts, c.tokens[i]? = some (some ts)

/-- The lists hold the tokens of all lines, each of which is settled. -/
structure Holds (c : IndexedCache) (tokens : List (List Token)) : Prop where
  length_states : c.states.length = tokens.length
  tokens_eq : c.tokens = tokens.map some
  settled_eq : c.settled = tokens.length

end IndexedCache

namespace LineCache

/-- The two lists of a cache. -/
def indexed (c : LineCache) : IndexedCache :=
  .ofLines c.lines c.settled

/-! ### Well-formed caches -/

/-- The settled lines of a cache are there, with their tokens. -/
structure WellFormed (c : LineCache) : Prop where
  settled_le : c.settled ≤ c.lines.length
  known : ∀ o ∈ c.lines.take c.settled, o.tokens.isSome

/-- All of a number of lines are settled, with their tokens. -/
structure Complete (c : LineCache) (count : ℕ) : Prop where
  length_eq : c.lines.length = count
  settled_eq : c.settled = count
  known : ∀ o ∈ c.lines, o.tokens.isSome

lemma Complete.wellFormed {c : LineCache} {count : ℕ} (h : c.Complete count) : c.WellFormed where
  settled_le := Nat.le_of_eq (h.settled_eq.trans h.length_eq.symm)
  known o ho := h.known o (List.mem_of_mem_take ho)

/-- A cache in which no line is settled is well formed. -/
lemma wellFormed_of_settled {c : LineCache} (h : c.settled = 0) : c.WellFormed where
  settled_le := by
    rw [h]
    exact Nat.zero_le _
  known o ho := by
    rw [h] at ho
    exact absurd ho List.not_mem_nil

lemma WellFormed.invalidateFrom {c : LineCache} (h : c.WellFormed) (line : ℕ) :
    (c.invalidateFrom line).WellFormed where
  settled_le := by
    rw [LineCache.invalidateFrom, List.length_modify]
    exact Nat.le_trans (Nat.min_le_left _ _) h.settled_le
  known o ho := by
    -- the edited line is not settled any more
    have hkept : (c.lines.modify line fun l => { l with tokens := none }).take (min c.settled line)
        = c.lines.take (min c.settled line) := by
      refine List.ext_getElem? fun i => ?_
      rw [List.getElem?_take, List.getElem?_take]
      split
      · rename_i hi
        have hne : line ≠ i := by omega
        simp [hne]
      · rfl
    rw [LineCache.invalidateFrom, hkept] at ho
    exact h.known o ((List.take_sublist_take_left (Nat.min_le_left _ _)).mem ho)

lemma WellFormed.fit {c : LineCache} (h : c.WellFormed) (count : ℕ) : (c.fit count).WellFormed := by
  rw [LineCache.fit]
  split
  · exact h
  · have hkeep : (c.lines.take (min c.settled count)).length = min c.settled count := by
      have hle := h.settled_le
      rw [List.length_take]
      omega
    refine ⟨?_, fun o ho => ?_⟩
    · rw [List.length_append, hkeep]
      exact Nat.le_add_right _ _
    · rw [List.take_left' hkeep] at ho
      exact h.known o ((List.take_sublist_take_left (Nat.min_le_left _ _)).mem ho)

lemma length_fit {c : LineCache} (h : c.WellFormed) (count : ℕ) :
    (c.fit count).lines.length = count := by
  have hle := h.settled_le
  rw [LineCache.fit]
  split
  · assumption
  · rw [List.length_append, List.length_take, List.length_replicate]
    omega

/-- Behind the first line that was looked at, all lines have tokens: either they are looked at as
well, or they were found to have them. -/
lemma isSome_update (l : Language) {s : LineState} {lines : List Text} {old : List CachedLine}
    (hlen : lines.length = old.length) : ∀ o ∈ update l s lines old, o.tokens.isSome := by
  induction lines generalizing s old with
  | nil =>
      obtain rfl := List.length_eq_zero_iff.mp hlen.symm
      exact fun o ho => absurd ho List.not_mem_nil
  | cons line lines ih =>
      obtain ⟨o, rest, rfl⟩ := List.exists_cons_of_length_eq_add_one hlen.symm
      rw [update]
      refine List.forall_mem_cons.mpr ⟨rfl, ?_⟩
      split
      · rename_i hstop
        exact fun o ho => List.all_eq_true.mp hstop.2 o ho
      · exact ih (Nat.succ.inj hlen)

/-- A look at a document leaves all of its lines settled. -/
lemma WellFormed.refresh {c : LineCache} (h : c.WellFormed) (l : Language) (lines : List Text) :
    (c.refresh l lines).Complete lines.length := by
  have hfit := h.fit lines.length
  have hlen := length_fit h lines.length
  have hle := hfit.settled_le
  refine ⟨?_, rfl, ?_⟩
  · rw [LineCache.refresh, List.length_append, length_update, List.length_take, List.length_drop]
    omega
  · intro o ho
    rw [LineCache.refresh, List.mem_append] at ho
    rcases ho with ho | ho
    · exact hfit.known o ((List.take_sublist_take_left (Nat.min_le_left _ _)).mem ho)
    · refine isSome_update l ?_ o ho
      rw [List.length_drop, List.length_drop, hlen]

/-! ### The two lists of a cache -/

lemma WellFormed.indexed {c : LineCache} (h : c.WellFormed) : c.indexed.WellFormed where
  length_eq := by
    rw [LineCache.indexed, IndexedCache.ofLines, List.length_map, List.length_map]
  settled_le := by
    rw [LineCache.indexed, IndexedCache.ofLines, List.length_map]
    exact h.settled_le
  known i hi := by
    have hsettled : i < c.settled := hi
    have hlt : i < c.lines.length := Nat.lt_of_lt_of_le hsettled h.settled_le
    obtain ⟨ts, hts⟩ := Option.isSome_iff_exists.mp
      (h.known c.lines[i] (List.mem_take_iff_getElem.mpr ⟨i, by omega, rfl⟩))
    refine ⟨ts, ?_⟩
    rw [LineCache.indexed, IndexedCache.ofLines, List.getElem?_map, List.getElem?_eq_getElem hlt,
      Option.map_some, hts]

lemma length_tokens (c : LineCache) : c.tokens.length = c.lines.length := List.length_map _

/-- Where all lines have tokens, nothing stands in for tokens that are not there. -/
lemma Complete.holds {c : LineCache} {count : ℕ} (h : c.Complete count) :
    c.indexed.Holds c.tokens where
  length_states := by
    rw [LineCache.indexed, IndexedCache.ofLines, List.length_map, length_tokens]
  tokens_eq := by
    rw [LineCache.indexed, IndexedCache.ofLines, LineCache.tokens, List.map_map]
    refine List.map_congr_left fun o ho => ?_
    obtain ⟨ts, hts⟩ := Option.isSome_iff_exists.mp (h.known o ho)
    rw [Function.comp_apply, hts, Option.getD_some]
  settled_eq := by
    rw [length_tokens, h.length_eq]
    exact h.settled_eq

/-- Taking note of an edit changes no end state. -/
lemma indexed_invalidateFrom (c : LineCache) (line : ℕ) :
    (c.invalidateFrom line).indexed = c.indexed.invalidateFrom line := by
  have hstates : (c.lines.modify line fun l => { l with tokens := none }).map (·.endState)
      = c.lines.map (·.endState) := by
    refine List.ext_getElem? fun i => ?_
    rw [List.getElem?_map, List.getElem?_map, List.getElem?_modify]
    cases c.lines[i]? with
    | none => rfl
    | some o => by_cases hi : line = i <;> simp [hi]
  have htokens : (c.lines.modify line fun l => { l with tokens := none }).map (·.tokens)
      = (c.lines.map (·.tokens)).set line none := by
    refine List.ext_getElem? fun i => ?_
    rw [List.getElem?_map, List.getElem?_set', List.getElem?_map, List.getElem?_modify]
    cases c.lines[i]? with
    | none => simp
    | some o => by_cases hi : line = i <;> simp [hi]
  rw [LineCache.indexed, LineCache.invalidateFrom, IndexedCache.ofLines, hstates, htokens]
  rfl

lemma indexed_fit {c : LineCache} (h : c.WellFormed) (count : ℕ) :
    (c.fit count).indexed = c.indexed.fit count := by
  have hle := h.settled_le
  have hcount : c.indexed.tokens.length = c.lines.length := List.length_map _
  rw [LineCache.fit, IndexedCache.fit, hcount]
  split
  · rfl
  · have hkeep : (c.lines.take (min c.settled count)).length = min c.settled count := by
      rw [List.length_take]
      omega
    have hresize : ∀ {α : Type} (f : CachedLine → α),
        (c.lines.take (min c.settled count)
            ++ List.replicate (count - min c.settled count) CachedLine.unknown).map f
          = IndexedCache.resize count (f .unknown)
              ((c.lines.map f).take (min c.settled count)) := fun f => by
      rw [IndexedCache.resize, ← List.map_take, List.length_map, hkeep, ← List.map_take,
        List.take_take, Nat.min_eq_right (Nat.min_le_right _ _), List.map_append,
        List.map_replicate]
    exact congrArg₂ (IndexedCache.mk · · _) (hresize (·.endState)) (hresize (·.tokens))

/-! ### Index by index -/

/-- The entry of the line behind the kept ones is there to be written. -/
lemma write?_map {α : Type} (f : CachedLine → α) (kept : List CachedLine) (o new : CachedLine)
    (rest : List CachedLine) :
    IndexedCache.write? ((kept ++ o :: rest).map f) kept.length (f new)
      = some ((kept ++ new :: rest).map f) := by
  have hlt : kept.length < ((kept ++ o :: rest).map f).length := by simp
  have hset : (kept ++ o :: rest).set kept.length new = kept ++ new :: rest := by
    rw [List.set_append_right _ _ (Nat.le_refl _), Nat.sub_self, List.set_cons_zero]
  rw [IndexedCache.write?, if_pos hlt, ← List.map_set, hset]

/-- A look at one line, behind the ones that are kept. -/
lemma lookFrom?_cons (l : Language) {s : LineState} {line : Text} {found : LineTokens}
    (hfound : l.tokenizeLine line s = found) (lines : List Text) (kept : List CachedLine)
    (o : CachedLine) (rest : List CachedLine) (settled : ℕ) :
    IndexedCache.lookFrom? l kept.length s (line :: lines) (.ofLines (kept ++ o :: rest) settled)
      = if found.endState = o.endState ∧ rest.all (·.tokens.isSome) then
          some (.ofLines (kept ++ .ofTokens found :: rest) settled)
        else
          IndexedCache.lookFrom? l (kept.length + 1) found.endState lines
            (.ofLines (kept ++ .ofTokens found :: rest) settled) := by
  have hold : ((kept ++ o :: rest).map (·.endState))[kept.length]? = some o.endState := by
    simp
  have hstates : IndexedCache.write? ((kept ++ o :: rest).map (·.endState)) kept.length
        found.endState
      = some ((kept ++ .ofTokens found :: rest).map (·.endState)) :=
    write?_map (·.endState) kept o (.ofTokens found) rest
  have htokens : IndexedCache.write? ((kept ++ o :: rest).map (·.tokens)) kept.length
        (some found.tokens)
      = some ((kept ++ .ofTokens found :: rest).map (·.tokens)) :=
    write?_map (·.tokens) kept o (.ofTokens found) rest
  have hrest : ((kept ++ .ofTokens found :: rest).map (·.tokens)).drop (kept.length + 1)
      = rest.map (·.tokens) := by
    rw [← List.map_drop, List.drop_append, List.drop_eq_nil_of_le (Nat.le_succ _),
      Nat.add_sub_cancel_left]
    rfl
  rw [IndexedCache.lookFrom?, hfound]
  simp only [IndexedCache.ofLines]
  rw [hold, Option.bind_some, hstates, Option.bind_some, htokens, Option.bind_some, hrest,
    List.all_map]
  rfl

/-- Looking at lines behind the ones that are kept stays within the two lists. -/
lemma lookFrom?_ofLines (l : Language) (s : LineState) {lines : List Text}
    (kept : List CachedLine) {old : List CachedLine} (hlen : lines.length ≤ old.length)
    (settled : ℕ) :
    IndexedCache.lookFrom? l kept.length s lines (.ofLines (kept ++ old) settled)
      = some (.ofLines (kept ++ update l s lines old) settled) := by
  induction lines generalizing s kept old with
  | nil => simp [IndexedCache.lookFrom?, update]
  | cons line lines ih =>
      cases old with
      | nil => exact absurd hlen (Nat.not_succ_le_zero _)
      | cons o rest =>
          rw [lookFrom?_cons l rfl, update]
          split
          · rfl
          · have hkept := ih (l.tokenizeLine line s).endState
              (kept ++ [.ofTokens (l.tokenizeLine line s)]) (Nat.le_of_succ_le_succ hlen)
            rw [List.length_append, List.append_assoc, List.append_assoc] at hkept
            exact hkept

/-- Above the first line to be looked at there is a line, unless there is none at all. -/
lemma startState_eq {lines : List CachedLine} {start : ℕ} (hstart : start ≤ lines.length) :
    (if start = 0 then some .root else (lines.map (·.endState))[start - 1]?)
      = some ((lines.take start).getLast?.elim .root (·.endState)) := by
  cases start with
  | zero => rfl
  | succ n =>
      rw [if_neg (Nat.succ_ne_zero n), List.getLast?_take, if_neg (Nat.succ_ne_zero n),
        Nat.add_sub_cancel, List.getElem?_map, List.getElem?_eq_getElem hstart]
      rfl

/-- Index by index, a well-formed cache is brought up to date in the same way. -/
lemma WellFormed.refresh?_indexed {c : LineCache} (h : c.WellFormed) (l : Language)
    (lines : List Text) :
    c.indexed.refresh? l lines
      = some ((c.refresh l lines).tokens, (c.refresh l lines).indexed) := by
  have hlen := length_fit h lines.length
  have hfit := (indexed_fit h lines.length).symm
  rw [LineCache.refresh, LineCache.tokens]
  generalize c.fit lines.length = fitted at hlen hfit
  let start := min fitted.settled lines.length
  have hstart : start ≤ fitted.lines.length := by omega
  have hkept : (fitted.lines.take start).length = start := by
    rw [List.length_take]
    omega
  have hold : (lines.drop start).length ≤ (fitted.lines.drop start).length := by
    exact Nat.le_of_eq (by rw [List.length_drop, List.length_drop, hlen])
  have hlook (s : LineState) := lookFrom?_ofLines l s (fitted.lines.take start) hold fitted.settled
  rw [hkept, List.take_append_drop] at hlook
  rw [IndexedCache.refresh?, hfit]
  show ((if start = 0 then some .root
    else (fitted.lines.map (·.endState))[start - 1]?).bind fun s =>
      (IndexedCache.lookFrom? l start s (lines.drop start)
        (.ofLines fitted.lines fitted.settled)).map _) = _
  rw [startState_eq hstart, Option.bind_some, hlook, Option.map_some]
  simp only [LineCache.indexed, IndexedCache.ofLines, List.map_map]
  rfl

end LineCache

end ShellSyntax
