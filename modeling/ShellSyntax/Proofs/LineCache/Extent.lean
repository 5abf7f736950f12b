import Mathlib.Data.List.Basic
import Mathlib.Tactic.Common
import ShellSyntax.Proofs.LineCache.Indexed
import ShellSyntax.Proofs.LineCache.Refresh

/-!
How much of a cache is tokenized anew when it is brought up to date.

* `LineCache.firstEdited`, `LineCache.stateAt`: the first line to look at, and the state that was
  kept for it;
* `LineCache.rechained`: the lines in front of it as they were kept, and all others anew;
* `LineCache.MayStop`, `LineCache.LastLooked`: the line behind which the look ends: the first one
  that ends in the state it ended in before, with no edited line behind it, or else the last line;
* `LineCache.exists_update_eq`: tokenizing anew stops behind such a line, and leaves the rest alone;
* `LineCache.Recomputed`: what comes out, line by line. `LineCache.recomputed_refresh`: whatever the
  lines of the document have become, this is what bringing a cache up to date leaves behind;
* `LineCache.invalidateEach_congr`: in which order lines were reported as edited, and how often,
  does not matter.
-/

namespace ShellSyntax

namespace LineCache

variable {l : Language} {c : LineCache} {s : LineState} {lines : List Text}
  {old : List CachedLine} {ds : List ℕ} {i j : ℕ}

/-! ### Where a look begins -/

/-- The first of the lines that were reported as edited, if it is one of `count` lines, and else
`count`. -/
def firstEdited (count : ℕ) (ds : List ℕ) : ℕ := ds.foldr min count

/-- The state in which a line begins, by what was kept of the line above it. -/
def stateAt (old : List CachedLine) : ℕ → LineState
  | 0 => .root
  | i + 1 => old[i]?.elim .root (·.endState)

lemma settled_invalidateEach (c : LineCache) (ds : List ℕ) :
    (c.invalidateEach ds).settled = firstEdited c.settled ds := by
  induction ds with
  | nil => rfl
  | cons d ds ih =>
      rw [invalidateEach, invalidateFrom, ih, firstEdited, firstEdited, List.foldr_cons]
      exact Nat.min_comm _ _

lemma firstEdited_le (count : ℕ) (ds : List ℕ) : firstEdited count ds ≤ count := by
  induction ds with
  | nil => exact Nat.le_refl _
  | cons d ds ih => exact Nat.le_trans (Nat.min_le_right _ _) ih

lemma firstEdited_le_of_mem (count : ℕ) {d : ℕ} (hd : d ∈ ds) : firstEdited count ds ≤ d := by
  induction ds with
  | nil => cases hd
  | cons e ds ih =>
      rcases List.mem_cons.mp hd with rfl | hd
      · exact Nat.min_le_left _ _
      · exact Nat.le_trans (Nat.min_le_right _ _) (ih hd)

lemma le_firstEdited {count k : ℕ} (hcount : k ≤ count) (hds : ∀ d ∈ ds, k ≤ d) :
    k ≤ firstEdited count ds := by
  induction ds with
  | nil => exact hcount
  | cons d ds ih =>
      obtain ⟨hd, hds⟩ := List.forall_mem_cons.mp hds
      exact Nat.le_min.mpr ⟨hd, ih hds⟩

/-- It depends on which lines were reported only. -/
lemma firstEdited_congr (count : ℕ) {ds ds' : List ℕ} (h : ∀ d, d ∈ ds ↔ d ∈ ds') :
    firstEdited count ds = firstEdited count ds' :=
  Nat.le_antisymm
    (le_firstEdited (firstEdited_le _ _) fun _ hd => firstEdited_le_of_mem _ ((h _).mpr hd))
    (le_firstEdited (firstEdited_le _ _) fun _ hd => firstEdited_le_of_mem _ ((h _).mp hd))

lemma getLast?_take_eq_stateAt (hi : i ≤ old.length) :
    (old.take i).getLast?.elim .root (·.endState) = stateAt old i := by
  cases i with
  | zero => rfl
  | succ i =>
      rw [List.getLast?_take, if_neg (Nat.succ_ne_zero i), Nat.add_sub_cancel, stateAt,
        List.getElem?_eq_getElem hi]
      rfl

/-! ### Where a look ends -/

/-- What was kept in front of a line, and all lines from there on anew, each from the state in which
the one above it ends. -/
def rechained (l : Language) (old : List CachedLine) (first : ℕ) (lines : List Text) :
    List CachedLine :=
  old.take first ++ known l (lines.drop first) (stateAt old first)

lemma getElem?_rechained {first : ℕ} (hfirst : first ≤ old.length) (i : ℕ) :
    (rechained l old first lines)[first + i]?
      = (known l (lines.drop first) (stateAt old first))[i]? := by
  have htake : (old.take first).length = first := List.length_take_of_le hfirst
  rw [rechained, List.getElem?_append_right (by omega), htake, Nat.add_sub_cancel_left]

lemma take_rechained {first : ℕ} (hfirst : first ≤ old.length) (i : ℕ) :
    (rechained l old first lines).take (first + i + 1)
      = old.take first ++ (known l (lines.drop first) (stateAt old first)).take (i + 1) := by
  have htake : (old.take first).length = first := List.length_take_of_le hfirst
  rw [rechained, List.take_append, htake, List.take_of_length_le (by omega), Nat.add_assoc,
    Nat.add_sub_cancel_left]

/-- A look may stop behind a line that ends in the state it ended in before, if no line behind it
was reported. -/
def MayStop (old new : List CachedLine) (ds : List ℕ) (i : ℕ) : Prop :=
  new[i]?.map (·.endState) = old[i]?.map (·.endState) ∧ ∀ d ∈ ds, ¬(i < d ∧ d < old.length)

/-- The line behind which a look ends that begins with the line `first`: the first one behind which
it may stop, or else the last one of all. -/
structure LastLooked (old new : List CachedLine) (ds : List ℕ) (first i : ℕ) : Prop where
  le : first ≤ i
  lt : i < old.length
  stops : MayStop old new ds i ∨ i + 1 = old.length
  goesOn : ∀ k, first ≤ k → k < i → ¬MayStop old new ds k

/-- Tokenizing anew goes on to the first line that ends in the state it ended in before, if all
lines behind it have tokens, or else to the last line, and leaves the lines behind it alone. -/
lemma exists_update_eq (l : Language) (s : LineState) (hlen : lines.length = old.length)
    (hne : old ≠ []) :
    ∃ i < old.length, update l s lines old = (known l lines s).take (i + 1) ++ old.drop (i + 1)
      ∧ (((known l lines s)[i]?.map (·.endState) = old[i]?.map (·.endState)
          ∧ ∀ o ∈ old.drop (i + 1), o.tokens.isSome) ∨ i + 1 = old.length)
      ∧ ∀ k < i, ¬((known l lines s)[k]?.map (·.endState) = old[k]?.map (·.endState)
          ∧ ∀ o ∈ old.drop (k + 1), o.tokens.isSome) := by
  induction lines generalizing s old with
  | nil => exact absurd (List.length_eq_zero_iff.mp hlen.symm) hne
  | cons line lines ih =>
      obtain ⟨o, rest, rfl⟩ := List.exists_cons_of_ne_nil hne
      have hlen' : lines.length = rest.length := Nat.succ.inj hlen
      by_cases hstop : (l.tokenizeLine line s).endState = o.endState
          ∧ rest.all (·.tokens.isSome) = true
      · refine ⟨0, Nat.succ_pos _, ?_, Or.inl ⟨congrArg some hstop.1, ?_⟩, ?_⟩
        · rw [update, if_pos hstop]
          rfl
        · exact List.all_eq_true.mp hstop.2
        · exact fun k hk => absurd hk (Nat.not_lt_zero k)
      · rw [update, if_neg hstop, known_cons]
        -- the look does not end behind this line, unless it is the last one
        have hfirst : ¬((CachedLine.ofTokens (l.tokenizeLine line s)).endState = o.endState
            ∧ ∀ o ∈ rest, o.tokens.isSome) :=
          fun h => hstop ⟨h.1, List.all_eq_true.mpr h.2⟩
        rcases List.eq_nil_or_concat' rest with rfl | ⟨_, _, hrest⟩
        · obtain rfl := List.length_eq_zero_iff.mp hlen'
          exact ⟨0, Nat.succ_pos _, rfl, Or.inr rfl, fun k hk => absurd hk (Nat.not_lt_zero k)⟩
        · obtain ⟨i, hi, heq, hlast, hbefore⟩ := ih (l.tokenizeLine line s).endState hlen'
            (by simp [hrest])
          refine ⟨i + 1, Nat.succ_lt_succ hi, ?_, ?_, ?_⟩
          · rw [heq]
            rfl
          · exact hlast.imp_right (congrArg Nat.succ)
          · intro k hk
            cases k with
            | zero => exact fun h => hfirst ⟨Option.some.inj h.1, h.2⟩
            | succ k => exact hbefore k (Nat.lt_of_succ_lt_succ hk)

/-! ### What a look leaves behind -/

/-- The lines `new` are what a look at a document's lines makes of the lines that were kept, of
which some were reported as edited. -/
structure Recomputed (l : Language) (old : List CachedLine) (ds : List ℕ) (lines : List Text)
    (new : List CachedLine) : Prop where
  /-- If the number of lines has changed, all lines from the first edited one on are new. -/
  moved : lines.length ≠ old.length →
    new = rechained l old (min (firstEdited old.length ds) lines.length) lines
  /-- If it has not, and none of the lines is edited, all lines are what they were. -/
  kept : lines.length = old.length → firstEdited old.length ds = lines.length → new = old
  /-- And else the lines are new up to the one behind which the look ends. -/
  edited : lines.length = old.length → firstEdited old.length ds < lines.length →
    ∃ i, LastLooked old (rechained l old (firstEdited old.length ds) lines) ds
        (firstEdited old.length ds) i
      ∧ new = (rechained l old (firstEdited old.length ds) lines).take (i + 1) ++ old.drop (i + 1)

lemma length_invalidateEach (c : LineCache) (ds : List ℕ) :
    (c.invalidateEach ds).lines.length = c.lines.length := by
  rw [lines_invalidateEach, length_forgetting]

/-- Reports change no end state. -/
lemma endState_forgetting (edited : ℕ → Prop) [DecidablePred edited] (old : List CachedLine)
    (i : ℕ) : (forgetting edited old)[i]?.map (·.endState) = old[i]?.map (·.endState) := by
  rw [forgetting, List.getElem?_mapIdx]
  cases old[i]? with
  | none => rfl
  | some o =>
      simp only [Option.map_some]
      split <;> rfl

/-- Lines all of which had tokens have them still, from one on, if none was reported from there
on. -/
lemma isSome_drop_forgetting (hknown : ∀ o ∈ old, o.tokens.isSome) :
    (∀ o ∈ (forgetting (· ∈ ds) old).drop (i + 1), o.tokens.isSome)
      ↔ ∀ d ∈ ds, ¬(i < d ∧ d < old.length) := by
  constructor
  · rintro h d hd ⟨hid, hlt⟩
    have hmem : { old[d] with tokens := none } ∈ (forgetting (· ∈ ds) old).drop (i + 1) := by
      refine List.mem_iff_getElem?.mpr ⟨d - (i + 1), ?_⟩
      rw [List.getElem?_drop, Nat.add_sub_cancel' hid, forgetting, List.getElem?_mapIdx,
        List.getElem?_eq_getElem hlt, Option.map_some, if_pos hd]
    exact absurd (h _ hmem) Bool.false_ne_true
  · intro h o ho
    obtain ⟨k, hk⟩ := List.mem_iff_getElem?.mp ho
    rw [List.getElem?_drop] at hk
    rw [getElem?_forgetting fun hlt hmem => h _ hmem ⟨by omega, hlt⟩] at hk
    exact hknown o (List.mem_of_getElem? hk)

/-- The lines behind the last one that is looked at are what they were. -/
lemma drop_forgetting (h : ∀ d ∈ ds, ¬(i < d ∧ d < old.length)) :
    (forgetting (· ∈ ds) old).drop (i + 1) = old.drop (i + 1) := by
  refine List.ext_getElem? fun k => ?_
  rw [List.getElem?_drop, List.getElem?_drop]
  exact getElem?_forgetting fun hlt hmem => h _ hmem ⟨by omega, hlt⟩

/-- The lines in front of the first edited one are what they were. -/
lemma take_invalidateEach (count : ℕ) (hi : i ≤ firstEdited count ds) :
    (c.invalidateEach ds).lines.take i = c.lines.take i := by
  rw [lines_invalidateEach, take_forgetting]
  refine forgetting_eq_self fun k hk hmem => ?_
  have hle := firstEdited_le_of_mem count hmem
  rw [List.length_take] at hk
  omega

/-- Bringing a cache up to date keeps the lines in front of the first edited one, and goes on in the
state that was kept there. -/
lemma lines_refresh (hc : c.Complete c.lines.length) (l : Language) (ds : List ℕ)
    (lines : List Text) {first : ℕ}
    (hfirst : first = min (firstEdited c.lines.length ds) lines.length) :
    ((c.invalidateEach ds).refresh l lines).lines
      = c.lines.take first ++ update l (stateAt c.lines first) (lines.drop first)
          (((c.invalidateEach ds).fit lines.length).lines.drop first) := by
  have hsettled : (c.invalidateEach ds).settled = firstEdited c.lines.length ds := by
    rw [settled_invalidateEach, hc.settled_eq]
  have hle : firstEdited c.lines.length ds ≤ c.lines.length := firstEdited_le _ _
  obtain ⟨htake, hmin⟩ := (c.invalidateEach ds).fit_take
    (by rw [hsettled, length_invalidateEach]; exact hle) lines.length
  rw [hsettled, ← hfirst] at htake hmin
  have hkept : (c.invalidateEach ds).lines.take first = c.lines.take first :=
    take_invalidateEach c.lines.length (by omega)
  rw [refresh]
  simp only [hmin, htake, hkept]
  rw [getLast?_take_eq_stateAt (by omega)]

/-- Behind the first edited line, a look may stop where tokenizing anew stops. -/
lemma mayStop_iff (hknown : ∀ o ∈ old, o.tokens.isSome) {first : ℕ} (hfirst : first ≤ old.length)
    (i : ℕ) :
    ((known l (lines.drop first) (stateAt old first))[i]?.map (·.endState)
          = ((forgetting (· ∈ ds) old).drop first)[i]?.map (·.endState)
        ∧ ∀ o ∈ ((forgetting (· ∈ ds) old).drop first).drop (i + 1), o.tokens.isSome)
      ↔ MayStop old (rechained l old first lines) ds (first + i) := by
  rw [MayStop, getElem?_rechained hfirst, List.getElem?_drop, endState_forgetting, List.drop_drop,
    ← Nat.add_assoc, isSome_drop_forgetting hknown]

/-- If the number of lines has changed, nothing is known of the lines behind the kept ones. -/
lemma lines_refresh_of_ne (hc : c.Complete c.lines.length) (l : Language) (ds : List ℕ)
    (hne : lines.length ≠ c.lines.length) :
    ((c.invalidateEach ds).refresh l lines).lines
      = rechained l c.lines (min (firstEdited c.lines.length ds) lines.length) lines := by
  have hlines := lines_refresh hc l ds lines rfl
  have hle : firstEdited c.lines.length ds ≤ c.lines.length := firstEdited_le _ _
  have hcount := length_invalidateEach c ds
  set first := min (firstEdited c.lines.length ds) lines.length with hfirst
  have hsettled : min (c.invalidateEach ds).settled lines.length = first := by
    rw [settled_invalidateEach, hc.settled_eq]
  have htake : ((c.invalidateEach ds).lines.take first).length = first :=
    List.length_take_of_le (by omega)
  have hdrop : ((c.invalidateEach ds).fit lines.length).lines.drop first
      = List.replicate (lines.drop first).length .unknown := by
    rw [fit, if_neg (by omega), hsettled]
    show ((c.invalidateEach ds).lines.take first ++ _).drop first = _
    rw [List.drop_left' htake, List.length_drop]
  rw [hlines, rechained, hdrop, update_eq_known l (resumable_replicate l _)]

/-- If none of the lines was reported, all are what they were. -/
lemma lines_refresh_of_firstEdited (hc : c.Complete c.lines.length) (l : Language)
    (hlen : lines.length = c.lines.length) (hall : firstEdited c.lines.length ds = lines.length) :
    ((c.invalidateEach ds).refresh l lines).lines = c.lines := by
  have hlines := lines_refresh hc l ds lines rfl
  have hcount := length_invalidateEach c ds
  have hnone : ((c.invalidateEach ds).fit lines.length).lines.drop lines.length = [] := by
    rw [fit, if_pos (hcount.trans hlen.symm), List.drop_eq_nil_of_le (by omega)]
  rw [hlines, hall, Nat.min_self, hnone, hlen, List.take_length, update, List.append_nil]
  exact fun _ _ _ _ _ h => List.cons_ne_nil _ _ h.symm

/-- Or else they are new up to the one behind which the look ends, and the others are what they
were. -/
lemma exists_lines_refresh_eq (hc : c.Complete c.lines.length) (l : Language)
    (hlen : lines.length = c.lines.length) (hlt : firstEdited c.lines.length ds < lines.length) :
    ∃ i, LastLooked c.lines (rechained l c.lines (firstEdited c.lines.length ds) lines) ds
        (firstEdited c.lines.length ds) i
      ∧ ((c.invalidateEach ds).refresh l lines).lines
        = (rechained l c.lines (firstEdited c.lines.length ds) lines).take (i + 1)
          ++ c.lines.drop (i + 1) := by
  have hlines := lines_refresh hc l ds lines rfl
  have hle : firstEdited c.lines.length ds ≤ c.lines.length := firstEdited_le _ _
  have hcount := length_invalidateEach c ds
  set first := firstEdited c.lines.length ds with hfirst
  rw [Nat.min_eq_left (Nat.le_of_lt hlt), fit, if_pos (hcount.trans hlen.symm),
    lines_invalidateEach] at hlines
  have hlength : ((forgetting (· ∈ ds) c.lines).drop first).length = c.lines.length - first := by
    rw [List.length_drop, length_forgetting]
  have hlen' : (lines.drop first).length = ((forgetting (· ∈ ds) c.lines).drop first).length := by
    rw [hlength, List.length_drop, hlen]
  -- among the lines from the first reported one on, the look ends behind the `i`-th
  obtain ⟨i, hi, heq, hlast, hbefore⟩ := exists_update_eq l (stateAt c.lines first) hlen'
    (List.ne_nil_of_length_pos (by omega))
  simp only [mayStop_iff hc.known hle] at hlast hbefore
  rw [hlength] at hi hlast
  have hstops : MayStop c.lines (rechained l c.lines first lines) ds (first + i)
      ∨ first + i + 1 = c.lines.length := hlast.imp_right fun h => by omega
  refine ⟨first + i, ⟨Nat.le_add_right _ _, by omega, hstops, fun k hk hki => ?_⟩, ?_⟩
  · obtain ⟨k, rfl⟩ := Nat.exists_eq_add_of_le hk
    exact hbefore k (by omega)
  · -- behind it no line is reported, or there is none: what is kept was not forgotten
    have hbehind : (forgetting (· ∈ ds) c.lines).drop (first + i + 1)
        = c.lines.drop (first + i + 1) := by
      refine drop_forgetting fun d hd hdi => ?_
      rcases hstops with hstop | hend
      · exact hstop.2 d hd hdi
      · omega
    rw [hlines, heq, take_rechained hle, List.append_assoc, List.drop_drop, ← Nat.add_assoc,
      hbehind]

/-- Whatever the lines of a document have become, bringing a cache up to date tokenizes just these
lines anew. -/
lemma recomputed_refresh (hc : c.Complete c.lines.length) (l : Language) (ds : List ℕ)
    (lines : List Text) :
    Recomputed l c.lines ds lines ((c.invalidateEach ds).refresh l lines).lines where
  moved := lines_refresh_of_ne hc l ds
  kept := lines_refresh_of_firstEdited hc l
  edited := exists_lines_refresh_eq hc l

/-- In which order lines were reported, and how often, does not matter. -/
lemma invalidateEach_congr (c : LineCache) {ds ds' : List ℕ} (h : ∀ d, d ∈ ds ↔ d ∈ ds') :
    c.invalidateEach ds = c.invalidateEach ds' := by
  have hlines : (c.invalidateEach ds).lines = (c.invalidateEach ds').lines := by
    rw [lines_invalidateEach, lines_invalidateEach]
    simp only [h]
  have hsettled : (c.invalidateEach ds).settled = (c.invalidateEach ds').settled := by
    rw [settled_invalidateEach, settled_invalidateEach, firstEdited_congr _ h]
  have hlanguage : (c.invalidateEach ds).language = (c.invalidateEach ds').language := by
    rw [language_invalidateEach, language_invalidateEach]
  calc c.invalidateEach ds
      = ⟨(c.invalidateEach ds).language, (c.invalidateEach ds).lines,
          (c.invalidateEach ds).settled⟩ := rfl
    _ = c.invalidateEach ds' := by rw [hlanguage, hlines, hsettled]

end LineCache

end ShellSyntax
