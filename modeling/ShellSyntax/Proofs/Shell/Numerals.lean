import Mathlib.Data.List.Basic
import Mathlib.Tactic.Common
import Mathlib.Tactic.IntervalCases
import ShellSyntax.Proofs.Pattern.CharSet
import ShellSyntax.Proofs.Pattern.Runs
import ShellSyntax.Proofs.Shell.Heredoc

/-!
Numbers.

* `Shell.fraction?`, `Shell.hexadecimal?`, `Shell.digits`: the number of each sort at the start of a
  text; `Shell.numeral`: the number that counts, and its kind;
* `Shell.match?_fraction`, `Shell.match?_hexadecimal`, `Shell.match?_integer`: the rules for numbers
  match just these;
* `Shell.match?_beforeNumbers`: no rule that goes before them matches at a digit;
* `Language.IsShell.tokenizeLine_numeral`: so wherever the tokenizer comes to a digit outside of
  quotes, the next token is the number that stands there.
-/

namespace ShellSyntax

namespace Shell

open Pattern

/-! ### Numbers at the start of a text -/

/-- The digits at the start of a text. -/
def digits (t : Text) : Text := t.takeWhile Char.isDigit

/-- The exponent at the start of a text: its letter, a sign or none, and all digits behind that.
Without digits there is no exponent. -/
def exponent : Text → Text
  | [] => []
  | e :: t =>
    let sign := Text.leading (· ∈ ['-', '+']) t
    let power := digits (t.drop sign.length)
    if e ∈ ['e', 'E'] ∧ power ≠ [] then e :: (sign ++ power) else []

/-- The decimal fraction at the start of a text: all digits in front of a point, and all behind it,
of which there must be some, with the exponent if there is one. -/
def fraction? (t : Text) : Option Text :=
  match t.drop (digits t).length with
  | '.' :: rest =>
    let decimals := digits rest
    if decimals = [] then none
    else some (digits t ++ '.' :: (decimals ++ exponent (rest.drop decimals.length)))
  | _ => none

/-- The digits of hexadecimal numbers. -/
def isHexDigit (x : Char) : Bool := x.isDigit || ('a' ≤ x && x ≤ 'f') || ('A' ≤ x && x ≤ 'F')

/-- Of all hexadecimal digits and underscores at the start of a text those up to the last digit. -/
def hexDigits (t : Text) : Text :=
  (t.takeWhile fun x => isHexDigit x || x = '_').rdropWhile fun x => !isHexDigit x

/-- The hexadecimal number at the start of a text: a zero, an `x`, and the digits and underscores
behind that, with at least one digit. -/
def hexadecimal? : Text → Option Text
  | '0' :: x :: t =>
    if x ∈ ['x', 'X'] ∧ hexDigits t ≠ [] then some ('0' :: x :: hexDigits t) else none
  | _ => none

/-- The number at the start of a text, and its kind: a fraction if there is one, or else a
hexadecimal number, or else all digits. -/
def numeral (t : Text) : TokenKind × Text :=
  match fraction? t, hexadecimal? t with
  | some number, _ => (.float, number)
  | none, some number => (.hex, number)
  | none, none => (.number, digits t)

lemma exponent_isPrefix (t : Text) : exponent t <+: t := by
  cases t with
  | nil => exact List.nil_prefix
  | cons e t =>
      rw [exponent]
      split
      · have hsign := Text.leading_isPrefix (· ∈ ['-', '+']) t
        exact List.cons_prefix_cons.mpr
          ⟨rfl, (Cursor.prefix_behind (c := .start t) hsign).mp (List.takeWhile_prefix _)⟩
      · exact List.nil_prefix

lemma fraction_isPrefix {t number : Text} (h : fraction? t = some number) : number <+: t := by
  unfold fraction? at h
  split at h
  · rename_i rest hrest
    simp only at h
    split at h
    · cases h
    · obtain rfl := Option.some.inj h
      have hdigits : digits t <+: t := List.takeWhile_prefix _
      have hdecimals : digits rest <+: rest := List.takeWhile_prefix _
      have hbehind := (Cursor.prefix_behind (c := .start rest) hdecimals).mp (exponent_isPrefix _)
      refine (Cursor.prefix_behind (c := .start t) hdigits).mp ?_
      show _ <+: t.drop (digits t).length
      rw [hrest]
      exact List.cons_prefix_cons.mpr ⟨rfl, hbehind⟩
  · cases h

lemma hexDigits_isPrefix (t : Text) : hexDigits t <+: t :=
  (List.rdropWhile_prefix _ _).trans (List.takeWhile_prefix _)

lemma hexadecimal_isPrefix {t number : Text} (h : hexadecimal? t = some number) : number <+: t := by
  unfold hexadecimal? at h
  split at h
  · split at h
    · obtain rfl := Option.some.inj h
      exact List.cons_prefix_cons.mpr
        ⟨rfl, List.cons_prefix_cons.mpr ⟨rfl, hexDigits_isPrefix _⟩⟩
    · cases h
  · cases h

/-- The number that counts stands at the start of the text. -/
lemma numeral_isPrefix (t : Text) : (numeral t).2 <+: t := by
  rw [numeral]
  cases hfraction : fraction? t with
  | some number => exact fraction_isPrefix hfraction
  | none =>
      cases hhexadecimal : hexadecimal? t with
      | some number => exact hexadecimal_isPrefix hhexadecimal
      | none => exact List.takeWhile_prefix _

/-! ### The sets of the rules -/

lemma mem_digit : digit.mem = Char.isDigit := by
  funext x
  have hle : ∀ c d : Char, c ≤ d ↔ c.toNat ≤ d.toNat := fun _ _ => Iff.rfl
  rw [Bool.eq_iff_iff, Char.isDigit_iff_toNat]
  simp [digit, CharSet.mem, CharSet.of, Unicode.Ranges.contains, Unicode.Ranges.containsCode]

lemma mem_hexDigit : hexDigit.mem = isHexDigit := by
  funext x
  have hle : ∀ c d : Char, c ≤ d ↔ c.toNat ≤ d.toNat := fun _ _ => Iff.rfl
  rw [Bool.eq_iff_iff, isHexDigit, Bool.or_eq_true, Bool.or_eq_true, Char.isDigit_iff_toNat]
  simp [hexDigit, CharSet.mem, CharSet.of, Unicode.Ranges.contains, Unicode.Ranges.containsCode,
    hle]
  omega

lemma mem_hexRun :
    (hexDigit.union (.single '_')).mem = fun x => isHexDigit x || x = '_' := by
  funext x
  have hproper : hexDigit.ranges.Proper := by
    simp [hexDigit, CharSet.of, Unicode.Ranges.Proper]
  rw [CharSet.mem_union hproper (CharSet.proper_single _), mem_hexDigit]
  refine congrArg (isHexDigit x || ·) ?_
  rw [Bool.eq_iff_iff, CharSet.mem_single, decide_eq_true_eq]

/-! ### The patterns of the rules -/

variable {origin : ℕ}

/-- The pattern of an exponent. -/
def exponentPattern : Pattern :=
  cat (one (.ofList ['e', 'E'])) <| cat (opt (one (.ofList ['-', '+']))) (plus (one digit))

/-- The pattern of the decimals of a fraction, with its exponent. -/
def decimalsPattern : Pattern := cat (plus (one digit)) (opt (group 0 exponentPattern))

/-- The pattern of a fraction. -/
def fractionPattern : Pattern :=
  cat (star (one digit)) <| cat (one (.single '.')) decimalsPattern

/-- The pattern of a hexadecimal number. -/
def hexPattern : Pattern :=
  cat (one (.single '0')) <| cat (one (.ofList ['x', 'X'])) <|
    cat (star (one (hexDigit.union (.single '_')))) (one hexDigit)

lemma numberRules_eq : numberRules =
    [fixed "float" .float fractionPattern, fixed "hex" .hex hexPattern,
      fixed "integer" .number (plus (one digit))] := rfl

/-- A way through digits once or more takes all digits there are. -/
lemma head?_ways_digits (m : PatternMatch) :
    (ways origin (plus (one digit)) m).head?
      = if digits m.stop.rest = [] then none
        else some ⟨m.stop.behind (digits m.stop.rest), m.captures⟩ := by
  rw [digits, ← mem_digit]
  split
  · rename_i hnone
    rw [ways_plus_eq_nil hnone, List.head?_nil]
  · rename_i hne
    exact head?_ways_plus hne

/-- The preferred way through an exponent takes the exponent there is. -/
lemma head?_ways_exponent (m : PatternMatch) :
    (ways origin exponentPattern m).head?
      = if exponent m.stop.rest = [] then none
        else some ⟨m.stop.behind (exponent m.stop.rest), m.captures⟩ := by
  have hsign : Shuns (ways origin (plus (one digit))) (.ofList ['-', '+']) := by
    have hapart : (CharSet.ofList ['-', '+']).Apart digit := by decide
    exact shuns_ways rfl fun x hx => hapart.mem_eq_false hx
  cases hrest : m.stop.rest with
  | nil => rw [ways_eq_nil_of_head? rfl (by simp [hrest]), exponent, if_pos rfl, List.head?_nil]
  | cons e t =>
      by_cases he : e ∈ ['e', 'E']
      · -- the sign is not given back, since no digit is a sign
        let sign := Text.leading (· ∈ ['-', '+']) t
        have hstart : (ways origin exponentPattern m).head?
            = (ways origin (plus (one digit))
              ⟨(m.stop.past e t).behind sign, m.captures⟩).head? := by
          rw [exponentPattern, ways_cat_one hrest (CharSet.mem_ofList.mpr he), ways,
            head?_flatMap_opt hsign, CharSet.mem_ofList_eq]
          rfl
        let power := digits (t.drop sign.length)
        have hpower : digits ((m.stop.past e t).behind sign).rest = power := rfl
        rw [hstart, head?_ways_digits, hpower]
        by_cases hnone : power = []
        · have hempty : exponent (e :: t) = [] := if_neg fun h => h.2 hnone
          rw [if_pos hnone, hempty, if_pos rfl]
        · have hall : exponent (e :: t) = e :: (sign ++ power) := if_pos ⟨he, hnone⟩
          rw [if_neg hnone, hall, if_neg (List.cons_ne_nil _ _), Cursor.behind_cons hrest,
            Cursor.behind_append]
      · have hx : exponentPattern.begins e = false := by
          have hmem := CharSet.mem_ofList.not.mpr he
          simpa [exponentPattern, begins, nullable] using hmem
        have hempty : exponent (e :: t) = [] := if_neg fun h => he h.1
        rw [ways_eq_nil rfl hrest hx, hempty, if_pos rfl, List.head?_nil]

/-- An exponent that may be left out is taken, if there is one. -/
lemma exists_head?_ways_exponent (m : PatternMatch) :
    ∃ n, (ways origin (opt (group 0 exponentPattern)) m).head? = some n
      ∧ n.stop = m.stop.behind (exponent m.stop.rest) := by
  have hopened : (m.opened 0).stop = m.stop := rfl
  rw [ways, ways, List.head?_append, List.head?_map, head?_ways_exponent, hopened]
  by_cases hnone : exponent m.stop.rest = []
  · rw [if_pos hnone, hnone, Cursor.behind_nil]
    exact ⟨m, rfl, rfl⟩
  · rw [if_neg hnone]
    exact ⟨_, rfl, rfl⟩

/-- The preferred way through the decimals of a fraction takes all digits there are, and the
exponent if there is one. -/
lemma head?_ways_decimals (m : PatternMatch) :
    (ways origin decimalsPattern m).head?.map (·.stop)
      = if digits m.stop.rest = [] then none
        else some ((m.stop.behind (digits m.stop.rest)).behind
          (exponent (m.stop.rest.drop (digits m.stop.rest).length))) := by
  have hdigits := @head?_ways_digits origin m
  split
  · rename_i hnone
    rw [if_pos hnone, List.head?_eq_none_iff] at hdigits
    rw [decimalsPattern, ways, hdigits]
    rfl
  · rename_i hne
    rw [if_neg hne] at hdigits
    obtain ⟨n, hn, hstop⟩ :=
      @exists_head?_ways_exponent origin ⟨m.stop.behind (digits m.stop.rest), m.captures⟩
    rw [decimalsPattern, head?_ways_cat hdigits hn, Option.map_some, hstop]
    rfl

/-- Where no point stands, there is no way through a fraction. -/
lemma ways_point_eq_nil {m : PatternMatch} (h : ∀ rest, m.stop.rest ≠ '.' :: rest) :
    ways origin (cat (one (.single '.')) decimalsPattern) m = [] := by
  refine ways_eq_nil_of_head? rfl fun x hx => ?_
  obtain ⟨rest, hrest⟩ := List.head?_eq_some_iff.mp hx
  have hne : (CharSet.single '.').mem x = false := by
    refine Bool.eq_false_iff.mpr fun hmem => ?_
    obtain rfl := CharSet.mem_single.mp hmem
    exact h rest hrest
  simp [begins, nullable, hne]

/-- The preferred way through a fraction takes the fraction there is. -/
lemma head?_ways_fraction (m : PatternMatch) :
    (ways origin fractionPattern m).head?.map (·.stop)
      = (fraction? m.stop.rest).map m.stop.behind := by
  have hshuns : Shuns (ways origin (cat (one (.single '.')) decimalsPattern)) digit := by
    have hapart : digit.Apart (.single '.') := by decide
    refine shuns_ways rfl fun x hx => ?_
    simp [begins, nullable, hapart.mem_eq_false hx]
  let d := m.stop.behind (digits m.stop.rest)
  have hwhole : (ways origin fractionPattern m).head?
      = (ways origin (cat (one (.single '.')) decimalsPattern) ⟨d, m.captures⟩).head? := by
    rw [fractionPattern, ways, head?_flatMap_star hshuns, mem_digit]
    rfl
  have hd : d.rest = m.stop.rest.drop (digits m.stop.rest).length := rfl
  rw [hwhole, fraction?, ← hd]
  split
  · rename_i rest hrest
    have hbehind : (d.past '.' rest).rest = rest := rfl
    rw [ways_cat_one hrest (CharSet.mem_single.mpr rfl), head?_ways_decimals]
    simp only [hbehind]
    split
    · rfl
    · rw [Option.map_some, Cursor.behind_append, Cursor.behind_cons hrest, Cursor.behind_append]
  · rename_i hpoint
    rw [ways_point_eq_nil hpoint]
    rfl

/-- The preferred way through the digits of a hexadecimal number gives underscores at their end
back. -/
lemma head?_ways_hexDigits (m : PatternMatch) :
    (ways origin (cat (star (one (hexDigit.union (.single '_')))) (one hexDigit)) m).head?
      = if hexDigits m.stop.rest = [] then none
        else some ⟨m.stop.behind (hexDigits m.stop.rest), m.captures⟩ := by
  have hlast : ∀ x, hexDigit.mem x = true → (hexDigit.union (.single '_')).mem x = true := by
    intro x hx
    rw [mem_hexDigit] at hx
    rw [mem_hexRun]
    exact Bool.or_eq_true_iff.mpr (Or.inl hx)
  have hrun := @head?_ways_star_last origin _ _ hlast m
  rwa [mem_hexRun, mem_hexDigit] at hrun

/-- Where no zero stands before a character, there is no way through a hexadecimal number. -/
lemma ways_hexPattern_eq_nil {m : PatternMatch} (h : ∀ x t, m.stop.rest ≠ '0' :: x :: t) :
    ways origin hexPattern m = [] := by
  cases hrest : m.stop.rest with
  | nil => exact ways_eq_nil_of_head? rfl (by simp [hrest])
  | cons y t =>
      by_cases hy : (CharSet.single '0').mem y = true
      · obtain rfl := CharSet.mem_single.mp hy
        rw [hexPattern, ways_cat_one hrest hy]
        cases t with
        | nil => exact ways_eq_nil_of_head? rfl (by simp [Cursor.past])
        | cons x t => exact absurd hrest (h x t)
      · refine ways_eq_nil rfl hrest ?_
        simpa [hexPattern, begins, nullable] using hy

/-- The preferred way through a hexadecimal number takes the one there is. -/
lemma head?_ways_hexadecimal (m : PatternMatch) :
    (ways origin hexPattern m).head?.map (·.stop)
      = (hexadecimal? m.stop.rest).map m.stop.behind := by
  unfold hexadecimal?
  split
  · rename_i x t hrest
    let d := (m.stop.past '0' (x :: t)).past x t
    rw [hexPattern, ways_cat_one hrest (CharSet.mem_single.mpr rfl)]
    by_cases hx : x ∈ ['x', 'X']
    · rw [ways_cat_one rfl (CharSet.mem_ofList.mpr hx), head?_ways_hexDigits]
      have hd : d.rest = t := rfl
      by_cases hnone : hexDigits t = []
      · rw [hd, if_pos hnone, if_neg fun h => h.2 hnone]
        rfl
      · rw [hd, if_neg hnone, if_pos ⟨hx, hnone⟩, Option.map_some, Option.map_some,
          Cursor.behind_cons hrest, Cursor.behind_cons rfl]
    · have hmark : ways origin (cat (one (.ofList ['x', 'X'])) <|
          cat (star (one (hexDigit.union (.single '_')))) (one hexDigit))
          ⟨m.stop.past '0' (x :: t), m.captures⟩ = [] := by
        refine ways_eq_nil rfl rfl ?_
        have hmem := CharSet.mem_ofList.not.mpr hx
        simpa [begins, nullable] using hmem
      rw [hmark, if_neg fun h => hx h.1]
      rfl
  · rename_i hnone
    rw [ways_hexPattern_eq_nil hnone]
    rfl

/-! ### The rules -/

variable {c : Cursor} {x : Char} {rest : Text}

/-- A rule that gives one token matches what the preferred way through its pattern takes. -/
lemma match?_fixed {s : State} {name : String} {kind : TokenKind} {p : Pattern}
    (hr : fixed name kind p ∈ rules s) (hne : c.rest ≠ []) {found : Option Text}
    (hways : (ways c.offset p ⟨c, .none⟩).head?.map (·.stop) = found.map c.behind) :
    (fixed name kind p).match? c = found.map fun t => ⟨c, c.behind t, []⟩ := by
  have happlies : (fixed name kind p).applies c = true := by
    simp [Rule.applies, fixed, Rule.anchored, hne]
  have hanchored : (fixed name kind p).pattern.ways c.offset ⟨c, .none⟩
      = ways c.offset p ⟨c, .none⟩ := ways_anchored p c .none
  have hmap := congrArg (Option.map fun d => (⟨c, d, []⟩ : RuleMatch)) hways
  rw [Option.map_map, Option.map_map] at hmap
  rw [match?_eq hr happlies, hanchored]
  exact hmap

/-- The rules outside of quotes that go before those for numbers. -/
def beforeNumbers : List Rule := rootRules.takeWhile (· ∉ numberRules)

lemma exists_rootRules_eq_numbers :
    ∃ behind, rootRules = beforeNumbers ++ (numberRules ++ behind) :=
  ⟨[fixed "separator" .delimiter (oneOf [',', ';'])], by decide⟩

lemma mem_of_isDigit (hx : x.isDigit = true) :
    x ∈ ['0', '1', '2', '3', '4', '5', '6', '7', '8', '9'] := by
  obtain ⟨hle, hge⟩ := Char.isDigit_iff_toNat.mp hx
  rw [← Char.ofNat_toNat x]
  generalize x.toNat = n at hle hge
  have hle : 48 ≤ n := hle
  have hge : n ≤ 57 := hge
  interval_cases n <;> decide

/-- None of them matches at a digit. -/
lemma match?_beforeNumbers (hrest : c.rest = x :: rest) (hx : x.isDigit = true) :
    ∀ r ∈ beforeNumbers, r.match? c = none := by
  have hbefore : ∀ r ∈ beforeNumbers, r ∈ rules .root
      ∧ ['0', '1', '2', '3', '4', '5', '6', '7', '8', '9'].all (!r.pattern.begins ·) = true := by
    decide
  intro r hr
  obtain ⟨hroot, hbegins⟩ := hbefore r hr
  have hx := List.all_eq_true.mp hbegins x (mem_of_isDigit hx)
  exact match?_eq_none_of_begins hroot hrest (Bool.not_inj hx)

/-- Of the rules for numbers the first one that matches takes the number that counts. -/
lemma exists_match?_numeral (hrest : c.rest = x :: rest) (hx : x.isDigit = true) :
    ∃ before name p behind,
      numberRules = before ++ fixed name (numeral c.rest).1 p :: behind
        ∧ (∀ r ∈ before, r.match? c = none)
        ∧ (fixed name (numeral c.rest).1 p).match? c
          = some ⟨c, c.behind (numeral c.rest).2, []⟩ := by
  have hne : c.rest ≠ [] := by
    rw [hrest]
    exact List.cons_ne_nil _ _
  have hfloat := match?_fixed (show fixed "float" .float fractionPattern ∈ rules .root by decide)
    hne (head?_ways_fraction ⟨c, .none⟩)
  have hhex := match?_fixed (show fixed "hex" .hex hexPattern ∈ rules .root by decide)
    hne (head?_ways_hexadecimal ⟨c, .none⟩)
  have hdigits : digits c.rest ≠ [] := by
    rw [hrest, digits, List.takeWhile_cons_of_pos hx]
    exact List.cons_ne_nil _ _
  have hway : (ways c.offset (plus (one digit)) ⟨c, .none⟩).head?.map (·.stop)
      = (some (digits c.rest)).map c.behind := by
    rw [head?_ways_digits, if_neg hdigits]
    rfl
  have hinteger := match?_fixed
    (show fixed "integer" .number (plus (one digit)) ∈ rules .root by decide) hne hway
  -- the first number there is, in the order of the rules
  rw [numberRules_eq, numeral]
  cases hfraction : fraction? c.rest with
  | some t =>
      rw [hfraction] at hfloat
      exact ⟨[], _, _, _, rfl, fun r hr => absurd hr List.not_mem_nil, hfloat⟩
  | none =>
      rw [hfraction] at hfloat
      cases hhexadecimal : hexadecimal? c.rest with
      | some t =>
          rw [hhexadecimal] at hhex
          exact ⟨_, _, _, _, rfl, List.forall_mem_singleton.mpr hfloat, hhex⟩
      | none =>
          rw [hhexadecimal] at hhex
          exact ⟨_, _, _, _, rfl, List.forall_mem_cons.mpr
            ⟨hfloat, List.forall_mem_singleton.mpr hhex⟩, hinteger⟩

end Shell

namespace Language

namespace IsShell

open Shell

variable {l : Language} {s : LineState} {c : Cursor} {x : Char} {rest : Text}

/-- At a digit outside of quotes, a step takes the number that counts, and keeps the state. -/
lemma step_numeral (hl : l.IsShell)
    (hs : s.current = .root ∨ s.current = .heredoc ∧ c.offset ≠ 0) (hrest : c.rest = x :: rest)
    (hx : x.isDigit = true) :
    l.step s c x rest = ⟨[.ofSpan (c.spanTo (c.behind (numeral c.rest).2)) (numeral c.rest).1], s,
      c.behind (numeral c.rest).2⟩ := by
  -- the end of a here-document is not behind the start of a line
  obtain ⟨ending, hending, hnone⟩ : ∃ ending, l.rules s.current = ending ++ rootRules
      ∧ ∀ r ∈ ending, r.match? c = none := by
    rw [hl.rules_eq]
    rcases hs with hs | ⟨hs, hoffset⟩
    · exact ⟨[], by rw [hs]; rfl, fun r hr => absurd hr List.not_mem_nil⟩
    · refine ⟨[heredocEnd], by rw [hs]; rfl, List.forall_mem_singleton.mpr ?_⟩
      exact Option.eq_none_iff_forall_ne_some.mpr fun m hm => hoffset (of_match?_heredocEnd hm).1
  obtain ⟨later, hroot⟩ := exists_rootRules_eq_numbers
  obtain ⟨before, name, p, behind, hnumbers, hbefore, hmatch⟩ := exists_match?_numeral hrest hx
  have hrules : l.rules s.current = (ending ++ beforeNumbers ++ before)
      ++ fixed name (numeral c.rest).1 p :: (behind ++ later) := by
    rw [hending, hroot, hnumbers]
    simp
  have hothers : ∀ r ∈ ending ++ beforeNumbers ++ before, r.match? c = none := by
    simp only [List.forall_mem_append]
    exact ⟨⟨hnone, match?_beforeNumbers hrest hx⟩, hbefore⟩
  rw [step_of_match (firstMatch?_of_rules hrules hothers hmatch rfl)]
  rfl

/-- **Wherever the tokenizer comes to a digit outside of quotes, the next token is the number that
stands there**, and the state stays what it is: in the root, and in a here-document behind the start
of a line. If a point and a digit follow the digits, the number is a fraction, with all digits
behind the point, and an exponent if that has a digit. Or else it is a hexadecimal number, if there
is one, up to its last digit. Or else it is all digits. -/
theorem tokenizeLine_numeral (hl : l.IsShell) (line : Text) (start : LineState) :
    ∀ v ∈ l.visits line start, ∀ x ∈ v.place.rest.head?, x.isDigit = true →
      (v.state.current = .root ∨ v.state.current = .heredoc ∧ v.place.offset ≠ 0) →
      let number := numeral v.place.rest
      let next : Visit := ⟨v.state, v.place.behind number.2⟩
      number.2 <+: v.place.rest
        ∧ ∃ before after, l.stops line start = before ++ v :: next :: after
          ∧ l.tokensAt v = [.ofSpan (v.place.spanTo next.place) number.1]
          ∧ (l.tokenizeLine line start).tokens
            = before.flatMap l.tokensAt ++ .ofSpan (v.place.spanTo next.place) number.1 ::
              (next :: after).flatMap l.tokensAt := by
  intro v hv x hhead hx hs number next
  obtain ⟨rest, hrest⟩ := List.head?_eq_some_iff.mp hhead
  have hstep := hl.step_numeral hs hrest hx
  obtain ⟨before, after, hstops⟩ : ∃ before after,
      l.stops line start = before ++ v :: next :: after := by
    have hnext := exists_stopsFrom_eq (c := .start line) (Nat.le_refl _) hv hrest
    rwa [hstep] at hnext
  have htokens : l.tokensAt v = [.ofSpan (v.place.spanTo next.place) number.1] := by
    rw [tokensAt_eq hrest, hstep]
  refine ⟨numeral_isPrefix _, before, after, hstops, htokens, ?_⟩
  rw [tokens_tokenizeLine_stops, hstops, List.flatMap_append, List.flatMap_cons, htokens]
  rfl

/-- A hexadecimal number ends behind its last digit, also in front of a point. -/
theorem tokenizeLine_numeral_underscore :
    let line : Text := ['0', 'x', '1', '_', '.', '5']
    (⟨.root, .start line⟩ : Visit) ∈ shell.visits line .root
      ∧ shell.tokensAt ⟨.root, .start line⟩ = [⟨⟨0, 3⟩, .hex⟩]
      ∧ ∃ before after, shell.stops line .root
        = before ++ ⟨.root, .start line⟩ :: ⟨.root, ⟨3, ['_', '.', '5']⟩⟩ :: after := by
  intro line
  have hmem : (⟨.root, .start line⟩ : Visit) ∈ shell.visits line .root := List.mem_cons_self
  obtain ⟨-, before, after, hstops, htokens, -⟩ := tokenizeLine_numeral (l := shell) (Or.inl rfl)
    line .root _ hmem '0' rfl (by decide) (Or.inl rfl)
  have hnumeral : numeral (Cursor.start line).rest = (.hex, ['0', 'x', '1']) := by decide
  simp only [hnumeral] at hstops htokens
  exact ⟨hmem, htokens, before, after, hstops⟩

end IsShell

end Language

end ShellSyntax
