import Mathlib.Data.List.Basic
import Mathlib.Data.List.Chain
import Mathlib.Tactic.Common
import ShellSyntax.Proofs.Pattern.CharSet
import ShellSyntax.Proofs.Pattern.Runs
import ShellSyntax.Proofs.Shell.Rules

/-!
Where quotes and expansions end.

* `Shell.scan`: a scanner that reads a text character by character and knows nothing but the ends of
  the bodies, the openings of expansions within double quotes, and the marks behind a dollar sign
  that go with it. `Shell.scanFrom_ends`: it goes on as long as it is in a body;
* `Shell.ScansTo`: the scanner comes from one place to another;
* `Shell.BodyRule`, `Shell.bodyRule_of_mem`: what the rules of the bodies take.
  `Shell.scansTo_of_match`: a match of one leads to where the scanner comes;
* `Language.IsShell.exists_firstMatch?`, `Language.IsShell.ne_dollarRule`: in a body some rule
  matches, and a dollar sign is not taken alone where it opens an expansion;
* `Language.Agrees`, `Language.IsShell.agrees_scan`: up to the end of the bodies the tokenizer stops
  only where the scanner comes, with the same states.
-/

namespace ShellSyntax

namespace Shell

open Pattern

/-! ### A scanner for quotes and expansions -/

/-- The character that ends a body. -/
def closer? : State → Option Char
  | .root | .heredoc => none
  | .singleQuoted | .ansiQuoted => some singleQuote
  | .doubleQuoted | .localeQuoted => some doubleQuote
  | .substitution => some ')'
  | .expansion => some '\x7d'

/-- What the end of a body does: a quote leaves all states, an expansion only itself. -/
def closing : State → Transition
  | .singleQuoted | .doubleQuoted => .popAll
  | _ => .pop

/-- What a character does in a body. -/
def charEffect (b : State) (x : Char) : Transition :=
  if closer? b = some x then closing b else .stay

/-- What two characters do together: within double quotes, a dollar sign and a bracket open an
expansion, and a dollar sign and a mark are a parameter. -/
def pairEffect? (b : State) (x y : Char) : Option Transition :=
  if b = .doubleQuoted ∧ x = '$' then
    if y = '(' then some (.push .substitution)
    else if y = '\x7b' then some (.push .expansion)
    else if y ∈ ['*', '@', '#', '?', '-', '$', '!'] then some .stay
    else none
  else none

/-- The places a scanner comes to that reads a text character by character, with its states there.
It stops behind the bodies it began in, or at the end of the text. -/
def scan : LineState → ℕ → Text → List Language.Visit
  | s, offset, [] => [⟨s, ⟨offset, []⟩⟩]
  | s, offset, [x] =>
    ⟨s, ⟨offset, [x]⟩⟩ ::
      if s.current ∈ bodies then
        [⟨s.apply (charEffect s.current x), ⟨offset + x.utf8Size, []⟩⟩]
      else []
  | s, offset, x :: y :: rest =>
    ⟨s, ⟨offset, x :: y :: rest⟩⟩ ::
      if s.current ∈ bodies then
        match pairEffect? s.current x y with
        | some t => scan (s.apply t) (offset + x.utf8Size + y.utf8Size) rest
        | none => scan (s.apply (charEffect s.current x)) (offset + x.utf8Size) (y :: rest)
      else []

/-- The places the scanner comes to from a visit on. -/
def scanFrom (v : Language.Visit) : List Language.Visit := scan v.state v.place.offset v.place.rest

/-- The scanner comes from one visit to another, later one. -/
def ScansTo (v w : Language.Visit) : Prop := scanFrom w <:+ (scanFrom v).tail

/-- The kinds of the tokens in a body. -/
def bodyKinds : State → List TokenKind
  | .root | .heredoc => []
  | .singleQuoted => [.string]
  | .doubleQuoted => [.string, .parameter, .predefinedParameter]
  | .ansiQuoted | .localeQuoted | .substitution | .expansion => [.parameter, .delimiter]

/-! ### One character, two characters, and many -/

variable {v w : Language.Visit} {b : State} {x y : Char} {rest : Text}

/-- The scanner begins where it is put. -/
lemma exists_scanFrom_eq_cons (v : Language.Visit) : ∃ later, scanFrom v = v :: later := by
  obtain ⟨s, offset, text⟩ := v
  match text with
  | [] => exact ⟨[], rfl⟩
  | [x] => exact ⟨_, rfl⟩
  | x :: y :: rest => exact ⟨_, rfl⟩

lemma scanFrom_of_nil (hrest : v.place.rest = []) : scanFrom v = [v] := by
  obtain ⟨s, offset, text⟩ := v
  obtain rfl : text = [] := hrest
  rfl

lemma scanFrom_of_notMem (hb : v.state.current ∉ bodies) : scanFrom v = [v] := by
  obtain ⟨s, offset, text⟩ := v
  match text with
  | [] => rfl
  | [x] => rw [scanFrom, scan, if_neg hb]
  | x :: y :: rest => rw [scanFrom, scan, if_neg hb]

lemma scanFrom_char (hb : v.state.current ∈ bodies) (hrest : v.place.rest = x :: rest)
    (hpair : ∀ y ∈ rest.head?, pairEffect? v.state.current x y = none) :
    scanFrom v
      = v :: scanFrom ⟨v.state.apply (charEffect v.state.current x), v.place.past x rest⟩ := by
  obtain ⟨s, offset, text⟩ := v
  obtain rfl : text = x :: rest := hrest
  cases rest with
  | nil =>
      rw [scanFrom, scan, if_pos hb]
      rfl
  | cons y rest =>
      have hnone : pairEffect? s.current x y = none := hpair y rfl
      rw [scanFrom, scan, if_pos hb]
      simp only [hnone]
      rfl

lemma scanFrom_pair (hb : v.state.current ∈ bodies) (hrest : v.place.rest = x :: y :: rest)
    {t : Transition} (hpair : pairEffect? v.state.current x y = some t) :
    scanFrom v
      = v :: scanFrom ⟨v.state.apply t, (v.place.past x (y :: rest)).past y rest⟩ := by
  obtain ⟨s, offset, text⟩ := v
  obtain rfl : text = x :: y :: rest := hrest
  have hsome : pairEffect? s.current x y = some t := hpair
  rw [scanFrom, scan, if_pos hb]
  simp only [hsome]
  rfl

/-- In a body the scanner goes on by a character or two. -/
lemma exists_scanFrom_eq (hb : v.state.current ∈ bodies) (hrest : v.place.rest = x :: rest) :
    ∃ w : Language.Visit, w.place.rest.length < v.place.rest.length
      ∧ scanFrom v = v :: scanFrom w := by
  by_cases hpair : ∀ y ∈ rest.head?, pairEffect? v.state.current x y = none
  · refine ⟨_, ?_, scanFrom_char hb hrest hpair⟩
    rw [hrest, List.length_cons]
    exact Nat.lt_succ_self _
  · simp only [not_forall] at hpair
    obtain ⟨y, hy, hpair⟩ := hpair
    obtain ⟨rest, rfl⟩ := List.head?_eq_some_iff.mp hy
    obtain ⟨t, ht⟩ := Option.ne_none_iff_exists'.mp hpair
    refine ⟨_, ?_, scanFrom_pair hb hrest ht⟩
    rw [hrest, List.length_cons, List.length_cons]
    show rest.length < rest.length + 1 + 1
    omega

/-- The scanner goes on as long as it is in a body and there is text, and no longer. -/
lemma scanFrom_ends (v : Language.Visit) : ∃ before point, scanFrom v = before ++ [point]
    ∧ (∀ w ∈ before, w.state.current ∈ bodies ∧ w.place.rest ≠ [])
    ∧ (point.state.current ∈ bodies → point.place.rest = []) := by
  induction hlength : v.place.rest.length using Nat.strong_induction_on generalizing v with
  | _ n ih =>
      cases hrest : v.place.rest with
      | nil => exact ⟨[], v, scanFrom_of_nil hrest, by simp, fun _ => hrest⟩
      | cons x rest =>
          by_cases hb : v.state.current ∈ bodies
          · obtain ⟨w, hlt, hscan⟩ := exists_scanFrom_eq hb hrest
            rw [hlength] at hlt
            obtain ⟨before, point, heq, hbefore, hpoint⟩ := ih _ hlt w rfl
            refine ⟨v :: before, point, by rw [hscan, heq]; rfl, ?_, hpoint⟩
            exact List.forall_mem_cons.mpr ⟨⟨hb, by simp [hrest]⟩, hbefore⟩
          · exact ⟨[], v, scanFrom_of_notMem hb, by simp, fun h => absurd h hb⟩

/-- A character that has no effect in a body, whatever follows it. -/
def IsPlain (b : State) (x : Char) : Prop :=
  charEffect b x = .stay ∧ ∀ y, pairEffect? b x y = none

/-- The scanner goes over plain characters. -/
lemma suffix_scanFrom (hb : v.state.current ∈ bodies) {t : Text} (hrest : v.place.rest = t ++ rest)
    (ht : ∀ x ∈ t, IsPlain v.state.current x) :
    scanFrom ⟨v.state, ⟨v.place.offset + t.size, rest⟩⟩ <:+ scanFrom v := by
  induction t generalizing v with
  | nil =>
      obtain ⟨s, offset, text⟩ := v
      obtain rfl : text = rest := hrest
      exact List.suffix_refl _
  | cons x t ih =>
      obtain ⟨⟨hstay, hnone⟩, ht⟩ := List.forall_mem_cons.mp ht
      have hlater := ih (v := ⟨v.state, v.place.past x (t ++ rest)⟩) hb rfl ht
      rw [scanFrom_char hb hrest fun y _ => hnone y, hstay, Text.size_cons, ← Nat.add_assoc]
      exact hlater.trans (List.suffix_cons _ _)

namespace ScansTo

lemma char (hb : v.state.current ∈ bodies) (hrest : v.place.rest = x :: rest)
    (hpair : ∀ y ∈ rest.head?, pairEffect? v.state.current x y = none) :
    ScansTo v ⟨v.state.apply (charEffect v.state.current x), v.place.past x rest⟩ := by
  rw [ScansTo, scanFrom_char hb hrest hpair]
  exact List.suffix_refl _

lemma pair (hb : v.state.current ∈ bodies) (hrest : v.place.rest = x :: y :: rest)
    {t : Transition} (hpair : pairEffect? v.state.current x y = some t) :
    ScansTo v ⟨v.state.apply t, (v.place.past x (y :: rest)).past y rest⟩ := by
  rw [ScansTo, scanFrom_pair hb hrest hpair]
  exact List.suffix_refl _

/-- The scanner goes over a character without effect, and over plain ones behind it. -/
lemma plain (hb : v.state.current ∈ bodies) {t : Text}
    (hrest : v.place.rest = x :: (t ++ rest)) (hx : charEffect v.state.current x = .stay)
    (hpair : ∀ y ∈ (t ++ rest).head?, pairEffect? v.state.current x y = none)
    (ht : ∀ y ∈ t, IsPlain v.state.current y) :
    ScansTo v ⟨v.state, ⟨v.place.offset + Text.size (x :: t), rest⟩⟩ := by
  have hlater : scanFrom ⟨v.state, ⟨v.place.offset + x.utf8Size + t.size, rest⟩⟩
      <:+ scanFrom ⟨v.state, v.place.past x (t ++ rest)⟩ :=
    suffix_scanFrom (v := ⟨v.state, v.place.past x (t ++ rest)⟩) hb rfl ht
  rw [ScansTo, scanFrom_char hb hrest hpair, hx, Text.size_cons, ← Nat.add_assoc, List.tail_cons]
  exact hlater

/-- The scanner goes over a run of plain characters. -/
lemma run (hb : v.state.current ∈ bodies) {t : Text} (hne : t ≠ [])
    (hrest : v.place.rest = t ++ rest) (ht : ∀ y ∈ t, IsPlain v.state.current y) :
    ScansTo v ⟨v.state, ⟨v.place.offset + t.size, rest⟩⟩ := by
  obtain ⟨x, t, rfl⟩ := List.exists_cons_of_ne_nil hne
  obtain ⟨⟨hx, hpair⟩, ht⟩ := List.forall_mem_cons.mp ht
  exact .plain hb hrest hx (fun y _ => hpair y) ht

/-- The scanner goes over a dollar sign and a run of plain characters that are nothing together with
it. -/
lemma dollar (hb : v.state.current ∈ bodies) {t : Text} (hne : t ≠ [])
    (hrest : v.place.rest = '$' :: (t ++ rest)) (hdollar : charEffect v.state.current '$' = .stay)
    (ht : ∀ y ∈ t, pairEffect? v.state.current '$' y = none ∧ IsPlain v.state.current y) :
    ScansTo v ⟨v.state, ⟨v.place.offset + Text.size ('$' :: t), rest⟩⟩ := by
  refine .plain hb hrest hdollar ?_ fun y hy => (ht y hy).2
  obtain ⟨z, t, rfl⟩ := List.exists_cons_of_ne_nil hne
  intro y hy
  obtain rfl : z = y := Option.some.inj hy
  exact (ht z List.mem_cons_self).1

end ScansTo

/-! ### The rules of bodies -/

/-- The rule for a dollar sign that begins nothing. -/
def dollarRule : Rule := fixed "double_quote_dollar" .string (char '$')

/-- What a rule of a body takes, and what the scanner makes of it. -/
inductive BodyRule (b : State) (r : Rule) : Prop where
  /-- Plain characters. -/
  | text (set : CharSet)
      (hpattern : r.pattern = cat .atStart (one set) ∨ r.pattern = cat .atStart (plus (one set)))
      (hstay : r.transition = .stay) (hset : ∀ x, set.mem x = true → IsPlain b x)
  /-- The end of the body. -/
  | closer (x : Char) (hpattern : r.pattern = cat .atStart (char x))
      (hx : charEffect b x = r.transition) (hnone : ∀ y, pairEffect? b x y = none)
  /-- A dollar sign and a name. -/
  | name (set : CharSet) (hpattern : r.pattern = cat .atStart (cat (char '$') (plus (one set))))
      (hstay : r.transition = .stay) (hdollar : charEffect b '$' = .stay)
      (hset : ∀ x, set.mem x = true → pairEffect? b '$' x = none ∧ IsPlain b x)
  /-- A dollar sign and another character that goes with it. -/
  | pair (cs : List Char) (hpattern : r.pattern = cat .atStart (cat (char '$') (oneOf cs)))
      (hdollar : charEffect b '$' = .stay)
      (hcs : ∀ x ∈ cs, pairEffect? b '$' x = some r.transition
        ∨ r.transition = .stay ∧ pairEffect? b '$' x = none ∧ charEffect b x = .stay
          ∧ x ≠ '$')
  /-- A dollar sign alone. -/
  | dollar (hr : r = dollarRule) (hdollar : charEffect b '$' = .stay)

lemma isPlain_of_ne {b : State} {x : Char} (hx : closer? b ≠ some x)
    (hdollar : b = .doubleQuoted → x ≠ '$') : IsPlain b x := by
  refine ⟨if_neg hx, fun y => if_neg ?_⟩
  rintro ⟨hb, rfl⟩
  exact hdollar hb rfl

/-- What a name consists of has no effect. -/
lemma isPlain_of_apart {set : CharSet}
    (hset : set.Apart (.ofList ['"', '$', '(', '\x7b', '*', '@', '#', '?', '-', '!'])) {x : Char}
    (hx : set.mem x = true) :
    pairEffect? .doubleQuoted '$' x = none ∧ IsPlain .doubleQuoted x := by
  have hmarks : x ∉ ['"', '$', '(', '\x7b', '*', '@', '#', '?', '-', '!'] := by
    rw [← CharSet.mem_ofList, hset.mem_eq_false hx]
    exact Bool.false_ne_true
  simp only [List.mem_cons, List.not_mem_nil, or_false, not_or] at hmarks
  obtain ⟨hquote, hdollar, hround, hcurly, hrest⟩ := hmarks
  refine ⟨?_, isPlain_of_ne ?_ fun _ => hdollar⟩
  · simp [pairEffect?, hdollar, hround, hcurly, hrest]
  · simpa [closer?, doubleQuote] using Ne.symm hquote

lemma bodyRule_doubleQuoted : ∀ r ∈ rules .doubleQuoted, BodyRule .doubleQuoted r := by
  have htext : ∀ x, (CharSet.except [doubleQuote, '$']).mem x = true → IsPlain .doubleQuoted x := by
    intro x hx
    rw [CharSet.mem_except] at hx
    simp only [List.mem_cons, List.not_mem_nil, or_false, not_or] at hx
    exact isPlain_of_ne (by simpa [closer?] using Ne.symm hx.1) fun _ => hx.2
  have hmark : ∀ x ∈ ['*', '@', '#', '?', '-', '$', '!', '0', '_'],
      pairEffect? .doubleQuoted '$' x = some .stay
        ∨ Transition.stay = .stay ∧ pairEffect? .doubleQuoted '$' x = none
          ∧ charEffect .doubleQuoted x = .stay ∧ x ≠ '$' := by
    intro x hx
    simp only [List.mem_cons, List.not_mem_nil, or_false] at hx
    rcases hx with rfl | rfl | rfl | rfl | rfl | rfl | rfl | rfl | rfl <;> decide
  intro r hr
  simp only [rules, doubleQuotedRules, simpleParameterRules, expansionRules, List.cons_append,
    List.nil_append, List.mem_cons, List.not_mem_nil, or_false] at hr
  rcases hr with rfl | rfl | rfl | rfl | rfl | rfl | rfl | rfl
  · exact .closer doubleQuote rfl rfl fun y => rfl
  · exact .name digit rfl rfl rfl fun x => isPlain_of_apart (by decide)
  · exact .name nameChar rfl rfl rfl fun x => isPlain_of_apart (by decide)
  · exact .pair _ rfl rfl hmark
  · exact .pair ['('] rfl rfl (List.forall_mem_singleton.mpr (Or.inl rfl))
  · exact .pair ['\x7b'] rfl rfl (List.forall_mem_singleton.mpr (Or.inl rfl))
  · exact .text _ (Or.inr rfl) rfl htext
  · exact .dollar rfl rfl

lemma bodyRule_parameterBody {b : State} {q : Char} (hb : b ≠ .doubleQuoted)
    (hq : closer? b = some q) (hclosing : closing b = .pop) (hpunctuation : q ∉ bodyPunctuation) :
    ∀ r ∈ parameterBodyRules q, BodyRule b r := by
  have hplain : ∀ x, x ≠ q → IsPlain b x := fun x hx =>
    isPlain_of_ne (by simpa [hq] using Ne.symm hx) fun h => absurd h hb
  intro r hr
  simp only [parameterBodyRules, List.mem_cons, List.not_mem_nil, or_false] at hr
  rcases hr with rfl | rfl | rfl
  · refine .text _ (Or.inr rfl) rfl fun x hx => hplain x ?_
    rw [CharSet.mem_except, List.mem_append, List.mem_singleton] at hx
    exact fun heq => hx (Or.inr heq)
  · refine .text _ (Or.inl rfl) rfl fun x hx => hplain x ?_
    rintro rfl
    exact hpunctuation (CharSet.mem_ofList.mp hx)
  · refine .closer q rfl ?_ fun y => if_neg fun h => hb h.1
    rw [charEffect, if_pos hq, hclosing]
    rfl

lemma bodyRule_of_mem : ∀ b ∈ bodies, ∀ r ∈ rules b, BodyRule b r := by
  intro b hb
  simp only [bodies, List.mem_cons, List.not_mem_nil, or_false] at hb
  rcases hb with rfl | rfl | rfl | rfl | rfl | rfl
  · intro r hr
    simp only [rules, singleQuotedRules, List.mem_cons, List.not_mem_nil, or_false] at hr
    rcases hr with rfl | rfl
    · exact .closer singleQuote rfl rfl fun y => rfl
    · refine .text _ (Or.inr rfl) rfl fun x hx => ?_
      rw [CharSet.mem_except, List.mem_singleton] at hx
      exact isPlain_of_ne (by simpa [closer?] using Ne.symm hx) fun h => by cases h
  · exact bodyRule_doubleQuoted
  · exact bodyRule_parameterBody (by decide) rfl rfl (by decide)
  · exact bodyRule_parameterBody (by decide) rfl rfl (by decide)
  · exact bodyRule_parameterBody (by decide) rfl rfl (by decide)
  · exact bodyRule_parameterBody (by decide) rfl rfl (by decide)

/-! ### Where the rules of bodies lead -/

variable {s : LineState} {c : Cursor} {r : Rule} {m : RuleMatch}

/-- A way through two patterns, the first of which takes a given character. -/
lemma mem_ways_char_cat {p : Pattern} {origin : ℕ} {cs : Captures} {n : PatternMatch}
    (h : n ∈ (cat (char x) p).ways origin ⟨c, cs⟩) :
    ∃ rest, c.rest = x :: rest ∧ n ∈ p.ways origin ⟨c.past x rest, cs⟩ := by
  obtain ⟨k, hk, hn⟩ := List.mem_flatMap.mp h
  obtain ⟨y, rest, hrest, hy, rfl⟩ := PatternMatch.mem_take.mp hk
  obtain rfl := CharSet.mem_single.mp hy
  exact ⟨rest, hrest, hn⟩

/-- What plain characters are taken by, one or many, leads to where the scanner comes. -/
lemma scansTo_text (hb : s.current ∈ bodies) {p : Pattern} {set : CharSet}
    (hp : p = cat .atStart (one set) ∨ p = cat .atStart (plus (one set)))
    (hset : ∀ x, set.mem x = true → IsPlain s.current x) {n : PatternMatch}
    (hn : n ∈ p.ways c.offset ⟨c, .none⟩) : ScansTo ⟨s, c⟩ ⟨s, n.stop⟩ := by
  rcases hp with rfl | rfl <;> rw [ways_anchored] at hn
  · obtain ⟨x, rest, hrest, hx, rfl⟩ := PatternMatch.mem_take.mp hn
    exact .run (t := [x]) hb (List.cons_ne_nil x []) hrest
      (List.forall_mem_singleton.mpr (hset x hx))
  · obtain ⟨t, rest, hne, hrest, ht, rfl⟩ := mem_ways_plus_one.mp hn
    exact .run hb hne hrest fun x hx => hset x (ht x hx)

/-- So does a dollar sign with a name behind it. -/
lemma scansTo_name (hb : s.current ∈ bodies) (hdollar : charEffect s.current '$' = .stay)
    {set : CharSet} (hset : ∀ x, set.mem x = true →
      pairEffect? s.current '$' x = none ∧ IsPlain s.current x) {n : PatternMatch}
    (hn : n ∈ (cat (char '$') (plus (one set))).ways c.offset ⟨c, .none⟩) :
    ScansTo ⟨s, c⟩ ⟨s, n.stop⟩ := by
  obtain ⟨rest, hrest, hn⟩ := mem_ways_char_cat hn
  obtain ⟨t, rest, hne, rfl, ht, rfl⟩ := mem_ways_plus_one.mp hn
  have hname := ScansTo.dollar (v := ⟨s, c⟩) hb hne hrest hdollar fun y hy => hset y (ht y hy)
  rwa [Text.size_cons, ← Nat.add_assoc] at hname

/-- So does a dollar sign with a character that goes with it, or that has no effect behind it. -/
lemma scansTo_mark (hb : s.current ∈ bodies) (hdollar : charEffect s.current '$' = .stay)
    {t : Transition} (hrest : c.rest = '$' :: y :: rest)
    (hy : pairEffect? s.current '$' y = some t
      ∨ t = .stay ∧ pairEffect? s.current '$' y = none ∧ charEffect s.current y = .stay
        ∧ y ≠ '$') :
    ScansTo ⟨s, c⟩ ⟨s.apply t, (c.past '$' (y :: rest)).past y rest⟩ := by
  rcases hy with hpair | ⟨rfl, hnone, hstay, hne⟩
  · exact .pair hb hrest hpair
  · have hplain : IsPlain s.current y := ⟨hstay, fun z => if_neg fun h => hne h.2⟩
    have hmark : ScansTo ⟨s, c⟩ ⟨s, ⟨c.offset + Text.size ['$', y], rest⟩⟩ :=
      .dollar (t := [y]) hb (List.cons_ne_nil y []) hrest hdollar
        (List.forall_mem_singleton.mpr ⟨hnone, hplain⟩)
    rwa [Text.size_cons, Text.size_cons, Text.size_nil, Nat.add_zero, ← Nat.add_assoc] at hmark

/-- A match of a rule of a body leads to where the scanner comes, unless a dollar sign stands before
a character that goes with it. -/
lemma scansTo_of_match (hb : s.current ∈ bodies) (hr : r ∈ rules s.current)
    (hm : r.match? c = some m)
    (hlone : r = dollarRule → ∀ rest, c.rest = '$' :: rest →
      ∀ y ∈ rest.head?, pairEffect? s.current '$' y = none) :
    ScansTo ⟨s, c⟩ ⟨s.apply r.transition, m.stop⟩ := by
  obtain ⟨n, hn, rfl⟩ := mem_ways_of_match hr hm
  show ScansTo ⟨s, c⟩ ⟨s.apply r.transition, n.stop⟩
  cases bodyRule_of_mem s.current hb r hr with
  | text set hpattern hstay hset =>
      rw [hstay]
      exact scansTo_text hb hpattern hset hn
  | closer x hpattern hx hnone =>
      rw [hpattern, ways_anchored] at hn
      obtain ⟨y, rest, hrest, hy, rfl⟩ := PatternMatch.mem_take.mp hn
      obtain rfl := CharSet.mem_single.mp hy
      rw [← hx]
      exact .char hb hrest fun y _ => hnone y
  | name set hpattern hstay hdollar hset =>
      rw [hpattern, ways_anchored] at hn
      rw [hstay]
      exact scansTo_name hb hdollar hset hn
  | pair cs hpattern hdollar hcs =>
      rw [hpattern, ways_anchored] at hn
      obtain ⟨rest, hrest, hn⟩ := mem_ways_char_cat hn
      obtain ⟨y, rest, rfl, hy, rfl⟩ := PatternMatch.mem_take.mp hn
      exact scansTo_mark hb hdollar hrest (hcs y (CharSet.mem_ofList.mp hy))
  | dollar hr hdollar =>
      -- this rule also matches where the scanner takes two characters, so `hlone` is needed
      subst hr
      rw [dollarRule, fixed, Rule.anchored, ways_anchored] at hn
      obtain ⟨y, rest, hrest, hy, rfl⟩ := PatternMatch.mem_take.mp hn
      obtain rfl := CharSet.mem_single.mp hy
      have hchar := ScansTo.char (v := ⟨s, c⟩) hb hrest (hlone rfl rest hrest)
      rwa [hdollar] at hchar

/-! ### Which rule of a body matches -/

/-- The rules of bodies need not stand at the start of a line, look at no tag, and give one
token. -/
lemma body_rules : ∀ b ∈ bodies, ∀ r ∈ rules b, r.lineStart = false ∧ r.tag = .ignore
    ∧ ∃ kind ∈ bodyKinds b, r.classify = .fixed kind := by
  decide

/-- Where there is a way through the pattern of one of some rules, one of them matches. -/
lemma exists_findSome? (hb : b ∈ bodies) {rs : List Rule} (hrs : ∀ r ∈ rs, r ∈ rules b)
    (hrest : c.rest ≠ []) (hr : r ∈ rs) {n : PatternMatch}
    (hn : n ∈ r.pattern.ways c.offset ⟨c, .none⟩) (tag : Option Text) :
    ∃ r' ∈ rs, ∃ m, rs.findSome? (fun r =>
      ((r.match? c).filter (r.accepts · tag)).map (r, ·)) = some (r', m) := by
  -- the rule asks for nothing but its pattern, so it matches
  obtain ⟨hlineStart, htag, -⟩ := body_rules b hb r (hrs r hr)
  have happlies : r.applies c = true := by simp [Rule.applies, hlineStart, hrest]
  obtain ⟨k, hk⟩ := Option.isSome_iff_exists.mp (List.isSome_head?.mpr (List.ne_nil_of_mem hn))
  have hmatch := match?_eq_some (hrs r hr) happlies hk
  have haccepts : ∀ m, r.accepts m tag = true := fun m => by rw [Rule.accepts, htag]
  have hsome : (rs.findSome? fun r =>
      ((r.match? c).filter (r.accepts · tag)).map (r, ·)).isSome := by
    refine List.findSome?_isSome_iff.mpr ⟨r, hr, ?_⟩
    rw [hmatch, Option.filter_some, if_pos (haccepts _)]
    rfl
  -- an earlier rule may match as well: the one that is found is among the rules too
  obtain ⟨⟨r', m⟩, hfound⟩ := Option.isSome_iff_exists.mp hsome
  obtain ⟨r'', hr'', heq⟩ := List.exists_of_findSome?_eq_some hfound
  obtain ⟨m', -, heq⟩ := Option.map_eq_some_iff.mp heq
  obtain ⟨rfl, rfl⟩ := Prod.mk.inj heq
  exact ⟨r'', hr'', m', hfound⟩

/-- In a body, each character is the beginning of something. -/
lemma exists_way : ∀ b ∈ bodies, ∀ x, ∃ r ∈ rules b, ∃ set : CharSet, set.mem x = true
    ∧ (r.pattern = cat .atStart (one set) ∨ r.pattern = cat .atStart (plus (one set))) := by
  have hparameter : ∀ q x, ∃ r ∈ parameterBodyRules q, ∃ set : CharSet, set.mem x = true
      ∧ (r.pattern = cat .atStart (one set) ∨ r.pattern = cat .atStart (plus (one set))) := by
    intro q x
    simp only [parameterBodyRules, List.exists_mem_cons_iff, List.not_mem_nil, false_and,
      exists_false, or_false]
    by_cases hq : x = q
    · exact Or.inr (Or.inr ⟨_, CharSet.mem_single.mpr hq, Or.inl rfl⟩)
    · by_cases hx : x ∈ bodyPunctuation
      · exact Or.inr (Or.inl ⟨_, CharSet.mem_ofList.mpr hx, Or.inl rfl⟩)
      · exact Or.inl ⟨_, CharSet.mem_except.mpr (by simp [hx, hq]), Or.inr rfl⟩
  intro b hb x
  simp only [bodies, List.mem_cons, List.not_mem_nil, or_false] at hb
  rcases hb with rfl | rfl | rfl | rfl | rfl | rfl
  · simp only [rules, singleQuotedRules, List.exists_mem_cons_iff, List.not_mem_nil, false_and,
      exists_false, or_false]
    by_cases hx : x = singleQuote
    · exact Or.inl ⟨_, CharSet.mem_single.mpr hx, Or.inl rfl⟩
    · exact Or.inr ⟨_, CharSet.mem_except.mpr (by simp [hx]), Or.inr rfl⟩
  · by_cases hquote : x = doubleQuote
    · exact ⟨_, List.mem_cons_self, _, CharSet.mem_single.mpr hquote, Or.inl rfl⟩
    · by_cases hdollar : x = '$'
      · exact ⟨dollarRule, by decide, _, CharSet.mem_single.mpr hdollar, Or.inl rfl⟩
      · exact ⟨fixed "double_quote_text" .string (plus (one (.except [doubleQuote, '$']))),
          by decide, _, CharSet.mem_except.mpr (by simp [hquote, hdollar]), Or.inr rfl⟩
  · exact hparameter singleQuote x
  · exact hparameter doubleQuote x
  · exact hparameter ')' x
  · exact hparameter '\x7d' x

/-- A dollar sign before a character that goes with it is taken by a rule before `dollarRule`. -/
lemma exists_pair {t : Transition} (hpair : pairEffect? .doubleQuoted '$' y = some t) :
    ∃ r ∈ doubleQuotedRules.dropLast, ∃ set : CharSet, set.mem y = true
      ∧ r.pattern = cat .atStart (cat (char '$') (one set)) := by
  rw [pairEffect?, if_pos ⟨rfl, rfl⟩] at hpair
  split_ifs at hpair with hround hcurly hmark
  · refine ⟨(fixed "command_substitution" .parameter
      (sequence [char '$', char '('])).pushing .substitution, by decide, _, ?_, rfl⟩
    exact CharSet.mem_single.mpr hround
  · refine ⟨(fixed "expansion" .parameter
      (sequence [char '$', char '\x7b'])).pushing .expansion, by decide, _, ?_, rfl⟩
    exact CharSet.mem_single.mpr hcurly
  · refine ⟨fixed "special" .parameter
      (sequence [char '$', oneOf ['*', '@', '#', '?', '-', '$', '!', '0', '_']]), by decide, _, ?_,
      rfl⟩
    exact CharSet.mem_ofList.mpr (List.mem_append_left ['0', '_'] hmark)

end Shell

namespace Language

open Shell Pattern

/-- From one stop to the next there is one token, of a kind of the body. -/
def BodyToken (l : Language) (v w : Visit) : Prop :=
  ∃ kind ∈ bodyKinds v.state.current, l.tokensAt v = [.ofSpan (v.place.spanTo w.place) kind]

/-- Among the stops of the tokenizer is the last of the places of a scanner; those before it are
places of the scanner too, and there is one token from each to the next. -/
def Agrees (l : Language) (stops places : List Visit) : Prop :=
  ∃ before point after, stops = before ++ point :: after ∧ places.getLast? = some point
    ∧ List.Sublist (before ++ [point]) places ∧ List.IsChain l.BodyToken (before ++ [point])

variable {l : Language} {s : LineState} {c : Cursor} {x y : Char} {rest : Text} {r : Rule}
  {m : RuleMatch}

lemma Agrees.single (l : Language) (v : Visit) (later : List Visit) : l.Agrees (v :: later) [v] :=
  ⟨[], v, later, rfl, rfl, .refl _, .singleton v⟩

/-- Where the scanner comes to what the tokenizer stops at next, they agree from the place before
on. -/
lemma Agrees.cons {v w : Visit} {stops places before : List Visit} (h : l.Agrees stops places)
    (hhead : stops.head? = some w) (htoken : l.BodyToken v w) (hsuffix : places <:+ before) :
    l.Agrees (v :: stops) (v :: before) := by
  obtain ⟨front, point, after, rfl, hlast, hsub, hchain⟩ := h
  refine ⟨v :: front, point, after, rfl, ?_, (hsub.trans hsuffix.sublist).cons_cons v, ?_⟩
  · obtain ⟨skipped, rfl⟩ := hsuffix
    rw [List.getLast?_cons, List.getLast?_append, hlast]
    rfl
  · refine hchain.cons fun u hu => ?_
    have hfirst : (front ++ [point]).head? = (front ++ point :: after).head? := by
      rw [List.head?_append, List.head?_append]
      rfl
    obtain rfl : w = u := Option.some.inj (hhead.symm.trans (hfirst.symm.trans hu))
    exact htoken

namespace IsShell

/-- In a body a rule matches. -/
lemma exists_firstMatch? (hl : l.IsShell) (hb : s.current ∈ bodies) (hrest : c.rest = x :: rest) :
    ∃ r m, l.firstMatch? s c = some (r, m) := by
  have hne : c.rest ≠ [] := by
    rw [hrest]
    exact List.cons_ne_nil x rest
  obtain ⟨r, hr, set, hx, hpattern⟩ := exists_way s.current hb x
  have hway : ⟨c.past x rest, .none⟩ ∈ r.pattern.ways c.offset ⟨c, .none⟩ := by
    rcases hpattern with hpattern | hpattern <;> rw [hpattern, ways_anchored]
    · exact PatternMatch.mem_take.mpr ⟨x, rest, hrest, hx, rfl⟩
    · exact mem_ways_plus_one.mpr ⟨[x], rest, List.cons_ne_nil x [], hrest,
        List.forall_mem_singleton.mpr hx, rfl⟩
  obtain ⟨r', -, m, hfound⟩ := exists_findSome? hb (fun _ hr => hr) hne hr hway s.tag
  exact ⟨r', m, by rw [firstMatch?, hl.rules_eq, hfound]⟩

/-- A dollar sign does not stand alone before a character that goes with it. -/
lemma ne_dollarRule (hl : l.IsShell) (hfound : l.firstMatch? s c = some (r, m))
    (hrest : c.rest = '$' :: y :: rest) {t : Transition}
    (hpair : pairEffect? s.current '$' y = some t) : r ≠ dollarRule := by
  -- a dollar sign goes with other characters within double quotes only
  have hs : s.current = .doubleQuoted := by
    by_contra hs
    rw [pairEffect?, if_neg fun h => hs h.1] at hpair
    cases hpair
  rw [hs] at hpair
  -- a rule for both characters comes before `dollarRule`, and there is a way through its pattern
  obtain ⟨r', hr', set, hy, hpattern⟩ := exists_pair hpair
  have hway : ⟨(c.past '$' (y :: rest)).past y rest, .none⟩
      ∈ r'.pattern.ways c.offset ⟨c, .none⟩ := by
    rw [hpattern, ways_anchored]
    exact mem_ways_cat (PatternMatch.mem_take.mpr ⟨'$', _, hrest, CharSet.mem_single.mpr rfl, rfl⟩)
      (PatternMatch.mem_take.mpr ⟨y, rest, rfl, hy, rfl⟩)
  have hbefore : ∀ r ∈ doubleQuotedRules.dropLast, r ∈ Shell.rules .doubleQuoted :=
    fun r hr => (List.dropLast_sublist _).subset hr
  have hrules : Shell.rules .doubleQuoted = doubleQuotedRules.dropLast ++ [dollarRule] := rfl
  obtain ⟨r'', hr'', m', hfirst⟩ :=
    exists_findSome? (by decide) hbefore (by simp [hrest]) hr' hway s.tag
  rw [firstMatch?, hl.rules_eq, hs, hrules, List.findSome?_append, hfirst, Option.some_or] at hfound
  obtain ⟨rfl, -⟩ := Prod.mk.inj (Option.some.inj hfound)
  rintro rfl
  revert hr''
  decide

/-- A step in a body gives one token, and leads to where the scanner comes. -/
lemma step_body (hl : l.IsShell) (hb : s.current ∈ bodies) (hrest : c.rest = x :: rest) :
    l.BodyToken ⟨s, c⟩ ⟨(l.step s c x rest).state, (l.step s c x rest).next⟩
      ∧ ScansTo ⟨s, c⟩ ⟨(l.step s c x rest).state, (l.step s c x rest).next⟩ := by
  obtain ⟨r, m, hfound⟩ := hl.exists_firstMatch? hb hrest
  obtain ⟨hr, hm, -⟩ := firstMatch?_eq_some hfound
  rw [hl.rules_eq] at hr
  obtain ⟨-, htag, kind, hkind, hclassify⟩ := body_rules s.current hb r hr
  have hnone : r.capturedTag m = none := by rw [Rule.capturedTag, htag]
  have hlone : r = dollarRule → ∀ rest, c.rest = '$' :: rest →
      ∀ y ∈ rest.head?, pairEffect? s.current '$' y = none := by
    intro hr rest hrest y hy
    obtain ⟨rest, rfl⟩ := List.head?_eq_some_iff.mp hy
    by_contra hpair
    obtain ⟨t, ht⟩ := Option.ne_none_iff_exists'.mp hpair
    exact hl.ne_dollarRule hfound hrest ht hr
  refine ⟨⟨kind, hkind, ?_⟩, ?_⟩
  · rw [tokensAt_eq hrest, step_of_match hfound, tokensOf, hclassify, RuleMatch.span,
      Rule.start_match? hm]
  · rw [step_of_match hfound]
    show ScansTo ⟨s, c⟩ ⟨stateAfter r m s, m.stop⟩
    rw [stateAfter_of_none hnone]
    exact scansTo_of_match hb hr hm hlone

/-- From a place on, the tokenizer stops where the scanner comes, until the scanner ends; and there
the tokenizer stops too. -/
lemma agrees_stopsFrom (hl : l.IsShell) {fuel : ℕ} (hfuel : c.rest.length ≤ fuel) :
    l.Agrees (l.stopsFrom fuel s c) (scanFrom ⟨s, c⟩) := by
  -- behind the bodies, and at the end of the text, the scanner goes no further
  have hend : ∀ {s : LineState} {c : Cursor} {fuel : ℕ}, c.rest.length ≤ fuel →
      scanFrom ⟨s, c⟩ = [⟨s, c⟩] → l.Agrees (l.stopsFrom fuel s c) (scanFrom ⟨s, c⟩) := by
    intro s c fuel hfuel hscan
    obtain ⟨later, hlater⟩ := exists_stopsFrom_eq_cons (l := l) fuel s c hfuel
    rw [hlater, hscan]
    exact .single l ⟨s, c⟩ later
  induction fuel generalizing s c with
  | zero =>
      have hrest : c.rest = [] := List.length_eq_zero_iff.mp (Nat.le_zero.mp hfuel)
      exact hend hfuel (scanFrom_of_nil hrest)
  | succ fuel ih =>
      by_cases hb : s.current ∈ bodies
      · cases hrest : c.rest with
        | nil => exact hend hfuel (scanFrom_of_nil hrest)
        | cons x rest =>
            have hlength := length_step (l := l) (s := s) hrest
            have hnext : (l.step s c x rest).next.rest.length ≤ fuel := by omega
            obtain ⟨htoken, hscan⟩ := hl.step_body hb hrest
            obtain ⟨later, hlater⟩ := exists_stopsFrom_eq_cons (l := l) fuel
              (l.step s c x rest).state (l.step s c x rest).next hnext
            -- the scanner may come to other places on the way to the next stop
            obtain ⟨places, hplaces⟩ := exists_scanFrom_eq_cons ⟨s, c⟩
            rw [ScansTo, hplaces] at hscan
            rw [stopsFrom_succ fuel s hrest, hplaces]
            exact (ih hnext).cons (by rw [hlater]; rfl) htoken hscan
      · exact hend hfuel (scanFrom_of_notMem hb)

/-- **Quotes and expansions end where a scanner says** that reads a line character by character: up
to the end of the bodies that the line begins in, the tokenizer stops only where the scanner comes,
with the same states, and the token from each stop to the next is of a kind of the body. At the end
of these bodies, or of the line, the tokenizer stops too. -/
theorem agrees_scan (hl : l.IsShell) (line : Text) (start : LineState) :
    l.Agrees (l.stops line start) (scan start 0 line)
      ∧ (l.tokenizeLine line start).tokens = (l.stops line start).flatMap l.tokensAt
      ∧ ∃ before point, scan start 0 line = before ++ [point]
        ∧ (∀ v ∈ before, v.state.current ∈ bodies ∧ v.place.rest ≠ [])
        ∧ (point.state.current ∈ bodies → point.place.rest = []) :=
  ⟨hl.agrees_stopsFrom (Nat.le_refl _), tokens_tokenizeLine_stops line start,
    scanFrom_ends ⟨start, .start line⟩⟩

/-- A substitution within double quotes ends at the first round bracket that closes, whatever quote
stands before it; the double quote behind it leaves all states. -/
theorem agrees_scan_substitution :
    let line := "$$(b$(a\x22b)\x22c".toList
    let start : LineState := ⟨[⟨.doubleQuoted, none⟩, ⟨.heredoc, some ['A']⟩]⟩
    shell.IsShell ∧ ∃ before after,
      shell.stops line start = before ++ ⟨.root, ⟨11, ['c']⟩⟩ :: after
        ∧ List.IsChain shell.BodyToken (before ++ [⟨.root, ⟨11, ['c']⟩⟩]) := by
  have hshell : shell.IsShell := Or.inl rfl
  obtain ⟨⟨before, point, after, hstops, hlast, -, hchain⟩, -⟩ :=
    agrees_scan hshell "$$(b$(a\x22b)\x22c".toList
      ⟨[⟨.doubleQuoted, none⟩, ⟨.heredoc, some ['A']⟩]⟩
  have hpoint : (scan ⟨[⟨.doubleQuoted, none⟩, ⟨.heredoc, some ['A']⟩]⟩ 0
      "$$(b$(a\x22b)\x22c".toList).getLast? = some ⟨.root, ⟨11, ['c']⟩⟩ := rfl
  obtain rfl := Option.some.inj (hlast.symm.trans hpoint)
  exact ⟨hshell, before, after, hstops, hchain⟩

end IsShell

end Language

end ShellSyntax
