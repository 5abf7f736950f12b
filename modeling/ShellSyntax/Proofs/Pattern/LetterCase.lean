import Mathlib.Data.List.Basic
import Mathlib.Tactic.Common
import ShellSyntax.Proofs.Pattern.Ways
import ShellSyntax.Proofs.Text.LetterCase

/-!
Patterns that look at no letter case.

* `CharSet.caseless`, `Pattern.caseless`: a set holds each letter of ASCII in both cases or not at
  all, and so do all sets of a pattern;
* `Captures.asciiLower`, `PatternMatch.asciiLower`: what groups have taken, and a match, in the text
  with small letters;
* `Pattern.ways_asciiLower`: the ways of such a pattern through the text with small letters are
  those through the text, one by one.
-/

namespace ShellSyntax

/-! ### Sets and patterns -/

/-- Whether a set holds each letter of ASCII in both cases or not at all. -/
def CharSet.caseless (s : CharSet) : Bool := capitals.all fun c => s.mem c.toLower == s.mem c

lemma CharSet.mem_toLower {s : CharSet} (hs : s.caseless = true) (c : Char) :
    s.mem c.toLower = s.mem c :=
  apply_toLower (f := s.mem) hs c

/-- Whether a pattern looks at no letter case. -/
def Pattern.caseless : Pattern → Bool
  | one set => set.caseless
  | cat p q | alt p q => caseless p && caseless q
  | opt p | star p | plus p | group _ p => caseless p
  | empty | atStart | atEnd => true

/-! ### Matches in the text with small letters -/

/-- What groups have taken, in the text with small letters. -/
def Captures.asciiLower (cs : Captures) : Captures :=
  ⟨cs.starts.map (Prod.map id Cursor.asciiLower), cs.stops.map (Prod.map id Cursor.asciiLower)⟩

/-- What a group took, in the text with small letters. -/
def Capture.asciiLower (g : Capture) : Capture := ⟨g.start.asciiLower, g.stop.asciiLower⟩

lemma Captures.lookup_asciiLower (i : ℕ) (places : List (ℕ × Cursor)) :
    (places.map (Prod.map id Cursor.asciiLower)).lookup i
      = (places.lookup i).map Cursor.asciiLower := by
  induction places with
  | nil => rfl
  | cons p places ih =>
      rw [List.map_cons, Prod.map, List.lookup_cons, List.lookup_cons, ih, id]
      split <;> rfl

lemma Captures.get?_asciiLower (cs : Captures) (i : ℕ) :
    cs.asciiLower.get? i = (cs.get? i).map Capture.asciiLower := by
  rw [get?, get?, asciiLower, lookup_asciiLower, lookup_asciiLower]
  cases cs.starts.lookup i with
  | none => rfl
  | some a => cases cs.stops.lookup i <;> rfl

lemma Capture.text_asciiLower (g : Capture) : g.asciiLower.text = g.text.asciiLower :=
  Cursor.textTo_asciiLower g.start g.stop

namespace PatternMatch

/-- A match in the text with small letters. -/
def asciiLower (m : PatternMatch) : PatternMatch := ⟨m.stop.asciiLower, m.captures.asciiLower⟩

lemma take_asciiLower {set : CharSet} (hset : set.caseless = true) (m : PatternMatch) :
    m.asciiLower.take set = (m.take set).map asciiLower := by
  cases hrest : m.stop.rest with
  | nil =>
      have hnil : m.asciiLower.stop.rest = [] := congrArg Text.asciiLower hrest
      rw [take_nil set hrest, take_nil set hnil, List.map_nil]
  | cons x rest =>
      have hcons : m.asciiLower.stop.rest = x.toLower :: Text.asciiLower rest :=
        Cursor.rest_asciiLower hrest
      rw [take_cons set hrest, take_cons set hcons, CharSet.mem_toLower hset]
      split
      · exact congrArg (fun c => [(⟨c, m.captures.asciiLower⟩ : PatternMatch)])
          (m.stop.asciiLower_past x rest).symm
      · rfl

end PatternMatch

namespace Pattern

open PatternMatch (asciiLower)

variable {origin : ℕ}

/-! ### Ways in the text with small letters -/

/-- A repetition goes on in the text with small letters as its steps do. -/
lemma repeated_asciiLower {f : PatternMatch → List PatternMatch}
    (hf : ∀ m, f m.asciiLower = (f m).map asciiLower) (k : ℕ) (m : PatternMatch) :
    repeated f k m.asciiLower = (repeated f k m).map asciiLower := by
  induction k generalizing m with
  | zero => rfl
  | succ k ih =>
      rw [repeated, repeated, hf, List.flatMap_map, List.map_append, List.map_flatMap]
      simp only [ih, List.map_singleton]

/-- The ways of a pattern that looks at no letter case lead through the text with small letters as
they lead through the text. -/
lemma ways_asciiLower {p : Pattern} (hp : p.caseless = true) (m : PatternMatch) :
    ways origin p m.asciiLower = (ways origin p m).map asciiLower := by
  have hlength : ∀ m : PatternMatch, m.asciiLower.stop.rest.length = m.stop.rest.length :=
    fun m => m.stop.rest.length_asciiLower
  induction p generalizing m with
  | empty => rfl
  | one set => exact PatternMatch.take_asciiLower hp m
  | atStart =>
      have hoffset : m.asciiLower.stop.offset = m.stop.offset := rfl
      rw [ways, ways, hoffset]
      split <;> rfl
  | atEnd =>
      have hempty : m.asciiLower.stop.rest.isEmpty = m.stop.rest.isEmpty := List.isEmpty_map
      rw [ways, ways, hempty]
      split <;> rfl
  | cat p q ihp ihq =>
      obtain ⟨hp, hq⟩ := Bool.and_eq_true_iff.mp hp
      rw [ways, ways, ihp hp, List.flatMap_map, List.map_flatMap]
      simp only [ihq hq]
  | alt p q ihp ihq =>
      obtain ⟨hp, hq⟩ := Bool.and_eq_true_iff.mp hp
      rw [ways, ways, ihp hp, ihq hq, List.map_append]
  | opt p ih => rw [ways, ways, ih hp, List.map_append, List.map_singleton]
  | star p ih => rw [ways, ways, hlength, repeated_asciiLower (ih hp)]
  | plus p ih =>
      rw [ways, ways, ih hp, List.flatMap_map, List.map_flatMap]
      simp only [hlength, repeated_asciiLower (ih hp)]
  | group i p ih =>
      have hopened : (asciiLower m).opened i = asciiLower (m.opened i) := rfl
      rw [ways, ways, hopened, ih hp, List.map_map, List.map_map]
      rfl

end Pattern

end ShellSyntax
