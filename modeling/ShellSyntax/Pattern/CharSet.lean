import ShellSyntax.Text.Blank
import ShellSyntax.Unicode.Folding

/-!
Sets of characters, which patterns take their characters from.

* `CharSet`: the ranges of a set. Sets that are built by the operations here are equal if they hold
  the same characters;
* `CharSet.mem`: membership;
* `CharSet.closeCase`: the set with all case variants of its characters. Patterns look at no letter
  case, so their sets are closed first and complemented then: the complement of `k` leaves out the
  kelvin sign as well.
-/

namespace ShellSyntax

/-- A set of characters as ranges of code points. -/
structure CharSet where
  ranges : Unicode.Ranges
deriving DecidableEq, Repr

namespace CharSet

/-- Whether a character is in the set. -/
def mem (s : CharSet) (c : Char) : Bool := s.ranges.contains c

/-- The set of no character. -/
def none : CharSet := ⟨[]⟩

/-- The set of the given ranges, which neither overlap nor touch, in increasing order. -/
def of (ranges : List (Char × Char)) : CharSet := ⟨ranges.map fun r => (r.1.toNat, r.2.toNat)⟩

/-- The set of one character. -/
def single (c : Char) : CharSet := of [(c, c)]

/-- The set of the blanks. -/
def blanks : CharSet := ⟨Unicode.whiteSpace⟩

/-- The characters of two sets. -/
def union (s t : CharSet) : CharSet := ⟨s.ranges.union t.ranges⟩

/-- The characters from `first` to `last`. -/
def between (first last : Char) : CharSet := ⟨.between first last⟩

/-- The characters that are not in the set. -/
def complement (s : CharSet) : CharSet := ⟨s.ranges.complement⟩

/-- The given characters. -/
def ofList (cs : List Char) : CharSet := cs.foldr (fun c s => (single c).union s) none

/-- All characters but the given ones. -/
def except (cs : List Char) : CharSet := (ofList cs).complement

/-- All characters but the line feed. -/
def inLine : CharSet := except ['\n']

/-- The case variants of a character. -/
def ofVariants (c : Char) : CharSet := ⟨.ofVariants c⟩

/-- The set with all case variants of its characters. -/
def closeCase (s : CharSet) : CharSet := ⟨s.ranges.closeCase⟩

/-- Whether the set has a single character. -/
def isSingle (s : CharSet) : Bool :=
  match s.ranges with
  | [r] => r.1 = r.2
  | _ => false

theorem mem_union {s t : CharSet} (hs : s.ranges.Proper) (ht : t.ranges.Proper) (c : Char) :
    (s.union t).mem c = (s.mem c || t.mem c) :=
  Unicode.Ranges.containsCode_union hs ht c.toNat

end CharSet

end ShellSyntax
