import ShellSyntax.Unicode.LetterCase

/-!
Letters that differ in case only.

* `foldCode`: the letter that stands for all case variants of a letter outside ASCII;
* `caseVariants`: the characters that fold like a given one;
* `Ranges.ofVariants`, `Ranges.closeCase`: the case variants of a character, and of all characters
  of a set.

Two letters outside ASCII fold into it: the kelvin sign into `k` and the long s into `s`.
-/

namespace ShellSyntax.Unicode

/-- The kelvin sign, a capital of `k`. -/
def kelvinSign : Char := '\u212a'

/-- The long s, a small letter of `S`. -/
def longS : Char := '\u017f'

/-- The image of a code point under the first rule that speaks of it. -/
def mapCase (rules : List CaseRule) (n : Nat) : Nat :=
  (rules.findSome? (·.target? n)).getD n

/-- The rules of case folding outside ASCII: the exceptions go first. -/
def foldingRules : List CaseRule := foldingExceptions ++ lowercaseRules

/-- Case folding outside ASCII, on code points. -/
def foldCode (n : Nat) : Nat := mapCase foldingRules n

/-- The characters outside ASCII whose folding is the code point `n`. -/
def foldingSources (n : Nat) : List Char :=
  (foldingRules.filterMap (·.source? n)).filterMap fun m =>
    if foldCode m = n then some (Char.ofNat m) else none

/-- All characters that fold like the given one, itself included. -/
def caseVariants (c : Char) : List Char :=
  if c.toNat < 0x80 then
    if c = 'k' ∨ c = 'K' then ['k', 'K', kelvinSign]
    else if c = 's' ∨ c = 'S' then ['s', 'S', longS]
    else if c.isAlpha then [c.toLower, c.toUpper]
    else [c]
  else if c = kelvinSign then ['k', 'K', kelvinSign]
  else if c = longS then ['s', 'S', longS]
  else
    let n := foldCode c.toNat
    Char.ofNat n :: foldingSources n

namespace Ranges

/-- The case variants of a character. -/
def ofVariants (c : Char) : Ranges :=
  union ((caseVariants c).map fun d => (d.toNat, d.toNat)) []

/-- The code points that a rule speaks of, and their images. -/
def ofRule (r : CaseRule) : List Nat :=
  (List.range ((r.last - r.first) / r.stride + 1)).flatMap fun k =>
    [r.first + k * r.stride, r.image + k * r.stride]

/-- The code points of all letters that fold into others or that others fold into. -/
def foldingCodes : List Nat :=
  (List.range 0x80).filter (fun n => (Char.ofNat n).isAlpha) ++
    foldingRules.flatMap ofRule

/-- The case variants of all characters of a set. -/
def closeCase (rs : Ranges) : Ranges :=
  (foldingCodes.filter rs.containsCode).foldl
    (fun set n => union (ofVariants (Char.ofNat n)) set) rs

end Ranges

end ShellSyntax.Unicode
