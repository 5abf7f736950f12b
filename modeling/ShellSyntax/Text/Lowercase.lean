import ShellSyntax.Text.Blank
import ShellSyntax.Unicode.LetterCase

/-!
The lowercase form of a text, by the full rules of Unicode.

* `lowercaseLetter`: one character, out of context; the dotted capital I becomes two;
* `Text.lowercase`: a text, in which a capital sigma at the end of a word becomes the final sigma.
-/

namespace ShellSyntax

namespace Unicode

/-- The lowercase of a single character; only the dotted capital I needs two. -/
def lowercaseLetter (c : Char) : Text :=
  if c.toNat < 0x80 then [c.toLower]
  else if c = '\u0130' then ['i', '\u0307']
  else
    match (lowercaseRules ++ recentLowercaseRules).findSome? (·.target? c.toNat) with
    | some n => [Char.ofNat n]
    | none => [c]

/-- Whether the first character that case mapping does not look through is a cased letter. -/
def startsCased (t : Text) : Bool :=
  match t.dropWhile caseIgnorable.contains with
  | c :: _ => casedLetters.contains c
  | [] => false

end Unicode

namespace Text

/-- The lowercase of `t`, which follows the characters `before`, given last character first. A
capital sigma ends a word if a cased letter stands before it and none after it. -/
def lowercaseAfter (before : Text) : Text → Text
  | [] => []
  | c :: t =>
    (if c = '\u03a3' then
      if Unicode.startsCased before && !Unicode.startsCased t then ['\u03c2'] else ['\u03c3']
    else Unicode.lowercaseLetter c) ++ lowercaseAfter (c :: before) t

/-- The lowercase form of a text. -/
def lowercase (t : Text) : Text := lowercaseAfter [] t

end Text

end ShellSyntax
