import ShellSyntax.Text.Blank
import ShellSyntax.Unicode.Columns
import ShellSyntax.Unicode.Emoji

/-!
The columns that text takes on a terminal.

* `charWidth?`: the columns of one character by itself; control characters have no width;
* `Text.width`: the columns of a text, in which characters join with what follows them: pictures
  with selectors, skin tones and joiners, flags, line ends, and the ligatures of some scripts;
* `Text.clip`: the longest start of a text whose characters, each by itself, fit into a width.

A text is measured from its end. `Ahead` says what stands right behind the character at hand, as far
as that matters.
-/

namespace ShellSyntax

/-! ### Single characters -/

/-- The columns of a character. -/
def columns (c : Char) : Nat :=
  if Unicode.zeroWidth.contains c then 0
  else if c = '\u17d8' then 3
  else if Unicode.doubleWidth.contains c then 2
  else 1

/-- The columns of a character that is no control character. -/
def charWidth? (c : Char) : Option Nat :=
  if c.toNat < 0x20 ∨ (0x7F ≤ c.toNat ∧ c.toNat < 0xA0) then none else some (columns c)

/-! ### What stands behind a character -/

/-- What the text behind a character begins with. -/
inductive Sign where
  | other
  | lineFeed
  /-- A skin tone. -/
  | modifier
  /-- One letter of a flag. -/
  | indicator
  /-- Two letters of a flag or more. -/
  | indicators
  /-- A picture. -/
  | picture
  /-- A joiner before a picture. -/
  | joinedPicture
  /-- A keycap mark before a joined picture. -/
  | joinedKeycap
  /-- One letter of a flag before a joined picture. -/
  | joinedIndicator
  /-- An even number of letters of flags before a joined picture. -/
  | joinedEven
  /-- An odd number of them, at least three. -/
  | joinedOdd
  /-- The end of a tag sequence before a joined picture, and the letters before that end. -/
  | tagLetters (count : Nat)
  /-- Digits in front of such letters. -/
  | tagDigits (count : Nat)
  /-- An Arabic alef. -/
  | alef
  /-- A Hebrew lamed. -/
  | lamed (joined : Bool)
  /-- A Buginese ya. -/
  | ya (joined : Bool)
  /-- A Buginese vowel before a joined ya. -/
  | vowelYa
  /-- A Tifinagh consonant. -/
  | tifinagh (joined : Bool)
  /-- A Tifinagh joiner before a consonant. -/
  | tifinaghJoiner
  /-- A Lisu tone letter. -/
  | lisuTone
  /-- An Old Turkic letter I. -/
  | orkhonI (joined : Bool)
  /-- A Khmer letter that may be subscribed. -/
  | khmer
deriving DecidableEq, Repr

namespace Sign

/-- Whether a sign is a letter that may form a ligature, so that selectors do not matter to it. -/
def isLetter : Sign → Bool
  | alef | lamed _ | ya _ | vowelYa | tifinagh _ | tifinaghJoiner | lisuTone | orkhonI _ | khmer =>
    true
  | _ => false

/-- Whether a ligature is formed through marks that take no column. -/
def isTransparent (s : Sign) : Bool := s.isLetter && s ≠ alef

/-- Whether a sign is a joined picture that a selector may still belong to. -/
def isJoinedPicture (s : Sign) : Bool := s = joinedPicture || s = joinedKeycap

/-- The sign behind a joiner. -/
def join : Sign → Sign
  | lamed _ => lamed true
  | ya _ => ya true
  | tifinagh _ => tifinagh true
  | orkhonI _ => orkhonI true
  | s => s

end Sign

/-- What stands right behind a character, with the selectors in front of it. -/
structure Ahead where
  sign : Sign
  /-- A selector asks for text. -/
  asText : Bool
  /-- A selector asks for a picture. -/
  asPicture : Bool
deriving DecidableEq, Repr

namespace Ahead

/-- A sign without selectors. -/
def of (s : Sign) : Ahead := ⟨s, false, false⟩

/-- Nothing that matters. -/
def nothing : Ahead := of .other

/-- What stands behind a character before a selector for pictures. -/
def selectPicture (a : Ahead) : Ahead :=
  if a.sign.isLetter || a.sign.isJoinedPicture then { a with asPicture := true }
  else ⟨.other, false, true⟩

/-- What stands behind a character before a selector for text. -/
def selectText (a : Ahead) : Ahead :=
  if a.sign.isLetter then { a with asText := true } else ⟨.other, true, false⟩

/-- Without the selector for pictures, which has met no picture. -/
def dropPicture (a : Ahead) : Ahead :=
  if a.sign.isLetter then { a with asPicture := false } else nothing

/-- Without the selector for text, which has met no picture. -/
def dropText (a : Ahead) : Ahead :=
  if a.sign.isLetter then { a with asText := false } else nothing

end Ahead

/-! ### Characters in a text -/

/-- The code points of a range, as a test on characters. -/
def inRange (first last : Nat) (c : Char) : Bool :=
  decide (first ≤ c.toNat ∧ c.toNat ≤ last)

/-- Letters of flags. -/
def isIndicator (c : Char) : Bool := inRange 0x1F1E6 0x1F1FF c

/-- Tifinagh consonants. -/
def isTifinagh (c : Char) : Bool := inRange 0x2D31 0x2D65 c || c = '\u2d6f'

/-- The letters that the mark coeng puts below another. -/
def khmerLetters : Unicode.Ranges :=
  [(0x1780, 0x1782), (0x1784, 0x1787), (0x1789, 0x178C), (0x178E, 0x1793), (0x1795, 0x1798),
   (0x179B, 0x179D), (0x17A0, 0x17A0), (0x17A2, 0x17A2), (0x17A7, 0x17A7), (0x17AB, 0x17AC),
   (0x17AF, 0x17AF)]

/-- Arabic letters of the shape of alef. -/
def alefs : Unicode.Ranges :=
  [(0x0622, 0x0623), (0x0625, 0x0625), (0x0627, 0x0627), (0x0671, 0x0673), (0x0675, 0x0675),
   (0x0773, 0x0774), (0x0870, 0x0882)]

/-- Arabic letters of the shape of lam that join with an alef. -/
def lams : Unicode.Ranges :=
  [(0x0644, 0x0644), (0x06B5, 0x06B8), (0x076A, 0x076A), (0x08A6, 0x08A6), (0x08C7, 0x08C7)]

/-- Marks that do not stand in the way of a ligature. -/
def ligatureTransparent : Unicode.Ranges :=
  [(0x034F, 0x034F), (0x17B4, 0x17B5), (0x180B, 0x180D), (0x180F, 0x180F), (0x200D, 0x200D),
   (0xFE00, 0xFE0F), (0xE0100, 0xE01EF)]

/-- Whether a selector can make a picture of a character. -/
def isPictureBase (c : Char) : Bool :=
  Unicode.emojiTextDefault.contains c || Unicode.textSelectable.contains c

/-- Whether a selector can make a narrow text of a character: the ideographs among the pictures stay
wide. -/
def isTextBase (c : Char) : Bool :=
  Unicode.textSelectable.contains c && !inRange 0x1F200 0x1F2FF c

/-- Whether Arabic letters join across a character. -/
def joinsThrough (c : Char) : Bool :=
  columns c = 0 && !Unicode.shapingZeroWidth.contains c

/-- What a character is to the character before it. -/
def signOf (c : Char) : Sign :=
  let n := c.toNat
  if n = 0xA4FC ∨ n = 0xA4FD then .lisuTone
  else if n = 0x10C03 then .orkhonI false
  else if isIndicator c then .indicator
  else if inRange 0x1F3FB 0x1F3FF c then .modifier
  else if n = 0x05DC then .lamed false
  else if alefs.contains c then .alef
  else if khmerLetters.contains c then .khmer
  else if n = 0x1A10 then .ya false
  else if isTifinagh c then .tifinagh false
  else if Unicode.emojiPresentation.contains c then .picture
  else .other

/-- A character that joins with nothing behind it. -/
def alone (c : Char) : Int × Ahead :=
  if c.toNat = 0xFE0F then (0, ⟨.other, false, true⟩)
  else if c.toNat = 0xFE0E then (0, ⟨.other, true, false⟩)
  else (columns c, .of (signOf c))

/-- How a character joins with a sign behind it: by how many columns the text grows, and what stands
there then. -/
def joinSign? (c : Char) (s : Sign) : Option (Int × Sign) :=
  let n := c.toNat
  match s with
  | .alef =>
    if lams.contains c then some (0, .other) else if joinsThrough c then some (0, .alef) else none
  | .lamed true => if n = 0x05D0 then some (0, .other) else none
  | .khmer => if n = 0x17D2 then some (-1, .other) else none
  | .ya true => if n = 0x1A17 then some (0, .vowelYa) else none
  | .vowelYa => if n = 0x1A15 then some (0, .other) else none
  | .tifinagh joined =>
    if n = 0x2D7F then some (1, .tifinaghJoiner)
    else if joined ∧ isTifinagh c then some (0, .other)
    else none
  | .tifinaghJoiner => if isTifinagh c then some (-1, .other) else none
  | .lisuTone => if inRange 0xA4F8 0xA4FB c then some (0, .other) else none
  | .orkhonI true => if n = 0x10C32 then some (0, .other) else none
  | .modifier =>
    if Unicode.emojiModifierBase.contains c then some (0, .picture)
    else if n = 0x200D then some (0, .joinedPicture)
    else none
  | .indicator => if isIndicator c then some (1, .indicators) else none
  | .indicators =>
    if isIndicator c then some (1, .indicators)
    else if n = 0x200D then some (0, .joinedPicture)
    else none
  | .picture => if n = 0x200D then some (0, .joinedPicture) else none
  | .joinedPicture =>
    if n = 0x20E3 then some (0, .joinedKeycap)
    else if isIndicator c then some (1, .joinedIndicator)
    else if inRange 0x1F3FB 0x1F3FF c then some (0, .modifier)
    else if n = 0xE007F then some (0, .tagLetters 0)
    else if columns c = 2 ∧ signOf c = .picture then some (0, .picture)
    else none
  | .joinedIndicator => if isIndicator c then some (-1, .joinedEven) else none
  | .joinedEven =>
    if isIndicator c then some (3, .joinedOdd)
    else if n = 0x200D then some (0, .joinedPicture)
    else none
  | .joinedOdd =>
    if isIndicator c then some (-1, .joinedEven)
    else if n = 0x200D then some (0, .joinedPicture)
    else none
  | .tagLetters k =>
    if k ≤ 5 ∧ inRange 0xE0061 0xE007A c then some (0, .tagLetters (k + 1))
    else if k ≤ 4 ∧ inRange 0xE0030 0xE0039 c then some (0, .tagDigits 1)
    else if 3 ≤ k ∧ n = 0x1F3F4 then some (0, .picture)
    else none
  | .tagDigits k =>
    if k ≤ 2 ∧ inRange 0xE0030 0xE0039 c then some (0, .tagDigits (k + 1))
    else if k = 3 ∧ n = 0x1F3F4 then some (0, .picture)
    else none
  | _ => none

/-- How a character joins with a ligature's letter through marks that take no column. -/
def joinThrough? (c : Char) (s : Sign) : Option (Int × Sign) :=
  if !s.isTransparent then none
  else if c.toNat = 0x200D then some (0, s.join)
  else if ligatureTransparent.contains c then some (0, s)
  else none

/-- How a character that is not a picture behind the last selector goes on: selectors wait for the
character before them, and all else joins with what is there or stands alone. -/
def joinAhead (c : Char) (a : Ahead) : Int × Ahead :=
  if a = .nothing then alone c
  else if c.toNat = 0xFE0F then (0, a.selectPicture)
  else if c.toNat = 0xFE0E then (0, a.selectText)
  else if a.asText && isTextBase c then (1, .nothing)
  else
    let a := if a.asText then a.dropText else a
    match (joinThrough? c a.sign).orElse fun _ => joinSign? c a.sign with
    | some (w, s) => (w, .of s)
    | none => alone c

/-- By how many columns a text grows when a character is put in front of it, and what it begins
with then. -/
def addChar (c : Char) (a : Ahead) : Int × Ahead :=
  if a.asPicture && isPictureBase c then
    (if a.sign.isJoinedPicture then 0 else 2, .of .picture)
  else
    let a := if a.asPicture then a.dropPicture else a
    if c = '\n' then (0, .of .lineFeed)
    else if c = '\r' ∧ a = .of .lineFeed then (0, .nothing)
    else if c.toNat ≤ 0xA0 then (1, .nothing)
    else joinAhead c a

namespace Text

/-- The columns of a text, with what it begins with. -/
def measure : Text → Int × Ahead
  | [] => (0, .nothing)
  | c :: t =>
    let later := measure t
    let first := addChar c later.2
    (first.1 + later.1, first.2)

/-- The columns of a text. -/
def width (t : Text) : Nat := (measure t).1.toNat

/-- The longest start of a text whose characters fit into `room` columns, each measured by itself.
Control characters count for one column. -/
def clip : Nat → Text → Text
  | _, [] => []
  | room, c :: t =>
    let w := (charWidth? c).getD 1
    if room < w then [] else c :: clip (room - w) t

end Text

end ShellSyntax
