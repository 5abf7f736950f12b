import ShellSyntax.Text.Blank

/-!
What an editor needs to know besides tokens.

* `CharPair`: a pair of characters of which one opens and one closes;
* `Editing`: the mark of a comment, the brackets, and the pairs that are closed or wrapped around a
  selection when the first character is typed; `Editing.shell` is that of shell scripts;
* `Editing.validate`: whether these are free of doubt, and `PairFault`, what may be wrong;
* `Editing.closerFor?`, `Editing.wrapperFor?`, `Editing.counterpart?`: looking up pairs;
* `Editing.toggleComment`: making a line a comment, or no comment.
-/

namespace ShellSyntax

/-- A pair of characters. -/
structure CharPair where
  opener : Char
  closer : Char
deriving DecidableEq, Repr

/-- What an editor needs to know of a language. -/
structure Editing where
  /-- What begins a comment. -/
  comment : Text
  /-- Pairs of brackets that belong together. -/
  brackets : List CharPair
  /-- Pairs that are closed when they are opened. -/
  autoClosing : List CharPair
  /-- Pairs that are put around a selection. -/
  surrounding : List CharPair
deriving DecidableEq, Repr

/-- A list of pairs. -/
inductive PairList where
  | brackets
  | autoClosing
  | surrounding
deriving DecidableEq, Repr

/-- A list of pairs in words. -/
def PairList.words : PairList → String
  | brackets => "brackets"
  | autoClosing => "auto-closing pairs"
  | surrounding => "surrounding pairs"

/-- What may be wrong with pairs. -/
inductive PairFault where
  | emptyComment
  | sameCharacter (c : Char)
  | duplicateCloser (c : Char)
  | duplicateOpener (c : Char) (list : PairList)
deriving DecidableEq, Repr

/-- The report to the user. -/
def PairFault.message (e : PairFault) : String :=
  let quoted := fun (c : Char) => "'" ++ c.toString ++ "'"
  "Invalid pair: " ++ match e with
  | emptyComment => "empty line comment marker"
  | sameCharacter c => "bracket " ++ quoted c ++ " opens and closes with the same character"
  | duplicateCloser c => "duplicate closer " ++ quoted c ++ " in brackets"
  | duplicateOpener c list => "duplicate opener " ++ quoted c ++ " in " ++ list.words

namespace Editing

/-- The brackets of shell scripts. -/
def shellBrackets : List CharPair := [⟨'\x7b', '\x7d'⟩, ⟨'[', ']'⟩, ⟨'(', ')'⟩]

/-- The brackets and quotes of shell scripts. -/
def shellPairs : List CharPair :=
  shellBrackets ++ [⟨'"', '"'⟩, ⟨'\x27', '\x27'⟩, ⟨'\x60', '\x60'⟩]

/-- What an editor needs to know of shell scripts. -/
def shell : Editing where
  comment := ['#']
  brackets := shellBrackets
  autoClosing := shellPairs
  surrounding := shellPairs

/-! ### Validity -/

/-- Checks that brackets differ from their counterparts and that no closer is there twice, nor among
those `seen`. -/
def checkClosers (seen : List Char) : List CharPair → Except PairFault Unit
  | [] => .ok ()
  | p :: pairs =>
    if p.opener = p.closer then .error (.sameCharacter p.opener)
    else if p.closer ∈ seen then .error (.duplicateCloser p.closer)
    else checkClosers (p.closer :: seen) pairs

/-- Checks that no opener is there twice, nor among those `seen`. -/
def checkOpeners (list : PairList) (seen : List Char) : List CharPair → Except PairFault Unit
  | [] => .ok ()
  | p :: pairs =>
    if p.opener ∈ seen then .error (.duplicateOpener p.opener list)
    else checkOpeners list (p.opener :: seen) pairs

/-- Checks that the mark of a comment can be seen, and that every look-up has one answer. -/
def validate (e : Editing) : Except PairFault Unit := do
  if e.comment.trim.isEmpty then throw .emptyComment
  checkClosers [] e.brackets
  checkOpeners .brackets [] e.brackets
  checkOpeners .autoClosing [] e.autoClosing
  checkOpeners .surrounding [] e.surrounding

/-! ### Pairs -/

/-- The closer of the first pair with an opener. -/
def closing? (pairs : List CharPair) (opener : Char) : Option Char :=
  (pairs.find? (·.opener = opener)).map (·.closer)

/-- What to insert behind a character that was typed. -/
def closerFor? (e : Editing) (opener : Char) : Option Char := closing? e.autoClosing opener

/-- What to put behind a selection before which a character was typed. -/
def wrapperFor? (e : Editing) (opener : Char) : Option Char := closing? e.surrounding opener

/-- The bracket that belongs to a bracket. -/
def counterpart? (e : Editing) (c : Char) : Option Char :=
  e.brackets.findSome? fun p =>
    if p.opener = c then some p.closer else if p.closer = c then some p.opener else none

/-! ### Comments -/

/-- The text without a space at its start. -/
def dropSpace : Text → Text
  | ' ' :: t => t
  | t => t

/-- Takes the mark of a comment from a line, with one space behind it, or puts one there. The mark
stands behind the blanks at the start of the line. -/
def toggleComment (e : Editing) (line : Text) : Text :=
  let indent := line.takeWhile isBlank
  let body := line.dropWhile isBlank
  match Text.afterMark? e.comment body with
  | some rest => indent ++ dropSpace rest
  | none => indent ++ e.comment ++ ' ' :: body

end Editing

end ShellSyntax
