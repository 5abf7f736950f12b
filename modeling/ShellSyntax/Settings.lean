import ShellSyntax.Theme
import ShellSyntax.Toml.Document
import ShellSyntax.Shell

/-!
The settings of the user.

Settings stand in a TOML document. Its table `highlight` holds a switch and further words of the
shell language, its table `styles` the styles of token kinds; all else in it is ignored.

* `Settings`: the values, with `Settings.default` where the user says nothing;
* `Settings.read`: the settings of a text, and `SettingsFault`, what can be wrong with one;
* `Settings.write`: the words and the switch as a text. Styles are not written;
* `Settings.load`, `Settings.loadDefault`: the settings of a stored file, and of the one in the
  user's home;
* `Settings.language`: the shell language with the user's words.
-/

namespace ShellSyntax

/-- What the user can set. -/
structure Settings where
  enabled : Bool
  keywords : List Text
  builtins : List Text
  styles : Theme
deriving DecidableEq

/-- The form that a setting must have. -/
inductive SettingForm where
  | table
  | boolean
  | strings
  | string
deriving DecidableEq, Repr

/-- A form in words. -/
def SettingForm.words : SettingForm → String
  | table => "a table"
  | boolean => "a boolean"
  | strings => "an array of strings"
  | string => "a string"

/-- What can be wrong with settings. -/
inductive SettingsFault where
  /-- The file cannot be read as text. -/
  | unreadable
  /-- The text is no TOML document. -/
  | malformed
  | unknownKind (name : Text)
  | invalidStyle (e : InvalidStyle)
  | wrongForm (setting : Text) (form : SettingForm)
deriving DecidableEq, Repr

/-- The report to the user. -/
def SettingsFault.message : SettingsFault → String
  | unreadable => "Settings cannot be read"
  | malformed => "Invalid settings"
  | unknownKind name => "Unknown token kind: " ++ String.ofList name
  | invalidStyle e => e.message
  | wrongForm setting form => "Setting '" ++ String.ofList setting ++ "' must be " ++ form.words

namespace Settings

/-- The settings of a user who says nothing. -/
def default : Settings := ⟨true, [], [], .empty⟩

/-! ### Reading -/

open Toml (Value Table)

/-- What a reader of one form finds in a setting. -/
def expect {α : Type} (setting : Text) (form : SettingForm) : Option α → Except SettingsFault α
  | some a => .ok a
  | none => .error (.wrongForm setting form)

/-- The strings of an array of strings. -/
def strings? (v : Value) : Option (List Text) :=
  v.items?.bind fun items => items.mapM Value.string?

/-- The settings after one entry of the table `highlight`. -/
def applyHighlight (s : Settings) (entry : Text × Value) : Except SettingsFault Settings :=
  let (key, v) := entry
  if key = "enabled".toList then
    (expect key .boolean v.boolean?).map fun b => { s with enabled := b }
  else if key = "extra_keywords".toList then
    (expect key .strings (strings? v)).map fun words => { s with keywords := words }
  else if key = "extra_builtins".toList then
    (expect key .strings (strings? v)).map fun words => { s with builtins := words }
  else .ok s

/-- The settings after one entry of the table `styles`. The kind is looked at first, then the form
of the entry, then the style it describes. -/
def applyStyle (s : Settings) (entry : Text × Value) : Except SettingsFault Settings :=
  let (key, v) := entry
  match TokenKind.ofName? key with
  | none => .error (.unknownKind key)
  | some kind =>
    (expect key .string v.string?).bind fun description =>
      match Style.parse description with
      | .error e => .error (.invalidStyle e)
      | .ok style => .ok { s with styles := s.styles.set kind style }

/-- The settings after one section. -/
def applySection (s : Settings) (entry : Text × Value) : Except SettingsFault Settings :=
  let (key, v) := entry
  if key = "highlight".toList then
    (expect key .table v.entries?).bind fun t => t.foldlM applyHighlight s
  else if key = "styles".toList then
    (expect key .table v.entries?).bind fun t => t.foldlM applyStyle s
  else .ok s

/-- The settings that a table holds. Sections and their entries are looked at in the order of their
keys, so the first fault in that order is reported. -/
def ofTable (t : Table) : Except SettingsFault Settings := t.foldlM applySection default

/-- The settings that a text writes. -/
def read (t : Text) : Except SettingsFault Settings :=
  match Toml.Document.read? t with
  | none => .error .malformed
  | some table => ofTable table

/-! ### Writing -/

open Toml.Document in
/-- The switch and the words as a text. -/
def write (s : Settings) : Text :=
  writeHeader "highlight".toList ++
    writeEntry "enabled".toList (writeBoolean s.enabled) ++
    writeEntry "extra_builtins".toList (writeStrings s.builtins) ++
    writeEntry "extra_keywords".toList (writeStrings s.keywords)

/-! ### Files -/

/-- What stands at a path of the file system. -/
inductive Stored where
  | missing
  | folder
  | file (contents : ByteArray)

/-- The settings of what is stored. Where there is no file, the user says nothing. -/
def load : Stored → Except SettingsFault Settings
  | .missing => .ok default
  | .folder => .error .unreadable
  | .file contents =>
    match String.fromUTF8? contents with
    | none => .error .unreadable
    | some text => read text.toList

/-- Where the settings of a user stand whose home is the given folder. -/
def path (home : Text) : Text :=
  let name := ".shell-highlight.toml".toList
  if home.isEmpty ∨ home.getLast? = some '/' then home ++ name else home ++ '/' :: name

/-- The settings in the user's home, if the user has one. -/
def loadDefault (home : Option Text) (storedAt : Text → Stored) : Except SettingsFault Settings :=
  match home with
  | none => .ok default
  | some home => load (storedAt (path home))

/-! ### Use -/

/-- The shell language with the user's words. -/
def language (s : Settings) : Language := shellWith s.keywords s.builtins

end Settings

end ShellSyntax
