import ShellSyntax.Language.Tokens
import ShellSyntax.Shell.Rules
import ShellSyntax.Shell.Words

/-!
The shell language.

* `shell`: the language with the words it knows by itself;
* `shellWith`: the language with further words.
-/

namespace ShellSyntax

/-- The language of shell scripts. -/
def shell : Language where
  name := "Shell"
  extensions := ["sh", "bash", "zsh", "ksh"].map String.toList
  interpreters := ["sh", "bash", "zsh", "ksh", "dash", "ash"].map String.toList
  labelSuffix := ".shell"
  keywords := Shell.keywords.map String.toList
  builtins := Shell.builtins.map String.toList
  brackets :=
    [⟨'\x7b', '\x7d', .bracket⟩, ⟨'(', ')', .parenthesis⟩, ⟨'[', ']', .square⟩]
  rules := Shell.rules

/-- The language of shell scripts, with further keywords and built-in commands. -/
def shellWith (keywords builtins : List Text) : Language :=
  (shell.addKeywords keywords).addBuiltins builtins

end ShellSyntax
