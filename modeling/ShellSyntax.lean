import ShellSyntax.Workspace
import ShellSyntax.Editing
import ShellSyntax.Terminal.Render
import ShellSyntax.Proofs.Shell.Coverage
import ShellSyntax.Proofs.Shell.Heredoc
import ShellSyntax.Proofs.Shell.Nesting
import ShellSyntax.Proofs.Workspace.Edits
import ShellSyntax.Proofs.Shell.Scanner
import ShellSyntax.Proofs.Language.Overlap
import ShellSyntax.Proofs.Terminal.Lines
import ShellSyntax.Proofs.Shell.Words
import ShellSyntax.Proofs.Shell.LetterCase
import ShellSyntax.Proofs.Workspace.WellFormed
import ShellSyntax.Proofs.Settings.RoundTrip
import ShellSyntax.Proofs.LineCache.Outdated
import ShellSyntax.Proofs.Workspace.Interference
import ShellSyntax.Proofs.Workspace.Redefinition
import ShellSyntax.Proofs.Terminal.Clipping
import ShellSyntax.Proofs.Settings.Faults
import ShellSyntax.Proofs.Settings.Meaning
import ShellSyntax.Proofs.LineCache.Extent
import ShellSyntax.Proofs.Workspace.Extent
import ShellSyntax.Proofs.Shell.Numerals
import ShellSyntax.Proofs.Terminal.Columns
import ShellSyntax.Proofs.Editing.Comments
import ShellSyntax.Proofs.Editing.Brackets
import ShellSyntax.Proofs.Rule.Anchoring
import ShellSyntax.Proofs.Workspace.Detection
import ShellSyntax.Proofs.Editing.Pairs
import ShellSyntax.Proofs.Registry.FirstLine
import ShellSyntax.Proofs.Style.Descriptions
import ShellSyntax.Proofs.Shell.Shadowing
import ShellSyntax.Proofs.LineState.Unzipped
