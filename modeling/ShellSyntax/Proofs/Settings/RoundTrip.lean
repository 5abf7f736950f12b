import Mathlib.Data.List.Basic
import Mathlib.Tactic.Common
import ShellSyntax.Proofs.Toml.Document
import ShellSyntax.Settings

/-!
Settings that are written read back.

* `Settings.entries`: the entries of the table `highlight`, as they are written and as values.
  `read?_write`: the document that is written reads back as the table of these;
* `Settings.applyHighlight_enabled` and its kin, `Settings.ofTable_table`: the table holds all
  settings but the styles;
* `Settings.read_write`: all but the styles reads back.
-/

namespace ShellSyntax

namespace Settings

open Toml (Value Table)

/-- The entries that are written: their keys, what is written, and the values. -/
def entries (s : Settings) : List (Text × Text × Value) :=
  [("enabled".toList, Toml.Document.writeBoolean s.enabled, .boolean s.enabled),
    ("extra_builtins".toList, Toml.Document.writeStrings s.builtins,
      .array (s.builtins.map .string)),
    ("extra_keywords".toList, Toml.Document.writeStrings s.keywords,
      .array (s.keywords.map .string))]

/-- The table that holds the values. -/
def table (s : Settings) : Table := s.entries.map fun e => (e.1, e.2.2)

/-- The document reads back as the table. -/
lemma read?_write (s : Settings) :
    Toml.Document.read? s.write = some [("highlight".toList, .table .explicit s.table)] := by
  have hentries : ∀ e ∈ s.entries, Toml.IsPlainKey e.1 ∧ e.2.2.IsWritten e.2.1 := by
    simp only [entries, List.forall_mem_cons]
    exact ⟨⟨by decide, Toml.isWritten_boolean _⟩, ⟨by decide, Toml.isWritten_strings _⟩,
      ⟨by decide, Toml.isWritten_strings _⟩, fun _ he => absurd he List.not_mem_nil⟩
  have hascending : Table.Ascending s.table := by
    have hkeys : ["enabled".toList, "extra_builtins".toList, "extra_keywords".toList].Pairwise
        fun k k' => compare k' k = .gt := by decide
    exact List.pairwise_map.mp (show (s.table.map (·.1)).Pairwise _ from hkeys)
  have htext : s.write = Toml.Document.writeHeader "highlight".toList
      ++ s.entries.flatMap fun e => Toml.Document.writeEntry e.1 e.2.1 := by
    simp only [write, entries, List.flatMap_cons, List.flatMap_nil, List.append_assoc,
      List.append_nil]
  rw [htext]
  exact Toml.Document.read?_table (by decide) hentries hascending

/-- The strings of an array of strings are found. -/
lemma strings?_array (ts : List Text) : strings? (.array (ts.map .string)) = some ts := by
  rw [strings?, Value.items?, Option.bind_some]
  induction ts with
  | nil => rfl
  | cons t ts ih =>
      rw [List.map_cons, List.mapM_cons, ih]
      rfl

lemma applyHighlight_enabled (s : Settings) (b : Bool) :
    applyHighlight s ("enabled".toList, .boolean b) = .ok { s with enabled := b } := rfl

lemma applyHighlight_builtins (s : Settings) (ts : List Text) :
    applyHighlight s ("extra_builtins".toList, .array (ts.map .string))
      = .ok { s with builtins := ts } := by
  show (expect _ .strings (strings? (.array (ts.map .string)))).map _ = _
  rw [strings?_array]
  rfl

lemma applyHighlight_keywords (s : Settings) (ts : List Text) :
    applyHighlight s ("extra_keywords".toList, .array (ts.map .string))
      = .ok { s with keywords := ts } := by
  show (expect _ .strings (strings? (.array (ts.map .string)))).map _ = _
  rw [strings?_array]
  rfl

/-- The table holds all settings but the styles. -/
lemma ofTable_table (s : Settings) :
    ofTable [("highlight".toList, .table .explicit s.table)] = .ok { s with styles := .empty } := by
  have hsection : s.table.foldlM applyHighlight default = .ok { s with styles := .empty } := by
    rw [table, entries, List.map_cons, List.map_cons, List.map_cons, List.map_nil,
      List.foldlM_cons, applyHighlight_enabled]
    show List.foldlM applyHighlight _ _ = _
    rw [List.foldlM_cons, applyHighlight_builtins]
    show List.foldlM applyHighlight _ _ = _
    rw [List.foldlM_cons, applyHighlight_keywords]
    rfl
  rw [ofTable, List.foldlM_cons]
  show (s.table.foldlM applyHighlight default).bind _ = _
  rw [hsection]
  rfl

/-- **Settings read back**, except for styles, which are not written. So exactly the settings
without styles read back as they are. -/
theorem read_write (s : Settings) :
    read s.write = .ok { s with styles := .empty }
      ∧ (read s.write = .ok s ↔ s.styles = .empty) := by
  have hread : read s.write = .ok { s with styles := .empty } := by
    rw [read, read?_write]
    exact ofTable_table s
  refine ⟨hread, ?_⟩
  rw [hread]
  constructor
  · intro h
    exact (congrArg Settings.styles (Except.ok.inj h)).symm
  · rintro h
    rw [← h]

end Settings

end ShellSyntax
