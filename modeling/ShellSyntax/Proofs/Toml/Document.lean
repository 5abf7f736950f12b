import Mathlib.Data.List.Basic
import Mathlib.Tactic.Common
import ShellSyntax.Proofs.Toml.Statement

/-!
Documents of a single table read back.

* `Table.Behind`, `Table.Ascending`: the order of keys. `Table.Behind.put`: an entry whose key comes
  behind all others is added at the end;
* `Document.step?_entry`, `Document.ofStatements?_entries`: a header and entries in ascending order
  build up the table of these entries;
* `Document.read?_table`: so a document of such lines reads back as that table.
-/

namespace ShellSyntax.Toml

/-! ### Keys in order -/

namespace Table

/-- A key comes behind all keys of a table. -/
def Behind (t : Table) (key : Text) : Prop := ∀ e ∈ t, compare key e.1 = .gt

/-- Each key of a table comes behind the keys before it. -/
def Ascending (t : Table) : Prop := t.Pairwise fun e f => compare f.1 e.1 = .gt

lemma Behind.put {t : Table} {key : Text} (h : t.Behind key) (v : Value) :
    t.put key v = t ++ [(key, v)] := by
  induction t with
  | nil => rfl
  | cons e t ih =>
      obtain ⟨he, ht⟩ := List.forall_mem_cons.mp h
      rw [Table.put, he]
      exact congrArg (e :: ·) (ih ht)

lemma Behind.get? {t : Table} {key : Text} (h : t.Behind key) : t.get? key = none := by
  refine List.lookup_eq_none_iff.mpr fun e he => ?_
  refine bne_iff_ne.mpr fun heq => ?_
  have hgt := h e he
  rw [← heq, Std.ReflOrd.compare_self] at hgt
  cases hgt

end Table

/-! ### Statements -/

namespace Document

/-- The document so far is one table, to which entries are added. -/
def inTable (key : Text) (t : Table) : Reading := ⟨[(key, .table .explicit t)], [key]⟩

/-- An entry whose key comes behind all others is added to the table. -/
lemma step?_entry (key : Text) {t : Table} {k : Text} (h : t.Behind k) (v : Value) :
    step? (inTable key t) (.entry [] k v) = some (inTable key (t ++ [(k, v)])) := by
  have hfound : Table.get? [(key, Value.table .explicit t)] key = some (.table .explicit t) := by
    rw [Table.get?, List.lookup_cons_self]
  have hput : Table.put key (.table .explicit (t ++ [(k, v)])) [(key, .table .explicit t)]
      = [(key, .table .explicit (t ++ [(k, v)]))] := by
    rw [Table.put, Std.ReflOrd.compare_self]
  have hinsert : Table.insert? [] k v .explicit t = some (t ++ [(k, v)]) := by
    rw [Table.insert?, Table.descend?, Table.insertNew?, h.get?, h.put]
    rfl
  rw [inTable, step?, Table.descend?, hfound]
  dsimp only
  rw [if_neg (by decide), Table.descend?, hinsert, Option.map_some, hput]
  rfl

/-- Entries in ascending order are added to a table one after the other. -/
lemma foldlM_entries (key : Text) {t es : Table} (h : Table.Ascending (t ++ es)) :
    (es.map fun e => Statement.entry [] e.1 e.2).foldlM step? (inTable key t)
      = some (inTable key (t ++ es)) := by
  induction es generalizing t with
  | nil => rw [List.append_nil]; rfl
  | cons e es ih =>
      have hbehind : t.Behind e.1 := fun f hf =>
        (List.pairwise_append.mp h).2.2 f hf e List.mem_cons_self
      rw [List.append_cons] at h ⊢
      rw [List.map_cons, List.foldlM_cons, step?_entry key hbehind, Option.bind_eq_bind,
        Option.bind_some]
      exact ih h

/-- A header and entries in ascending order build up the table of these entries. -/
lemma ofStatements?_entries (key : Text) {t : Table} (h : t.Ascending) :
    ofStatements? (.header [] key :: t.map fun e => .entry [] e.1 e.2)
      = some [(key, .table .explicit t)] := by
  have hheader : step? ⟨[], []⟩ (.header [] key) = some (inTable key []) := rfl
  rw [ofStatements?, List.foldlM_cons, hheader, Option.bind_eq_bind, Option.bind_some,
    foldlM_entries key (t := []) h]
  rfl

/-- A document of one table reads back, if its keys need no quotes and ascend. -/
lemma read?_table {key : Text} (hkey : IsPlainKey key) {entries : List (Text × Text × Value)}
    (hentries : ∀ e ∈ entries, IsPlainKey e.1 ∧ e.2.2.IsWritten e.2.1)
    (hascending : Table.Ascending (entries.map fun e => (e.1, e.2.2))) :
    read? (writeHeader key ++ entries.flatMap fun e => writeEntry e.1 e.2.1)
      = some [(key, .table .explicit (entries.map fun e => (e.1, e.2.2)))] := by
  let lines : List (Text × Statement) := (writeHeader key, .header [] key) ::
    entries.map fun e => (writeEntry e.1 e.2.1, .entry [] e.1 e.2.2)
  have hlines : ∀ l ∈ lines, l.2.IsWritten l.1 := by
    refine List.forall_mem_cons.mpr ⟨isWritten_header hkey, fun l hl => ?_⟩
    obtain ⟨e, he, rfl⟩ := List.mem_map.mp hl
    exact isWritten_entry (hentries e he).1 (hentries e he).2
  have htext : writeHeader key ++ entries.flatMap (fun e => writeEntry e.1 e.2.1)
      = lines.flatMap (·.1) := by
    simp only [lines, List.flatMap_cons, List.flatMap_map]
  have hread := Statement.readLines?_flatMap hlines (Nat.lt_succ_self _)
  have hall : Statement.readAll? (lines.flatMap (·.1)) = some (lines.map (·.2)) := by
    rw [Statement.readAll?]
    · exact hread
    · rintro s hs
      cases hs
  have hstatements : lines.map (·.2) = .header [] key ::
      (entries.map fun e => (e.1, e.2.2)).map fun e => Statement.entry [] e.1 e.2 := by
    simp only [lines, List.map_cons, List.map_map]
    rfl
  rw [read?, htext, hall, Option.bind_some, hstatements, ofStatements?_entries key hascending]

end Document

end ShellSyntax.Toml
