import Mathlib.Data.List.Basic
import Mathlib.Tactic.Common
import ShellSyntax.Proofs.Toml.Document

/-!
The order of keys in the tables of a document.

* `Table.Ascending.put`, `Table.Ascending.get?_eq_some`, `Table.Ascending.eq_of_key`: setting a key
  keeps the order of keys, and in an ordered table the value of a key is that of its only entry;
* `Table.SortedTo`, `Value.Sorted`: keys ascend in a table and in the tables in it, to a depth, and
  in the tables of a value to any depth;
* `Table.descend?_sortedTo`: changing a table at a path keeps this if the change does;
* `sorted_readValue?`, `Statement.sorted_readAll?`: it holds of values that are read, and so of
  statements;
* `Document.sorted_step?`, `Document.sorted_read?`: a statement keeps it, and so it holds of
  documents.
-/

namespace ShellSyntax.Toml

namespace Table

variable {t : Table} {e : Text × Value} {key : Text} {v : Value} {n : ℕ}

/-! ### Entries of ordered tables -/

lemma mem_put (h : e ∈ t.put key v) : e = (key, v) ∨ e ∈ t := by
  induction t with
  | nil => exact Or.inl (List.mem_singleton.mp h)
  | cons f t ih =>
      rw [Table.put] at h
      split at h
      · exact List.mem_cons.mp h
      · exact (List.mem_cons.mp h).imp_right (List.mem_cons_of_mem f)
      · rcases List.mem_cons.mp h with rfl | h
        · exact Or.inr List.mem_cons_self
        · exact (ih h).imp_right (List.mem_cons_of_mem f)

lemma Ascending.put (h : t.Ascending) (key : Text) (v : Value) : (t.put key v).Ascending := by
  induction t with
  | nil => exact List.pairwise_singleton _ _
  | cons f t ih =>
      obtain ⟨hf, ht⟩ := List.pairwise_cons.mp h
      rw [Table.put]
      split
      · rename_i hlt
        have hbehind : compare f.1 key = .gt := Std.OrientedCmp.gt_of_lt hlt
        refine List.pairwise_cons.mpr ⟨List.forall_mem_cons.mpr ⟨hbehind, fun g hg => ?_⟩, h⟩
        exact Std.TransCmp.gt_trans (hf g hg) hbehind
      · rename_i heq
        obtain rfl := Std.LawfulEqOrd.eq_of_compare heq
        exact List.pairwise_cons.mpr ⟨hf, ht⟩
      · rename_i hgt
        refine List.pairwise_cons.mpr ⟨fun g hg => ?_, ih ht⟩
        rcases mem_put hg with rfl | hg
        · exact hgt
        · exact hf g hg

lemma get?_cons (e : Text × Value) (t : Table) (key : Text) :
    Table.get? (e :: t) key = if e.1 = key then some e.2 else t.get? key := by
  obtain ⟨k, v⟩ := e
  rw [Table.get?, List.lookup_cons]
  by_cases h : k = key
  · rw [if_pos h, beq_iff_eq.mpr h.symm]
  · rw [if_neg h, beq_eq_false_iff_ne.mpr (Ne.symm h)]
    rfl

lemma mem_of_get? (h : t.get? key = some v) : (key, v) ∈ t := by
  induction t with
  | nil => cases h
  | cons e t ih =>
      rw [get?_cons] at h
      split at h
      · rename_i hkey
        cases h
        rw [← hkey]
        exact List.mem_cons_self
      · exact List.mem_cons_of_mem e (ih h)

/-- The value of a key is that of its only entry. -/
lemma Ascending.get?_eq_some (h : t.Ascending) : t.get? key = some v ↔ (key, v) ∈ t := by
  refine ⟨mem_of_get?, fun hmem => ?_⟩
  induction t with
  | nil => cases hmem
  | cons e t ih =>
      obtain ⟨he, ht⟩ := List.pairwise_cons.mp h
      rw [get?_cons]
      rcases List.mem_cons.mp hmem with rfl | hmem
      · exact if_pos rfl
      · rw [if_neg, ih ht hmem]
        intro hkey
        have hgt := he _ hmem
        rw [hkey, Std.ReflOrd.compare_self] at hgt
        cases hgt

/-- No two entries of an ordered table have the same key. -/
lemma Ascending.eq_of_key (h : t.Ascending) {e' : Text × Value} (he : e ∈ t) (he' : e' ∈ t)
    (hkey : e.1 = e'.1) : e = e' := by
  have hv := h.get?_eq_some.mpr he
  rw [hkey, h.get?_eq_some.mpr he'] at hv
  exact Prod.ext hkey (Option.some.inj hv).symm

/-! ### Tables in tables -/

/-- Keys ascend in a table and, down to a depth, in the tables in it. -/
def SortedTo : ℕ → Table → Prop
  | 0, _ => True
  | n + 1, t => t.Ascending ∧ ∀ e ∈ t, ∀ s, e.2.entries? = some s → SortedTo n s

lemma sortedTo_nil : ∀ n, SortedTo n []
  | 0 => trivial
  | _ + 1 => ⟨.nil, fun _ he => absurd he List.not_mem_nil⟩

lemma SortedTo.put (h : t.SortedTo (n + 1)) (key : Text)
    (hv : ∀ s, v.entries? = some s → SortedTo n s) : (t.put key v).SortedTo (n + 1) := by
  refine ⟨h.1.put key v, fun e he => ?_⟩
  rcases mem_put he with rfl | he
  · exact hv
  · exact h.2 e he

lemma SortedTo.of_get? (h : t.SortedTo (n + 1)) {s : Table} (hkey : t.get? key = some v)
    (hs : v.entries? = some s) : s.SortedTo n := h.2 _ (mem_of_get? hkey) s hs

/-- A change that keeps keys in order does so at the end of a path. -/
lemma descend?_sortedTo {change : Origin → Table → Option Table}
    (hchange : ∀ {n origin t t'}, SortedTo n t → change origin t = some t' → SortedTo n t')
    (dotted : Bool) {path : List Text} {origin : Origin} {t' : Table} (h : t.SortedTo n)
    (hdescend : descend? dotted change path origin t = some t') : t'.SortedTo n := by
  induction path generalizing n origin t t' with
  | nil => exact hchange h hdescend
  | cons key path ih =>
      cases n with
      | zero => trivial
      | succ n =>
          rw [descend?] at hdescend
          -- the path leads into a new table, into one that is there, or into the last of a list
          split at hdescend
          · obtain ⟨sub, hsub, rfl⟩ := Option.map_eq_some_iff.mp hdescend
            refine h.put key fun s hs => ?_
            cases hs
            exact ih (sortedTo_nil n) hsub
          · rename_i origin sub hkey
            split at hdescend
            · cases hdescend
            · obtain ⟨sub, hsub, rfl⟩ := Option.map_eq_some_iff.mp hdescend
              refine h.put key fun s hs => ?_
              cases hs
              exact ih (h.of_get? hkey rfl) hsub
          · obtain ⟨latest, -, rfl⟩ := Option.map_eq_some_iff.mp hdescend
            exact h.put key fun s hs => by cases hs
          · cases hdescend

end Table

/-- Keys ascend in the table that a value is, if it is one, and in the tables in it. -/
def Value.Sorted (v : Value) : Prop := ∀ t, v.entries? = some t → ∀ n, t.SortedTo n

namespace Table

variable {t t' : Table} {path : List Text} {key : Text} {v : Value} {n : ℕ}

lemma SortedTo.insert? (h : t.SortedTo n) (hv : v.Sorted) {origin : Origin}
    (hinsert : Table.insert? path key v origin t = some t') : t'.SortedTo n := by
  refine descend?_sortedTo (fun {n origin t t'} h hchange => ?_) true h hinsert
  rw [insertNew?] at hchange
  split at hchange
  · cases hchange
    cases n with
    | zero => trivial
    | succ n => exact h.put key fun s hs => hv s hs n
  · cases hchange

lemma SortedTo.openHeader? (h : t.SortedTo n) (hopen : t.openHeader? path key = some t') :
    t'.SortedTo n := by
  refine descend?_sortedTo (fun {n origin t t'} h hchange => ?_) false h hopen
  cases n with
  | zero => trivial
  | succ n =>
      split at hchange
      · cases hchange
        exact h.put key fun s hs => by cases hs; exact sortedTo_nil n
      · rename_i sub hkey
        cases hchange
        exact h.put key fun s hs => by cases hs; exact h.of_get? hkey rfl
      · cases hchange

lemma SortedTo.openRow? (h : t.SortedTo n) (hopen : t.openRow? path key = some t') :
    t'.SortedTo n := by
  refine descend?_sortedTo (fun {n origin t t'} h hchange => ?_) false h hopen
  cases n with
  | zero => trivial
  | succ n =>
      split at hchange
      · cases hchange
        exact h.put key fun s hs => by cases hs
      · cases hchange
        exact h.put key fun s hs => by cases hs
      · cases hchange

/-- A table of entries whose values are in order is in order. -/
lemma sortedTo_ofEntries? {entries : List ((List Text × Text) × Value)}
    (hentries : ∀ e ∈ entries, e.2.Sorted) (h : ofEntries? entries = some t) (n : ℕ) :
    t.SortedTo n := by
  suffices hfold : ∀ {s}, SortedTo n s →
      entries.foldlM (fun t e => Table.insert? e.1.1 e.1.2 e.2 .explicit t) s = some t →
        t.SortedTo n from hfold (sortedTo_nil n) h
  clear h
  induction entries with
  | nil =>
      intro s hs h
      cases h
      exact hs
  | cons e entries ih =>
      obtain ⟨he, hentries⟩ := List.forall_mem_cons.mp hentries
      intro s hs h
      rw [List.foldlM_cons] at h
      obtain ⟨s', hinsert, hrest⟩ := Option.bind_eq_some_iff.mp h
      exact ih hentries (hs.insert? he hinsert) hrest

end Table

/-! ### Reading -/

/-- A reader whose values are in order. -/
def ReadsSorted (value : Reader Value) : Prop := ∀ {t r}, value t = some r → r.1.Sorted

lemma Value.sorted_of_entries? {v : Value} (h : v.entries? = none) : v.Sorted :=
  fun t ht => by rw [h] at ht; cases ht

lemma Scalar.entries?_value? {t : Text} {v : Value} (h : Scalar.value? t = some v) :
    v.entries? = none := by
  rw [Scalar.value?] at h
  split at h
  · cases h; rfl
  · split at h
    · cases h; rfl
    · split at h
      · cases h; rfl
      · split_ifs at h <;> cases h <;> rfl

lemma Scalar.readsSorted_read? : ReadsSorted Scalar.read? := by
  intro t r h
  simp only [Scalar.read?] at h
  split_ifs at h
  all_goals
    obtain ⟨v, hv, rfl⟩ := Option.map_eq_some_iff.mp h
    exact Value.sorted_of_entries? (Scalar.entries?_value? hv)

lemma sorted_readSetting? {value : Reader Value} (hvalue : ReadsSorted value) {t : Text}
    {r : ((List Text × Text) × Value) × Text} (h : readSetting? value t = some r) :
    r.1.2.Sorted := by
  obtain ⟨key, -, h⟩ := Option.bind_eq_some_iff.mp h
  split at h
  · obtain ⟨s, hs, rfl⟩ := Option.map_eq_some_iff.mp h
    exact hvalue hs
  · cases h

lemma sorted_readEntries? {value : Reader Value} (hvalue : ReadsSorted value) {fuel : ℕ} {t : Text}
    {r : List ((List Text × Text) × Value) × Text} (h : readEntries? value fuel t = some r) :
    ∀ e ∈ r.1, e.2.Sorted := by
  induction fuel generalizing t r with
  | zero => cases h
  | succ fuel ih =>
      obtain ⟨first, hfirst, h⟩ := Option.bind_eq_some_iff.mp h
      have hsorted := sorted_readSetting? hvalue hfirst
      split at h
      · obtain ⟨s, hs, rfl⟩ := Option.map_eq_some_iff.mp h
        exact List.forall_mem_cons.mpr ⟨hsorted, ih hs⟩
      · cases h
        exact List.forall_mem_singleton.mpr hsorted
      · cases h

lemma readsSorted_readInline? {value : Reader Value} (hvalue : ReadsSorted value) :
    ReadsSorted (readInline? value) := by
  intro t r h
  simp only [readInline?] at h
  split at h
  · cases h
    rintro s ⟨⟩ n
    exact Table.sortedTo_nil n
  · obtain ⟨entries, hentries, h⟩ := Option.bind_eq_some_iff.mp h
    obtain ⟨table, htable, rfl⟩ := Option.map_eq_some_iff.mp h
    rintro s ⟨⟩ n
    exact Table.sortedTo_ofEntries? (sorted_readEntries? hvalue hentries) htable n

/-- Values that are read are in order. -/
lemma readsSorted_readValue? (nesting : ℕ) : ReadsSorted (readValue? nesting) := by
  induction nesting with
  | zero =>
      intro t r h
      rw [readValue?.eq_def] at h
      dsimp only at h
      split at h
      · obtain ⟨s, -, rfl⟩ := Option.map_eq_some_iff.mp h
        exact Value.sorted_of_entries? rfl
      · obtain ⟨s, -, rfl⟩ := Option.map_eq_some_iff.mp h
        exact Value.sorted_of_entries? rfl
      · cases h
      · cases h
      · exact Scalar.readsSorted_read? h
  | succ nesting ih =>
      intro t r h
      rw [readValue?.eq_def] at h
      dsimp only at h
      split at h
      · obtain ⟨s, -, rfl⟩ := Option.map_eq_some_iff.mp h
        exact Value.sorted_of_entries? rfl
      · obtain ⟨s, -, rfl⟩ := Option.map_eq_some_iff.mp h
        exact Value.sorted_of_entries? rfl
      · obtain ⟨s, -, rfl⟩ := Option.map_eq_some_iff.mp h
        exact Value.sorted_of_entries? rfl
      · exact readsSorted_readInline? ih h
      · exact Scalar.readsSorted_read? h

/-- The value of a statement, if it sets a key to one, is in order. -/
def Statement.Sorted : Statement → Prop
  | .entry _ _ v => v.Sorted
  | _ => True

namespace Statement

lemma sorted_read? {t : Text} {r : Statement × Text} (h : Statement.read? t = some r) :
    r.1.Sorted := by
  rw [Statement.read?.eq_def] at h
  split at h
  · obtain ⟨key, -, h⟩ := Option.bind_eq_some_iff.mp h
    split at h
    · obtain ⟨rest, -, rfl⟩ := Option.map_eq_some_iff.mp h
      trivial
    · cases h
  · obtain ⟨key, -, h⟩ := Option.bind_eq_some_iff.mp h
    split at h
    · obtain ⟨rest, -, rfl⟩ := Option.map_eq_some_iff.mp h
      trivial
    · cases h
  · obtain ⟨s, hs, h⟩ := Option.bind_eq_some_iff.mp h
    obtain ⟨rest, -, rfl⟩ := Option.map_eq_some_iff.mp h
    exact sorted_readSetting? (readsSorted_readValue? maxNesting) hs

lemma sorted_readLines? {fuel : ℕ} {t : Text} {statements : List Statement}
    (h : readLines? fuel t = some statements) : ∀ s ∈ statements, s.Sorted := by
  induction fuel generalizing t statements with
  | zero => cases h
  | succ fuel ih =>
      obtain ⟨t, -, h⟩ := Option.bind_eq_some_iff.mp h
      split at h
      · cases h
        exact fun s hs => absurd hs List.not_mem_nil
      · obtain ⟨r, hr, h⟩ := Option.bind_eq_some_iff.mp h
        obtain ⟨rest, hrest, rfl⟩ := Option.map_eq_some_iff.mp h
        exact List.forall_mem_cons.mpr ⟨sorted_read? hr, ih hrest⟩

lemma sorted_readAll? {t : Text} {statements : List Statement}
    (h : readAll? t = some statements) : ∀ s ∈ statements, s.Sorted := by
  rw [readAll?.eq_def] at h
  split at h
  · exact sorted_readLines? h
  · exact sorted_readLines? h

end Statement

/-! ### Documents -/

namespace Document

lemma sorted_step? {r r' : Reading} {s : Statement} {n : ℕ} (h : r.table.SortedTo n)
    (hs : s.Sorted) (hstep : step? r s = some r') : r'.table.SortedTo n := by
  cases s with
  | header path key =>
      obtain ⟨t, ht, rfl⟩ := Option.map_eq_some_iff.mp hstep
      exact h.openHeader? ht
  | row path key =>
      obtain ⟨t, ht, rfl⟩ := Option.map_eq_some_iff.mp hstep
      exact h.openRow? ht
  | entry path key v =>
      obtain ⟨t, ht, rfl⟩ := Option.map_eq_some_iff.mp hstep
      exact Table.descend?_sortedTo (fun h hinsert => h.insert? hs hinsert) false h ht

lemma sorted_steps? {statements : List Statement} (hs : ∀ s ∈ statements, s.Sorted)
    {r r' : Reading} {n : ℕ} (h : r.table.SortedTo n)
    (hsteps : statements.foldlM step? r = some r') : r'.table.SortedTo n := by
  induction statements generalizing r with
  | nil =>
      cases hsteps
      exact h
  | cons s statements ih =>
      obtain ⟨hfirst, hs⟩ := List.forall_mem_cons.mp hs
      rw [List.foldlM_cons] at hsteps
      obtain ⟨r₁, hstep, hrest⟩ := Option.bind_eq_some_iff.mp hsteps
      exact ih hs (sorted_step? h hfirst hstep) hrest

/-- Keys ascend in the table of a document and in all tables in it. -/
lemma sorted_read? {text : Text} {t : Table} (h : Document.read? text = some t) (n : ℕ) :
    t.SortedTo n := by
  obtain ⟨statements, hall, h⟩ := Option.bind_eq_some_iff.mp h
  obtain ⟨r, hr, rfl⟩ := Option.map_eq_some_iff.mp h
  exact sorted_steps? (Statement.sorted_readAll? hall) (Table.sortedTo_nil n) hr

end Document

end ShellSyntax.Toml
