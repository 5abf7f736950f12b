import Mathlib.Data.List.Basic
import Mathlib.Tactic.Common
import ShellSyntax.Proofs.Text.Bytes
import ShellSyntax.Proofs.Toml.Order
import ShellSyntax.Settings

/-!
Which fault of a table of settings is reported.

* `Settings.SettingWrong`, `Settings.StyleWrong`: what is wrong with an entry of `highlight` and of
  `styles` by itself. `Settings.applyHighlight_eq_error`, `Settings.applyStyle_eq_error`: an entry is
  refused just for that, whatever the settings are so far;
* `Settings.FirstWrong`, `Settings.foldlM_eq_error`: entries of an ordered table that are looked at
  one after the other are refused for the first wrong one;
* `Settings.Wrong`: what is wrong at a path of a table. `Settings.ofTable_eq_error`: a table is
  refused for what is wrong at the first such path.
-/

namespace ShellSyntax

namespace Settings

open Toml (Value Table)

/-! ### Wrong entries -/

/-- What is wrong with an entry of the table `highlight`. -/
inductive SettingWrong : Text × Value → SettingsFault → Prop where
  | switch {v : Value} (h : v.boolean? = none) :
    SettingWrong ("enabled".toList, v) (.wrongForm "enabled".toList .boolean)
  | words {key : Text} {v : Value}
    (hkey : key = "extra_keywords".toList ∨ key = "extra_builtins".toList)
    (h : strings? v = none) : SettingWrong (key, v) (.wrongForm key .strings)

/-- What is wrong with an entry of the table `styles`: its key before its form, and its form before
what it describes. -/
inductive StyleWrong : Text × Value → SettingsFault → Prop where
  | kind {key : Text} {v : Value} (h : TokenKind.ofName? key = none) :
    StyleWrong (key, v) (.unknownKind key)
  | form {key : Text} {v : Value} {kind : TokenKind} (hkey : TokenKind.ofName? key = some kind)
    (h : v.string? = none) : StyleWrong (key, v) (.wrongForm key .string)
  | description {key description : Text} {v : Value} {kind : TokenKind} {e : InvalidStyle}
    (hkey : TokenKind.ofName? key = some kind) (hv : v.string? = some description)
    (h : Style.parse description = .error e) : StyleWrong (key, v) (.invalidStyle e)

section

variable {s : Settings} {e : Text × Value} {fault : SettingsFault}

lemma expect_map_eq_error {α β : Type} {setting : Text} {form : SettingForm} {o : Option α}
    {f : α → β} :
    (expect setting form o).map f = .error fault ↔ o = none ∧ fault = .wrongForm setting form := by
  cases o with
  | none => simp [expect, Except.map, eq_comm]
  | some a => simp [expect, Except.map]

lemma applyHighlight_eq_error : applyHighlight s e = .error fault ↔ SettingWrong e fault := by
  constructor
  · obtain ⟨key, v⟩ := e
    simp only [applyHighlight]
    split_ifs with henabled hkeywords hbuiltins
    · rw [expect_map_eq_error]
      rintro ⟨h, rfl⟩
      subst henabled
      exact .switch h
    · rw [expect_map_eq_error]
      rintro ⟨h, rfl⟩
      exact .words (Or.inl hkeywords) h
    · rw [expect_map_eq_error]
      rintro ⟨h, rfl⟩
      exact .words (Or.inr hbuiltins) h
    · intro h
      cases h
  · intro h
    cases h with
    | @switch v h =>
        show (expect _ .boolean v.boolean?).map _ = _
        exact expect_map_eq_error.mpr ⟨h, rfl⟩
    | @words key v hkey h =>
        rcases hkey with rfl | rfl
        · show (expect _ .strings (strings? v)).map _ = _
          exact expect_map_eq_error.mpr ⟨h, rfl⟩
        · show (expect _ .strings (strings? v)).map _ = _
          exact expect_map_eq_error.mpr ⟨h, rfl⟩

lemma applyStyle_eq_error : applyStyle s e = .error fault ↔ StyleWrong e fault := by
  obtain ⟨key, v⟩ := e
  simp only [applyStyle]
  constructor
  · intro h
    cases hkey : TokenKind.ofName? key with
    | none =>
        rw [hkey] at h
        cases h
        exact .kind hkey
    | some kind =>
        rw [hkey] at h
        cases hv : v.string? with
        | none =>
            rw [hv] at h
            cases h
            exact .form hkey hv
        | some description =>
            rw [hv] at h
            cases hparse : Style.parse description with
            | error e =>
                simp only [expect, Except.bind, hparse] at h
                cases h
                exact .description hkey hv hparse
            | ok style =>
                simp only [expect, Except.bind, hparse] at h
                cases h
  · intro h
    cases h with
    | kind hkey => rw [hkey]
    | form hkey hv =>
        rw [hkey, hv]
        rfl
    | description hkey hv hparse =>
        rw [hkey, hv]
        simp only [expect, Except.bind, hparse]

end

/-! ### The first wrong entry -/

/-- What is wrong with the first wrong entry of a table. -/
def FirstWrong (wrong : Text × Value → SettingsFault → Prop) (t : Table) (fault : SettingsFault) :
    Prop :=
  ∃ e ∈ t, wrong e fault ∧ ∀ e' ∈ t, ∀ fault', wrong e' fault' → compare e.1 e'.1 ≠ .gt

section

variable {step : Settings → Text × Value → Except SettingsFault Settings}
  {wrong : Text × Value → SettingsFault → Prop} {t : Table} {fault : SettingsFault}

/-- Entries that are accepted one after the other. -/
lemma foldlM_cons_eq_ok {e : Text × Value} {s s' : Settings} :
    (e :: t).foldlM step s = .ok s' ↔ ∃ s₁, step s e = .ok s₁ ∧ t.foldlM step s₁ = .ok s' := by
  rw [List.foldlM_cons]
  cases step s e with
  | error fault =>
      constructor
      · intro h
        cases h
      · rintro ⟨s₁, h, -⟩
        cases h
  | ok s₁ =>
      constructor
      · exact fun h => ⟨s₁, rfl, h⟩
      · rintro ⟨s₂, h, hrest⟩
        cases h
        exact hrest

/-- If entries are accepted, none of them is wrong. -/
lemma not_wrong_of_foldlM
    (hstep : ∀ e ∈ t, ∀ s fault, step s e = .error fault ↔ wrong e fault) {s s' : Settings}
    (h : t.foldlM step s = .ok s') : ∀ e ∈ t, ∀ fault, ¬wrong e fault := by
  induction t generalizing s with
  | nil => exact fun e he => absurd he List.not_mem_nil
  | cons e t ih =>
      obtain ⟨he, ht⟩ := List.forall_mem_cons.mp hstep
      obtain ⟨s₁, hfirst, hrest⟩ := foldlM_cons_eq_ok.mp h
      refine List.forall_mem_cons.mpr ⟨fun fault hwrong => ?_, ih ht hrest⟩
      rw [(he s fault).mpr hwrong] at hfirst
      cases hfirst

/-- In an ordered table the first wrong entry is refused. -/
lemma first_of_foldlM (ht : t.Ascending)
    (hstep : ∀ e ∈ t, ∀ s fault, step s e = .error fault ↔ wrong e fault) {s : Settings}
    (h : t.foldlM step s = .error fault) : FirstWrong wrong t fault := by
  induction t generalizing s with
  | nil => cases h
  | cons e t ih =>
      obtain ⟨hbehind, ht⟩ := List.pairwise_cons.mp ht
      obtain ⟨he, hstep⟩ := List.forall_mem_cons.mp hstep
      rw [List.foldlM_cons] at h
      cases hfirst : step s e with
      | error fault' =>
          rw [hfirst] at h
          cases h
          refine ⟨e, List.mem_cons_self, (he s fault).mp hfirst, List.forall_mem_cons.mpr ?_⟩
          refine ⟨fun _ _ hgt => ?_, fun f hf _ _ hgt => ?_⟩
          · rw [Std.ReflOrd.compare_self] at hgt
            cases hgt
          · have hlt := Std.OrientedCmp.lt_of_gt (hbehind f hf)
            rw [hlt] at hgt
            cases hgt
      | ok s₁ =>
          rw [hfirst] at h
          obtain ⟨f, hf, hwrong, hleast⟩ := ih ht hstep h
          refine ⟨f, List.mem_cons_of_mem e hf, hwrong, List.forall_mem_cons.mpr ⟨?_, hleast⟩⟩
          intro fault' he'
          rw [(he s fault').mpr he'] at hfirst
          cases hfirst

/-- There is just one first entry. -/
lemma FirstWrong.unique (ht : t.Ascending)
    (hwrong : ∀ e ∈ t, ∀ fault fault', wrong e fault → wrong e fault' → fault = fault')
    {fault' : SettingsFault} (h : FirstWrong wrong t fault) (h' : FirstWrong wrong t fault') :
    fault = fault' := by
  obtain ⟨e, he, hfault, hleast⟩ := h
  obtain ⟨e', he', hfault', hleast'⟩ := h'
  have hkey : e.1 = e'.1 :=
    eq_of_compare_ne_gt (hleast e' he' fault' hfault') (hleast' e he fault hfault)
  obtain rfl := ht.eq_of_key he he' hkey
  exact hwrong e he fault fault' hfault hfault'

lemma exists_first (ht : t.Ascending)
    (hstep : ∀ e ∈ t, ∀ s fault, step s e = .error fault ↔ wrong e fault) {e : Text × Value}
    (he : e ∈ t) (h : wrong e fault) : ∃ fault', FirstWrong wrong t fault' := by
  cases hfold : t.foldlM step .default with
  | error fault' => exact ⟨fault', first_of_foldlM ht hstep hfold⟩
  | ok s => exact absurd h (not_wrong_of_foldlM hstep hfold e he fault)

/-- The entries of an ordered table are refused just for what is wrong with the first wrong one. -/
lemma foldlM_eq_error (ht : t.Ascending)
    (hstep : ∀ e ∈ t, ∀ s fault, step s e = .error fault ↔ wrong e fault) {s : Settings} :
    t.foldlM step s = .error fault ↔ FirstWrong wrong t fault := by
  refine ⟨first_of_foldlM ht hstep, fun h => ?_⟩
  cases hfold : t.foldlM step s with
  | error fault' =>
      have hunique : ∀ e ∈ t, ∀ fault fault', wrong e fault → wrong e fault' → fault = fault' := by
        intro e he fault fault' hfault hfault'
        rw [← hstep e he s] at hfault hfault'
        exact Except.error.inj (hfault.symm.trans hfault')
      rw [h.unique ht hunique (first_of_foldlM ht hstep hfold)]
  | ok s' =>
      obtain ⟨e, he, hwrong, -⟩ := h
      exact absurd hwrong (not_wrong_of_foldlM hstep hfold e he fault)

end

/-! ### Wrong sections -/

/-- What is wrong with an entry of a section. -/
inductive EntryWrong : Text → Text × Value → SettingsFault → Prop where
  | setting {e : Text × Value} {fault : SettingsFault} (h : SettingWrong e fault) :
    EntryWrong "highlight".toList e fault
  | style {e : Text × Value} {fault : SettingsFault} (h : StyleWrong e fault) :
    EntryWrong "styles".toList e fault

/-- The sections that matter. -/
def sections : List Text := ["highlight".toList, "styles".toList]

/-- The entries of a section, which has none if it is missing. -/
def entriesOf (t : Table) (name : Text) : Table := ((t.get? name).bind Value.entries?).getD []

/-- What is wrong with a section as a whole: its form, or the first wrong entry of it. -/
def SectionWrong (e : Text × Value) (fault : SettingsFault) : Prop :=
  (e.1 ∈ sections ∧ e.2.entries? = none ∧ fault = .wrongForm e.1 .table)
    ∨ ∃ t, e.2.entries? = some t ∧ FirstWrong (EntryWrong e.1) t fault

/-- What is wrong at a path of a table. -/
inductive Wrong (t : Table) : List Text → SettingsFault → Prop where
  | table {name : Text} {v : Value} (hname : name ∈ sections) (hv : t.get? name = some v)
    (h : v.entries? = none) : Wrong t [name] (.wrongForm name .table)
  | entry {name : Text} {e : Text × Value} {fault : SettingsFault} (he : e ∈ entriesOf t name)
    (h : EntryWrong name e fault) : Wrong t [name, e.1] fault

variable {t : Table} {s : Settings} {name : Text} {e : Text × Value} {v : Value}
  {fault fault' : SettingsFault} {path path' : List Text}
  {step : Settings → Text × Value → Except SettingsFault Settings}

/-- What an entry of a section does, if the section matters. -/
def entryStep? (name : Text) : Option (Settings → Text × Value → Except SettingsFault Settings) :=
  if name = "highlight".toList then some applyHighlight
  else if name = "styles".toList then some applyStyle
  else none

lemma applySection_of_step (h : entryStep? name = some step) :
    applySection s (name, v)
      = (expect name .table v.entries?).bind fun t => t.foldlM step s := by
  rw [entryStep?] at h
  simp only [applySection]
  split_ifs at h ⊢ <;> cases h <;> rfl

lemma applySection_of_none (h : entryStep? name = none) : applySection s (name, v) = .ok s := by
  rw [entryStep?] at h
  simp only [applySection]
  split_ifs at h ⊢
  rfl

lemma mem_sections_iff : name ∈ sections ↔ (entryStep? name).isSome := by
  rw [entryStep?, sections, List.mem_cons, List.mem_singleton]
  split_ifs with hhighlight hstyles
  · exact iff_of_true (Or.inl hhighlight) rfl
  · exact iff_of_true (Or.inr hstyles) rfl
  · exact iff_of_false (not_or.mpr ⟨hhighlight, hstyles⟩) Bool.false_ne_true

lemma EntryWrong.mem_sections (h : EntryWrong name e fault) : name ∈ sections := by
  cases h with
  | setting h => exact List.mem_cons_self
  | style h => exact List.mem_cons_of_mem _ List.mem_cons_self

lemma entryStep_eq_error (h : entryStep? name = some step) (e : Text × Value) (s : Settings)
    (fault : SettingsFault) : step s e = .error fault ↔ EntryWrong name e fault := by
  rw [entryStep?] at h
  split_ifs at h with hhighlight hstyles
  · cases h
    rw [applyHighlight_eq_error]
    refine ⟨fun h => hhighlight ▸ .setting h, fun h => ?_⟩
    cases h with
    | setting h => exact h
    | style h => exact absurd hhighlight (by decide)
  · cases h
    rw [applyStyle_eq_error]
    refine ⟨fun h => hstyles ▸ .style h, fun h => ?_⟩
    cases h with
    | setting h => exact absurd rfl hhighlight
    | style h => exact h

/-- A section is refused just for what is wrong with it. -/
lemma applySection_eq_error (hv : ∀ t, v.entries? = some t → t.Ascending) :
    applySection s (name, v) = .error fault ↔ SectionWrong (name, v) fault := by
  cases hstep : entryStep? name with
  | none =>
      have hname : name ∉ sections := by
        rw [mem_sections_iff, hstep]
        exact Bool.false_ne_true
      rw [applySection_of_none hstep]
      constructor
      · intro h
        cases h
      · rintro (⟨hmem, -⟩ | ⟨t, -, e, -, hwrong, -⟩)
        · exact absurd hmem hname
        · exact absurd hwrong.mem_sections hname
  | some step =>
      have hname : name ∈ sections := by
        rw [mem_sections_iff, hstep]
        rfl
      rw [applySection_of_step hstep, SectionWrong]
      cases hentries : v.entries? with
      | none =>
          constructor
          · intro h
            cases h
            exact Or.inl ⟨hname, rfl, rfl⟩
          · rintro (⟨-, -, rfl⟩ | ⟨t, ht, -⟩)
            · rfl
            · cases ht
      | some t =>
          -- the entries are applied one by one, so the first wrong one is reported
          have hfold : t.foldlM step s = .error fault ↔ FirstWrong (EntryWrong name) t fault :=
            foldlM_eq_error (hv t hentries) fun e _ => entryStep_eq_error hstep e
          constructor
          · exact fun h => Or.inr ⟨t, rfl, hfold.mp h⟩
          · rintro (⟨-, h, -⟩ | ⟨t', ht, hfirst⟩)
            · cases h
            · cases ht
              exact hfold.mpr hfirst

/-! ### Wrong tables -/

lemma applySection_eq_error_of_mem (ht : t.SortedTo 2) :
    ∀ e ∈ t, ∀ s fault, applySection s e = .error fault ↔ SectionWrong e fault :=
  fun e he _ _ => applySection_eq_error fun sub hsub => (ht.2 e he sub hsub).1

lemma entriesOf_eq (h : t.get? name = some v) {sub : Table} (hv : v.entries? = some sub) :
    entriesOf t name = sub := by
  rw [entriesOf, h, Option.bind_some, hv]
  rfl

lemma exists_of_mem_entriesOf (h : e ∈ entriesOf t name) :
    ∃ v, t.get? name = some v ∧ v.entries? = some (entriesOf t name) := by
  rw [entriesOf] at h ⊢
  cases hv : t.get? name with
  | none =>
      rw [hv] at h
      cases h
  | some v =>
      cases hentries : v.entries? with
      | none =>
          rw [hv, Option.bind_some, hentries] at h
          cases h
      | some sub => exact ⟨v, rfl, by rw [Option.bind_some, hentries]; rfl⟩

lemma ascending_entriesOf (ht : t.SortedTo 2) (name : Text) : (entriesOf t name).Ascending := by
  rw [entriesOf]
  cases hv : t.get? name with
  | none => exact .nil
  | some v =>
      cases hentries : v.entries? with
      | none =>
          rw [Option.bind_some, hentries]
          exact .nil
      | some sub =>
          rw [Option.bind_some, hentries]
          exact (ht.of_get? hv hentries).1

/-- What is wrong at a path is wrong with the section it leads into. -/
lemma Wrong.exists_section (ht : t.SortedTo 2) (h : Wrong t path fault) :
    ∃ name v rest, path = name :: rest ∧ (name, v) ∈ t
      ∧ ∃ fault', SectionWrong (name, v) fault' := by
  cases h with
  | table hname hv h =>
      exact ⟨_, _, [], rfl, Table.mem_of_get? hv, _, Or.inl ⟨hname, h, rfl⟩⟩
  | entry he h =>
      obtain ⟨v, hv, hentries⟩ := exists_of_mem_entriesOf he
      obtain ⟨step, hstep⟩ := Option.isSome_iff_exists.mp (mem_sections_iff.mp h.mem_sections)
      obtain ⟨fault', hfirst⟩ := exists_first (ascending_entriesOf ht _)
        (fun e _ => entryStep_eq_error hstep e) he h
      exact ⟨_, v, _, rfl, Table.mem_of_get? hv, fault', Or.inr ⟨_, hentries, hfirst⟩⟩

lemma Wrong.unique (ht : t.SortedTo 2) (h : Wrong t path fault) (h' : Wrong t path fault') :
    fault = fault' := by
  cases h with
  | table hname hv h =>
      cases h' with
      | table hname' hv' h' => rfl
  | entry he h =>
      rename_i name e
      obtain ⟨step, hstep⟩ := Option.isSome_iff_exists.mp (mem_sections_iff.mp h.mem_sections)
      revert h'
      generalize hpath : [name, e.1] = path
      intro h'
      cases h' with
      | table hname' hv' h' => cases hpath
      | entry he' h' =>
          rename_i name' e'
          obtain ⟨rfl, hkey⟩ := List.cons.inj hpath
          have hkey : e.1 = e'.1 := (List.cons.inj hkey).1
          obtain rfl := (ascending_entriesOf ht name).eq_of_key he he' hkey
          rw [← entryStep_eq_error hstep e default] at h h'
          exact Except.error.inj (h.symm.trans h')

/-- The first wrong section holds the first wrong path. -/
lemma exists_wrong_of_first (ht : t.SortedTo 2) (h : FirstWrong SectionWrong t fault) :
    ∃ path, Wrong t path fault
      ∧ ∀ path' fault', Wrong t path' fault' → compare path path' ≠ .gt := by
  obtain ⟨⟨name, v⟩, hmem, hwrong, hleast⟩ := h
  have hv : t.get? name = some v := ht.1.get?_eq_some.mpr hmem
  -- a path into another section comes later, one into the same section is compared from there on
  have hsection : ∀ rest,
      (∀ rest' fault', Wrong t (name :: rest') fault' → compare rest rest' ≠ .gt) →
        ∀ path' fault', Wrong t path' fault' → compare (name :: rest) path' ≠ .gt := by
    intro rest hrest path' fault' h'
    obtain ⟨name', v', rest', rfl, hmem', fault'', hwrong'⟩ := h'.exists_section ht
    rw [compare_cons]
    cases hcompare : compare name name' with
    | lt => exact fun h => by cases h
    | eq =>
        obtain rfl := Std.LawfulEqOrd.eq_of_compare hcompare
        exact hrest rest' fault' h'
    | gt => exact absurd hcompare (hleast _ hmem' _ hwrong')
  rcases hwrong with ⟨hname, hentries, rfl⟩ | ⟨sub, hentries, e, he, hwrong, hfirst⟩
  · -- the section itself is wrong, and its path comes before all paths into it
    refine ⟨[name], .table hname hv hentries, hsection [] fun rest' _ _ => ?_⟩
    cases rest' <;> exact fun h => by cases h
  · have hsub : entriesOf t name = sub := entriesOf_eq hv hentries
    refine ⟨[name, e.1], .entry (hsub ▸ he) hwrong, hsection [e.1] fun rest' fault' h' => ?_⟩
    generalize hpath : name :: rest' = path at h'
    cases h' with
    | table hname' hv' h' =>
        cases hpath
        rw [hv] at hv'
        cases hv'
        rw [hentries] at h'
        cases h'
    | entry he' h' =>
        cases hpath
        rw [compare_cons]
        cases hcompare : compare e.1 _ with
        | lt => exact fun h => by cases h
        | eq => exact fun h => by cases h
        | gt => exact absurd hcompare (hfirst _ (hsub ▸ he') _ h')

/-- A table is refused just for what is wrong at the first wrong path. -/
lemma ofTable_eq_error (ht : t.SortedTo 2) :
    ofTable t = .error fault ↔ ∃ path, Wrong t path fault
      ∧ ∀ path' fault', Wrong t path' fault' → compare path path' ≠ .gt := by
  have hfold : ∀ fault, ofTable t = .error fault ↔ FirstWrong SectionWrong t fault :=
    fun fault => foldlM_eq_error ht.1 (applySection_eq_error_of_mem ht)
  refine ⟨fun h => exists_wrong_of_first ht ((hfold fault).mp h), ?_⟩
  rintro ⟨path, hwrong, hleast⟩
  obtain ⟨name, v, rest, -, hmem, fault', hsection⟩ := hwrong.exists_section ht
  obtain ⟨fault₀, hfirst⟩ := exists_first ht.1 (applySection_eq_error_of_mem ht) hmem hsection
  obtain ⟨path₀, hwrong₀, hleast₀⟩ := exists_wrong_of_first ht hfirst
  obtain rfl : path = path₀ :=
    eq_of_compare_ne_gt (hleast path₀ fault₀ hwrong₀) (hleast₀ path fault hwrong)
  rw [hwrong.unique ht hwrong₀]
  exact (hfold fault₀).mpr hfirst

/-- A table is accepted just if nothing is wrong at any path. -/
lemma exists_ofTable_iff (ht : t.SortedTo 2) :
    (∃ s, ofTable t = .ok s) ↔ ∀ path fault, ¬Wrong t path fault := by
  constructor
  · rintro ⟨s, hs⟩ path fault hwrong
    obtain ⟨name, v, rest, -, hmem, fault', hsection⟩ := hwrong.exists_section ht
    exact not_wrong_of_foldlM (applySection_eq_error_of_mem ht) hs _ hmem fault' hsection
  · intro h
    cases hs : ofTable t with
    | error fault =>
        obtain ⟨path, hwrong, -⟩ := (ofTable_eq_error ht).mp hs
        exact absurd hwrong (h path fault)
    | ok s => exact ⟨s, rfl⟩

end Settings

end ShellSyntax
