import Mathlib.Data.List.Basic
import Mathlib.Tactic.Common
import ShellSyntax.Proofs.Settings.Faults

/-!
What a table of settings means.

* `TokenKind.settingName`, `TokenKind.ofName?_eq_some`: no two kinds have the same name in settings;
* `Settings.Sets`, `Settings.foldlM_sets`: what entries of an ordered table leave behind in one of
  the settings is what the entry of one key sets, if there is one;
* `Settings.Valid`, `Settings.exists_ofTable_iff_valid`: the tables that are accepted, which are
  those in which nothing is wrong;
* `Settings.Means`, `Settings.means_of_ofTable`: the settings that a table gives. `Settings.Agree`,
  `Settings.ofTable_congr`: nothing else of it matters;
* `Settings.read_document`: a document gives these settings, or its first fault in the order of
  bytes.
-/

namespace ShellSyntax

/-- The name of a kind in settings. -/
def TokenKind.settingName (k : TokenKind) : Text :=
  if k = plain then "default".toList else k.name.toList

lemma TokenKind.ofName?_eq_some {name : Text} {k : TokenKind} :
    ofName? name = some k ↔ name = k.settingName := by
  constructor
  · intro h
    rw [ofName?] at h
    split_ifs at h with hdefault
    · cases h
      exact hdefault
    · have hfound := List.find?_some h
      obtain ⟨hplain, hname⟩ := decide_eq_true_iff.mp hfound
      rw [settingName, if_neg hplain, hname]
  · rintro rfl
    cases k <;> decide

namespace Settings

open Toml (Value Table)

/-! ### What entries set -/

/-- An entry of a key sets a value to what is read from it, and other entries leave it as it is. -/
def Sets {α : Type} (key : Text) (read : Value → α → Option α) (e : Text × Value) (a a' : α) :
    Prop :=
  (e.1 = key → read e.2 a = some a') ∧ (e.1 ≠ key → a' = a)

section

variable {α : Type} {key k : Text} {read : Value → α → Option α} {v : Value} {a a' : α}

lemma Sets.set (h : read v a = some a') : Sets key read (key, v) a a' :=
  ⟨fun _ => h, fun hne => absurd rfl hne⟩

lemma Sets.keep (h : k ≠ key) : Sets key read (k, v) a a := ⟨fun heq => absurd heq h, fun _ => rfl⟩

end

section

variable {α : Type} {proj : Settings → α} {key : Text} {read : Value → α → Option α} {t : Table}
  {step : Settings → Text × Value → Except SettingsFault Settings} {s s' : Settings}

lemma foldlM_keeps (hstep : ∀ e ∈ t, ∀ s s', step s e = .ok s' → proj s' = proj s)
    (h : t.foldlM step s = .ok s') : proj s' = proj s := by
  induction t generalizing s with
  | nil =>
      cases h
      rfl
  | cons e t ih =>
      obtain ⟨he, ht⟩ := List.forall_mem_cons.mp hstep
      obtain ⟨s₁, hfirst, hrest⟩ := foldlM_cons_eq_ok.mp h
      rw [ih ht hrest, he s s₁ hfirst]

/-- The entries of an ordered table set a value to what is read from the only entry of the key. -/
lemma foldlM_sets (ht : t.Ascending)
    (hstep : ∀ e ∈ t, ∀ s s', step s e = .ok s' → Sets key read e (proj s) (proj s'))
    (h : t.foldlM step s = .ok s') :
    proj s' = ((t.get? key).bind (read · (proj s))).getD (proj s) := by
  induction t generalizing s with
  | nil =>
      cases h
      rfl
  | cons e t ih =>
      obtain ⟨hbehind, ht⟩ := List.pairwise_cons.mp ht
      obtain ⟨he, hstep⟩ := List.forall_mem_cons.mp hstep
      obtain ⟨s₁, hfirst, h⟩ := foldlM_cons_eq_ok.mp h
      have hrest := ih ht hstep h
      obtain ⟨hset, hkeep⟩ := he s s₁ hfirst
      rw [Table.get?_cons]
      by_cases hkey : e.1 = key
      · have hnone : Table.get? t key = none := by
          refine Option.eq_none_iff_forall_ne_some.mpr fun v hv => ?_
          have hgt := hbehind _ (Table.mem_of_get? hv)
          rw [hkey, Std.ReflOrd.compare_self] at hgt
          cases hgt
        rw [hnone] at hrest
        rw [if_pos hkey, Option.bind_some, hset hkey, hrest]
        rfl
      · rw [if_neg hkey, hrest, hkeep hkey]

end

lemma expect_map_eq_ok {α β : Type} {setting : Text} {form : SettingForm} {o : Option α}
    {f : α → β} {b : β} : (expect setting form o).map f = .ok b ↔ ∃ a, o = some a ∧ b = f a := by
  cases o <;> simp [expect, Except.map, eq_comm]

section

variable {s s' : Settings} {e : Text × Value}

lemma applyHighlight_sets (h : applyHighlight s e = .ok s') :
    Sets "enabled".toList (fun v _ => v.boolean?) e s.enabled s'.enabled
      ∧ Sets "extra_keywords".toList (fun v _ => strings? v) e s.keywords s'.keywords
      ∧ Sets "extra_builtins".toList (fun v _ => strings? v) e s.builtins s'.builtins
      ∧ s'.styles = s.styles := by
  obtain ⟨key, v⟩ := e
  simp only [applyHighlight] at h
  split_ifs at h with henabled hkeywords hbuiltins
  · obtain ⟨b, hb, rfl⟩ := expect_map_eq_ok.mp h
    subst henabled
    exact ⟨.set hb, .keep (by decide), .keep (by decide), rfl⟩
  · obtain ⟨words, hwords, rfl⟩ := expect_map_eq_ok.mp h
    subst hkeywords
    exact ⟨.keep (by decide), .set hwords, .keep (by decide), rfl⟩
  · obtain ⟨words, hwords, rfl⟩ := expect_map_eq_ok.mp h
    subst hbuiltins
    exact ⟨.keep (by decide), .keep (by decide), .set hwords, rfl⟩
  · cases h
    exact ⟨.keep henabled, .keep hkeywords, .keep hbuiltins, rfl⟩

/-- The style that an entry describes. -/
def style? (v : Value) : Option Style := v.string?.bind fun description =>
  (Style.parse description).toOption

lemma exists_of_applyStyle (h : applyStyle s e = .ok s') :
    ∃ kind style, TokenKind.ofName? e.1 = some kind ∧ style? e.2 = some style
      ∧ s' = { s with styles := s.styles.set kind style } := by
  obtain ⟨key, v⟩ := e
  simp only [applyStyle] at h
  cases hkey : TokenKind.ofName? key with
  | none =>
      rw [hkey] at h
      cases h
  | some kind =>
      rw [hkey] at h
      cases hv : v.string? with
      | none =>
          rw [hv] at h
          cases h
      | some description =>
          rw [hv] at h
          cases hparse : Style.parse description with
          | error e =>
              simp only [expect, Except.bind, hparse] at h
              cases h
          | ok style =>
              simp only [expect, Except.bind, hparse] at h
              cases h
              refine ⟨kind, style, rfl, ?_, rfl⟩
              rw [style?, hv, Option.bind_some, hparse]
              rfl

lemma applyStyle_sets (h : applyStyle s e = .ok s') :
    (∀ kind, Sets kind.settingName (fun v _ => (style? v).map some) e (s.styles.override kind)
        (s'.styles.override kind))
      ∧ s'.enabled = s.enabled ∧ s'.keywords = s.keywords ∧ s'.builtins = s.builtins := by
  obtain ⟨kind, style, hkind, hstyle, rfl⟩ := exists_of_applyStyle h
  refine ⟨fun k => ⟨fun hkey => ?_, fun hne => ?_⟩, rfl, rfl, rfl⟩
  · obtain rfl := Option.some.inj (hkind.symm.trans (TokenKind.ofName?_eq_some.mpr hkey))
    show (style? e.2).map some = some (if _ = _ then some style else _)
    rw [hstyle, if_pos rfl]
    rfl
  · refine if_neg fun heq => hne ?_
    rw [← TokenKind.ofName?_eq_some, hkind, heq]

end

/-! ### What tables set -/

section

variable {α : Type} {proj : Settings → α} {name key : Text} {read : Value → Option α} {t : Table}
  {s s' : Settings}

/-- A section sets a value to what is read from its entry of a key. -/
lemma applySection_sets {e : Text × Value} (he : ∀ sub, e.2.entries? = some sub → sub.Ascending)
    (hset : ∀ step, entryStep? name = some step → ∀ s e s', step s e = .ok s' →
      Sets key (fun v _ => read v) e (proj s) (proj s'))
    (hkeep : ∀ other step, other ≠ name → entryStep? other = some step → ∀ s e s',
      step s e = .ok s' → proj s' = proj s)
    (hname : name ∈ sections) (h : applySection s e = .ok s') :
    Sets name (fun v a => v.entries?.map fun sub => ((sub.get? key).bind read).getD a) e
      (proj s) (proj s') := by
  obtain ⟨other, v⟩ := e
  cases hstep : entryStep? other with
  | none =>
      have hne : other ≠ name := by
        rintro rfl
        rw [mem_sections_iff, hstep] at hname
        cases hname
      rw [applySection_of_none hstep] at h
      cases h
      exact .keep hne
  | some step =>
      rw [applySection_of_step hstep] at h
      cases hentries : v.entries? with
      | none =>
          rw [hentries] at h
          cases h
      | some sub =>
          rw [hentries] at h
          have hfold : sub.foldlM step s = .ok s' := h
          by_cases hne : other = name
          · -- in this section only the entry of the key matters
            subst hne
            have hsets := foldlM_sets (he sub hentries)
              (fun e _ s s' => hset step hstep s e s') hfold
            refine ⟨fun _ => ?_, fun hne => absurd rfl hne⟩
            show v.entries?.map _ = _
            rw [hsets, hentries]
            rfl
          · -- the entries of another section keep the value
            refine ⟨fun heq => absurd heq hne, fun _ => ?_⟩
            exact foldlM_keeps (fun e _ s s' => hkeep other step hne hstep s e s') hfold

/-- A table sets a value to what is read from the entry of a key in a section. -/
lemma ofTable_sets (proj : Settings → α) (ht : t.SortedTo 2)
    (hset : ∀ step, entryStep? name = some step → ∀ s e s', step s e = .ok s' →
      Sets key (fun v _ => read v) e (proj s) (proj s'))
    (hkeep : ∀ other step, other ≠ name → entryStep? other = some step → ∀ s e s',
      step s e = .ok s' → proj s' = proj s)
    (hname : name ∈ sections) (h : ofTable t = .ok s) :
    proj s = (((entriesOf t name).get? key).bind read).getD (proj default) := by
  have hsets := foldlM_sets ht.1
    (fun e he s s' => applySection_sets (fun sub hsub => (ht.2 e he sub hsub).1) hset hkeep hname) h
  rw [hsets, entriesOf]
  cases hv : t.get? name with
  | none => rfl
  | some v =>
      rw [Option.bind_some, Option.bind_some]
      cases hentries : v.entries? with
      | none => rfl
      | some sub => rfl

lemma eq_of_entryStep? {step : Settings → Text × Value → Except SettingsFault Settings}
    (h : entryStep? name = some step) :
    name = "highlight".toList ∧ step = applyHighlight
      ∨ name = "styles".toList ∧ step = applyStyle := by
  rw [entryStep?] at h
  split_ifs at h with hhighlight hstyles
  · exact Or.inl ⟨hhighlight, (Option.some.inj h).symm⟩
  · exact Or.inr ⟨hstyles, (Option.some.inj h).symm⟩

/-- A setting that entries of `highlight` set and styles leave as it is. -/
lemma ofTable_sets_highlight (proj : Settings → α) (ht : t.SortedTo 2)
    (hset : ∀ s e s', applyHighlight s e = .ok s' →
      Sets key (fun v _ => read v) e (proj s) (proj s'))
    (hkeep : ∀ s e s', applyStyle s e = .ok s' → proj s' = proj s) (h : ofTable t = .ok s) :
    proj s = (((entriesOf t "highlight".toList).get? key).bind read).getD (proj default) := by
  refine ofTable_sets proj ht (fun step hstep => ?_) (fun other step hne hstep => ?_) (by decide) h
  · rcases eq_of_entryStep? hstep with ⟨-, rfl⟩ | ⟨hname, -⟩
    · exact hset
    · exact absurd hname (by decide)
  · rcases eq_of_entryStep? hstep with ⟨hname, -⟩ | ⟨-, rfl⟩
    · exact absurd hname hne
    · exact hkeep

/-- All settings that a table gives, by the entries of its sections. -/
lemma fields_of_ofTable (ht : t.SortedTo 2) (h : ofTable t = .ok s) :
    s.enabled = (((entriesOf t "highlight".toList).get? "enabled".toList).bind
        Value.boolean?).getD true
      ∧ s.keywords = (((entriesOf t "highlight".toList).get? "extra_keywords".toList).bind
        strings?).getD []
      ∧ s.builtins = (((entriesOf t "highlight".toList).get? "extra_builtins".toList).bind
        strings?).getD []
      ∧ ∀ kind, s.styles.override kind
        = ((entriesOf t "styles".toList).get? kind.settingName).bind style? := by
  refine ⟨?_, ?_, ?_, fun kind => ?_⟩
  · exact ofTable_sets_highlight Settings.enabled ht
      (fun s e s' h => (applyHighlight_sets h).1) (fun s e s' h => (applyStyle_sets h).2.1) h
  · exact ofTable_sets_highlight Settings.keywords ht
      (fun s e s' h => (applyHighlight_sets h).2.1) (fun s e s' h => (applyStyle_sets h).2.2.1) h
  · exact ofTable_sets_highlight Settings.builtins ht
      (fun s e s' h => (applyHighlight_sets h).2.2.1) (fun s e s' h => (applyStyle_sets h).2.2.2) h
  · -- an entry for each kind, so the style of a kind is set by its own entry
    have hsets : s.styles.override kind = (((entriesOf t "styles".toList).get?
        kind.settingName).bind fun v => (style? v).map some).getD none := by
      refine ofTable_sets (fun s => s.styles.override kind) ht (fun step hstep => ?_)
        (fun other step hne hstep => ?_) (by decide) h
      · rcases eq_of_entryStep? hstep with ⟨hname, -⟩ | ⟨-, rfl⟩
        · exact absurd hname (by decide)
        · exact fun s e s' h => (applyStyle_sets h).1 kind
      · rcases eq_of_entryStep? hstep with ⟨-, rfl⟩ | ⟨hname, -⟩
        · exact fun s e s' h => congrArg (·.override kind) (applyHighlight_sets h).2.2.2
        · exact absurd hname hne
    rw [hsets]
    cases (entriesOf t "styles".toList).get? kind.settingName with
    | none => rfl
    | some v =>
        rw [Option.bind_some, Option.bind_some]
        cases style? v <;> rfl

end

/-! ### Tables in which nothing is wrong -/

/-- The sections are tables, and their entries have the form and the names that they must have. -/
structure Valid (t : Table) : Prop where
  tables : ∀ name ∈ sections, ∀ v, t.get? name = some v → ∃ sub, v.entries? = some sub
  switch : ∀ v, (entriesOf t "highlight".toList).get? "enabled".toList = some v →
    ∃ b, v.boolean? = some b
  words : ∀ key, key = "extra_keywords".toList ∨ key = "extra_builtins".toList → ∀ v,
    (entriesOf t "highlight".toList).get? key = some v →
      ∃ items, v.items? = some items ∧ ∀ i ∈ items, ∃ word, i.string? = some word
  styles : ∀ e ∈ entriesOf t "styles".toList, (∃ kind, TokenKind.ofName? e.1 = some kind)
    ∧ ∃ description, e.2.string? = some description ∧ ∃ style, Style.parse description = .ok style

lemma exists_strings?_iff {v : Value} : (∃ words, strings? v = some words)
    ↔ ∃ items, v.items? = some items ∧ ∀ i ∈ items, ∃ word, i.string? = some word := by
  have hmapM : ∀ items : List Value, (∃ words, items.mapM Value.string? = some words)
      ↔ ∀ i ∈ items, ∃ word, i.string? = some word := by
    intro items
    induction items with
    | nil => exact iff_of_true ⟨[], rfl⟩ fun i hi => absurd hi List.not_mem_nil
    | cons i items ih =>
        rw [List.forall_mem_cons, ← ih, List.mapM_cons]
        cases i.string? with
        | none => simp
        | some word => cases items.mapM Value.string? <;> simp
  rw [strings?]
  cases v.items? with
  | none => simp
  | some items => simp [hmapM]

section

variable {t t' : Table} {s : Settings} {path : List Text} {fault : SettingsFault}

/-- Nothing is wrong in a valid table. -/
lemma Valid.not_wrong (h : Valid t) (ht : t.SortedTo 2) (path : List Text) (fault : SettingsFault) :
    ¬Wrong t path fault := by
  intro hwrong
  cases hwrong with
  | table hname hv hentries =>
      obtain ⟨sub, hsub⟩ := h.tables _ hname _ hv
      rw [hentries] at hsub
      cases hsub
  | entry he hwrong =>
      cases hwrong with
      | setting hwrong =>
          have hv := (ascending_entriesOf ht _).get?_eq_some.mpr he
          cases hwrong with
          | switch hnone =>
              obtain ⟨b, hb⟩ := h.switch _ hv
              rw [hnone] at hb
              cases hb
          | words hkey hnone =>
              obtain ⟨words, hwords⟩ := exists_strings?_iff.mpr (h.words _ hkey _ hv)
              rw [hnone] at hwords
              cases hwords
      | style hwrong =>
          obtain ⟨⟨kind, hkind⟩, description, hdescription, style, hstyle⟩ := h.styles _ he
          cases hwrong with
          | kind hnone =>
              rw [hnone] at hkind
              cases hkind
          | form hkey hnone =>
              rw [hnone] at hdescription
              cases hdescription
          | description hkey hv hinvalid =>
              obtain rfl := Option.some.inj (hv.symm.trans hdescription)
              rw [hinvalid] at hstyle
              cases hstyle

lemma valid_of_not_wrong (h : ∀ path fault, ¬Wrong t path fault) :
    Valid t where
  tables name hname v hv := by
    cases hentries : v.entries? with
    | none => exact absurd (.table hname hv hentries) (h _ _)
    | some sub => exact ⟨sub, rfl⟩
  switch v hv := by
    cases hb : v.boolean? with
    | none => exact absurd (.entry (Table.mem_of_get? hv) (.setting (.switch hb))) (h _ _)
    | some b => exact ⟨b, rfl⟩
  words key hkey v hv := by
    refine exists_strings?_iff.mp ?_
    cases hwords : strings? v with
    | none => exact absurd (.entry (Table.mem_of_get? hv) (.setting (.words hkey hwords))) (h _ _)
    | some words => exact ⟨words, rfl⟩
  styles e he := by
    obtain ⟨key, v⟩ := e
    cases hkind : TokenKind.ofName? key with
    | none => exact absurd (.entry he (.style (.kind hkind))) (h _ _)
    | some kind =>
        refine ⟨⟨kind, rfl⟩, ?_⟩
        cases hv : v.string? with
        | none => exact absurd (.entry he (.style (.form hkind hv))) (h _ _)
        | some description =>
            refine ⟨description, rfl, ?_⟩
            cases hparse : Style.parse description with
            | error e => exact absurd (.entry he (.style (.description hkind hv hparse))) (h _ _)
            | ok style => exact ⟨style, rfl⟩

/-- The tables that are accepted are the valid ones. -/
lemma exists_ofTable_iff_valid (ht : t.SortedTo 2) : (∃ s, ofTable t = .ok s) ↔ Valid t :=
  (exists_ofTable_iff ht).trans ⟨valid_of_not_wrong, fun h => h.not_wrong ht⟩

/-! ### The settings of a table -/

/-- The settings are what the entries of a table say: the switch is on and there are no words unless
it says otherwise, and a kind has the style of the entry with its name, or else its default one. -/
structure Means (t : Table) (s : Settings) : Prop where
  enabled : s.enabled = (((entriesOf t "highlight".toList).get? "enabled".toList).bind
    Value.boolean?).getD true
  keywords : s.keywords = (((entriesOf t "highlight".toList).get? "extra_keywords".toList).bind
    strings?).getD []
  builtins : s.builtins = (((entriesOf t "highlight".toList).get? "extra_builtins".toList).bind
    strings?).getD []
  styled : ∀ e ∈ entriesOf t "styles".toList, ∀ kind, TokenKind.ofName? e.1 = some kind →
    ∃ description, e.2.string? = some description
      ∧ Style.parse description = .ok (s.styles.styleFor kind)
  unstyled : ∀ kind, (∀ e ∈ entriesOf t "styles".toList, TokenKind.ofName? e.1 ≠ some kind) →
    s.styles.styleFor kind = kind.defaultStyle

lemma means_of_ofTable (ht : t.SortedTo 2) (h : ofTable t = .ok s) : Means t s := by
  obtain ⟨henabled, hkeywords, hbuiltins, hoverride⟩ := fields_of_ofTable ht h
  refine ⟨henabled, hkeywords, hbuiltins, fun e he kind hkind => ?_, fun kind hnone => ?_⟩
  · have hvalid := (exists_ofTable_iff_valid ht).mp ⟨s, h⟩
    obtain ⟨-, description, hdescription, style, hstyle⟩ := hvalid.styles e he
    have hget : (entriesOf t "styles".toList).get? kind.settingName = some e.2 := by
      rw [← TokenKind.ofName?_eq_some.mp hkind]
      exact (ascending_entriesOf ht _).get?_eq_some.mpr he
    have hstyle? : style? e.2 = some style := by
      rw [style?, hdescription, Option.bind_some, hstyle]
      rfl
    refine ⟨description, hdescription, ?_⟩
    rw [Theme.styleFor, hoverride, hget, Option.bind_some, hstyle?, hstyle]
    rfl
  · have hget : (entriesOf t "styles".toList).get? kind.settingName = none := by
      refine Option.eq_none_iff_forall_ne_some.mpr fun v hv => ?_
      exact hnone _ (Table.mem_of_get? hv) (TokenKind.ofName?_eq_some.mpr rfl)
    rw [Theme.styleFor, hoverride, hget]
    rfl

/-! ### What does not matter -/

/-- Two tables have the same forms of sections, the same entries of `highlight` that matter, and the
same entries of `styles`. -/
structure Agree (t t' : Table) : Prop where
  tables : ∀ name ∈ sections, (∃ v, t.get? name = some v ∧ v.entries? = none)
    ↔ ∃ v, t'.get? name = some v ∧ v.entries? = none
  highlight : ∀ key ∈ ["enabled".toList, "extra_keywords".toList, "extra_builtins".toList],
    (entriesOf t "highlight".toList).get? key = (entriesOf t' "highlight".toList).get? key
  styles : ∀ key, (entriesOf t "styles".toList).get? key = (entriesOf t' "styles".toList).get? key

lemma Agree.symm (h : Agree t t') : Agree t' t :=
  ⟨fun name hname => (h.tables name hname).symm, fun key hkey => (h.highlight key hkey).symm,
    fun key => (h.styles key).symm⟩

lemma Wrong.congr (ht : t.SortedTo 2) (h : Agree t t') (hwrong : Wrong t path fault) :
    Wrong t' path fault := by
  cases hwrong with
  | table hname hv hentries =>
      obtain ⟨v', hv', hentries'⟩ := (h.tables _ hname).mp ⟨_, hv, hentries⟩
      exact .table hname hv' hentries'
  | entry he hwrong =>
      have hv := (ascending_entriesOf ht _).get?_eq_some.mpr he
      refine .entry (Table.mem_of_get? ?_) hwrong
      cases hwrong with
      | setting hwrong =>
          rw [← h.highlight, hv]
          cases hwrong with
          | switch hb => exact List.mem_cons_self
          | words hkey hnone =>
              rcases hkey with rfl | rfl
              · exact List.mem_cons_of_mem _ List.mem_cons_self
              · exact List.mem_cons_of_mem _ (List.mem_cons_of_mem _ List.mem_cons_self)
      | style hwrong => rw [← h.styles, hv]

/-- Tables that agree give the same settings, or have the same fault. -/
lemma ofTable_congr (ht : t.SortedTo 2) (ht' : t'.SortedTo 2) (h : Agree t t') :
    ofTable t' = ofTable t := by
  have hwrong : Wrong t' = Wrong t := by
    funext path fault
    exact propext ⟨fun hw => hw.congr ht' h.symm, fun hw => hw.congr ht h⟩
  cases hs : ofTable t with
  | error fault =>
      rw [ofTable_eq_error ht', hwrong]
      exact (ofTable_eq_error ht).mp hs
  | ok s =>
      obtain ⟨s', hs'⟩ := (exists_ofTable_iff ht').mpr (by
        rw [hwrong]
        exact (exists_ofTable_iff ht).mp ⟨s, hs⟩)
      obtain ⟨henabled, hkeywords, hbuiltins, hoverride⟩ := fields_of_ofTable ht hs
      obtain ⟨henabled', hkeywords', hbuiltins', hoverride'⟩ := fields_of_ofTable ht' hs'
      have hstyles : s'.styles = s.styles := Theme.ext fun kind => by
        rw [hoverride, hoverride', h.styles]
      rw [← h.highlight _ (by decide)] at henabled' hkeywords' hbuiltins'
      rw [hs']
      obtain ⟨enabled, keywords, builtins, styles⟩ := s
      obtain ⟨enabled', keywords', builtins', styles'⟩ := s'
      cases henabled.trans henabled'.symm
      cases hkeywords.trans hkeywords'.symm
      cases hbuiltins.trans hbuiltins'.symm
      cases hstyles
      rfl

end

/-! ### Documents -/

/-- **What a document of settings means.** It is accepted just if its table is valid, and then gives
the settings that the table means. Otherwise it is refused for what is wrong at the first path at
which something is wrong, in the order of bytes of sections and of keys in them. No other sections
and no other entries of `highlight` matter. -/
theorem read_document {text : Text} {t : Table} (h : Toml.Document.read? text = some t) :
    ((∃ s, read text = .ok s) ↔ Valid t)
      ∧ (∀ s, read text = .ok s → Means t s)
      ∧ (∀ fault, read text = .error fault ↔ ∃ path, Wrong t path fault
        ∧ ∀ path' fault', Wrong t path' fault' →
          compare (path.map Text.bytes) (path'.map Text.bytes) ≠ .gt)
      ∧ ∀ text' t', Toml.Document.read? text' = some t' → Agree t t' → read text' = read text := by
  have hread : ∀ {text t}, Toml.Document.read? text = some t → read text = ofTable t := by
    intro text t h
    rw [read, h]
  have ht := Toml.Document.sorted_read? h 2
  refine ⟨?_, fun s hs => ?_, fun fault => ?_, fun text' t' h' hagree => ?_⟩
  · rw [hread h]
    exact exists_ofTable_iff_valid ht
  · rw [hread h] at hs
    exact means_of_ofTable ht hs
  · rw [hread h]
    simp only [compare_map_bytes]
    exact ofTable_eq_error ht
  · rw [hread h, hread h']
    exact ofTable_congr ht (Toml.Document.sorted_read? h' 2) hagree

/-- Of two wrong entries, the one in the section that comes first in the order of bytes is reported,
not the one that is written first. -/
theorem read_document_twoFaults :
    let text := "[styles]\nbogus = \"red\"\n[highlight]\nenabled = 1\n".toList
    ∃ t, Toml.Document.read? text = some t
      ∧ Wrong t ["styles".toList, "bogus".toList] (.unknownKind "bogus".toList)
      ∧ read text = .error (.wrongForm "enabled".toList .boolean) := by
  intro text
  let t : Table := [("highlight".toList, .table .explicit [("enabled".toList, .integer 1)]),
    ("styles".toList, .table .explicit [("bogus".toList, .string "red".toList)])]
  have hread : Toml.Document.read? text = some t := rfl
  have hstyle : Wrong t ["styles".toList, "bogus".toList] (.unknownKind "bogus".toList) :=
    .entry (List.mem_singleton.mpr rfl) (.style (.kind (by decide)))
  have hswitch : Wrong t ["highlight".toList, "enabled".toList]
      (.wrongForm "enabled".toList .boolean) :=
    .entry (List.mem_singleton.mpr rfl) (.setting (.switch rfl))
  refine ⟨t, hread, hstyle, ?_⟩
  refine ((read_document hread).2.2.1 _).mpr ⟨_, hswitch, fun path fault hwrong => ?_⟩
  rw [compare_map_bytes]
  cases hwrong with
  | table hname hv hentries =>
      rcases List.mem_cons.mp hname with rfl | hname
      · cases hv
        cases hentries
      · obtain rfl := List.mem_singleton.mp hname
        cases hv
        cases hentries
  | entry he hwrong =>
      cases hwrong with
      | setting _ =>
          obtain rfl := List.mem_singleton.mp he
          decide
      | style _ =>
          obtain rfl := List.mem_singleton.mp he
          decide

end Settings

end ShellSyntax
