import Mathlib.Data.List.TakeDrop
import Mathlib.Tactic.Common
import ShellSyntax.Proofs.Toml.Quoted
import ShellSyntax.Toml.Document

/-!
The lines of a document read back.

* `isSolid`: the characters that cannot be skipped between statements and items;
* `readKey?_plain`: a key without quotes reads back;
* `readItems?_writeItems`: so does an array of strings, item by item;
* `Value.IsWritten`: what it means that a text writes a value. `isWritten_boolean`,
  `isWritten_strings`: truth values and arrays of strings are so written;
* `Statement.IsWritten`: the same for a statement and a line. `isWritten_header`, `isWritten_entry`;
* `Statement.readLines?_flatMap`: lines that write statements read back as these statements.
-/

namespace ShellSyntax.Toml

/-! ### Blanks -/

/-- A character that is no blank, ends no line and starts no comment. -/
def isSolid (c : Char) : Bool := !isSpace c && c ≠ '\n' && c ≠ '\r' && c ≠ '#'

lemma skipSpace_cons {c : Char} (h : isSpace c = false) (t : Text) :
    skipSpace (c :: t) = c :: t := by
  rw [skipSpace, List.dropWhile_cons_of_neg (by simp [h])]

lemma isSpace_of_isSolid {c : Char} (h : isSolid c) : isSpace c = false := by
  simp only [isSolid, Bool.and_eq_true, Bool.not_eq_true'] at h
  exact h.1.1.1

lemma skipLines?_cons {c : Char} (h : isSolid c) (t : Text) :
    skipLines? false (c :: t) = some (c :: t) := by
  rw [skipLines?, if_neg Bool.false_ne_true, if_neg (by simp [isSpace_of_isSolid h]), if_neg]
  · rintro rfl
    exact absurd h (by decide)
  · rintro rfl
    exact absurd h (by decide)
  · rintro s rfl -
    exact absurd h (by decide)

/-- A run of characters of one sort ends where a character of another follows. -/
lemma takeWhile_dropWhile_append {p : Char → Bool} {t rest : Text} (ht : ∀ c ∈ t, p c)
    (hrest : ∀ c, rest.head? = some c → p c = false) :
    (t ++ rest).takeWhile p = t ∧ (t ++ rest).dropWhile p = rest := by
  rw [List.takeWhile_append_of_pos ht, List.dropWhile_append_of_pos ht]
  cases rest with
  | nil => exact ⟨List.append_nil t, rfl⟩
  | cons c rest =>
      have hc : ¬p c := by simp [hrest c rfl]
      rw [List.takeWhile_cons_of_neg hc, List.dropWhile_cons_of_neg hc, List.append_nil]
      exact ⟨rfl, rfl⟩

/-! ### Keys -/

/-- A key that may stand without quotes. -/
def IsPlainKey (key : Text) : Prop := key ≠ [] ∧ key.all isKeyChar

instance (key : Text) : Decidable (IsPlainKey key) := inferInstanceAs (Decidable (_ ∧ _))

lemma isSolid_of_isKeyChar {c : Char} (h : isKeyChar c) : isSolid c := by
  have hne {d : Char} (hd : isKeyChar d = false) : c ≠ d := by
    rintro rfl
    exact absurd h (by simp [hd])
  have hspace : c ≠ ' ' := hne (by decide)
  have htab : c ≠ '\t' := hne (by decide)
  have hline : c ≠ '\n' := hne (by decide)
  have hreturn : c ≠ '\r' := hne (by decide)
  have hcomment : c ≠ '#' := hne (by decide)
  simp [isSolid, isSpace, *]

lemma IsPlainKey.exists_cons {key : Text} (h : IsPlainKey key) :
    ∃ c t, key = c :: t ∧ isKeyChar c := by
  obtain ⟨c, t, rfl⟩ := List.exists_cons_of_ne_nil h.1
  exact ⟨c, t, rfl, List.all_eq_true.mp h.2 c List.mem_cons_self⟩

/-- A key without quotes starts with none of the other characters. -/
lemma IsPlainKey.append_ne {key : Text} (h : IsPlainKey key) {d : Char} (hd : isKeyChar d = false)
    (rest s : Text) : key ++ rest ≠ d :: s := by
  obtain ⟨c, t, rfl, hc⟩ := h.exists_cons
  rintro heq
  cases heq
  exact absurd hc (by simp [hd])

/-- A key without quotes reads back, if neither a further character of it nor a dot follows. -/
lemma readKey?_plain {key rest : Text} (h : IsPlainKey key)
    (hrest : ∀ c, rest.head? = some c → isKeyChar c = false)
    (hdot : ∀ t, skipSpace rest ≠ '.' :: t) :
    readKey? (key ++ rest) = some (([], key), skipSpace rest) := by
  obtain ⟨c, t, hkey, hc⟩ := h.exists_cons
  obtain ⟨htake, hdrop⟩ := takeWhile_dropWhile_append (List.all_eq_true.mp h.2) hrest
  have hskip : skipSpace (key ++ rest) = key ++ rest := by
    rw [hkey]
    exact skipSpace_cons (isSpace_of_isSolid (isSolid_of_isKeyChar hc)) _
  have hpart : readKeyPart? (key ++ rest) = some (key, rest) := by
    rw [readKeyPart?, List.span_eq_takeWhile_dropWhile, htake, hdrop, if_neg (by simp [h.1])]
    · exact h.append_ne (by decide) rest
    · exact h.append_ne (by decide) rest
  have hparts : readParts? maxNesting (key ++ rest) = some ([key], skipSpace rest) := by
    rw [maxNesting, readParts?, hskip, hpart, Option.bind_some]
    split
    · rename_i s hs
      exact absurd hs (hdot s)
    · rfl
  rw [readKey?, hparts]
  rfl

/-! ### Values -/

/-- A text writes a value if the value is read back where a line ends behind it. -/
structure Value.IsWritten (v : Value) (written : Text) : Prop where
  first : ∀ c, written.head? = some c → isSpace c = false
  reads : ∀ rest, readValue? maxNesting (written ++ '\n' :: rest) = some (v, '\n' :: rest)

/-- What starts with a character of a scalar is read as a scalar. -/
lemma readValue?_scalar (nesting : ℕ) {c : Char} (h : Scalar.mayStand c) (t : Text) :
    readValue? nesting (c :: t) = Scalar.read? (c :: t) := by
  have hne {d : Char} (hd : Scalar.mayStand d = false) {s : Text} : c :: t ≠ d :: s := by
    intro hs
    cases hs
    exact absurd h (by simp [hd])
  rw [readValue?]
  · exact fun s hs => hne (by decide) hs
  · exact fun s hs => hne (by decide) hs
  · exact fun s hs => hne (by decide) hs
  · exact fun s hs => hne (by decide) hs

/-- At the end of a line a scalar is read as a whole. -/
lemma Scalar.read?_line {w : Text} (hw : ∀ c ∈ w, Scalar.mayStand c) (rest : Text) :
    Scalar.read? (w ++ '\n' :: rest) = (Scalar.value? w).map (·, '\n' :: rest) := by
  have hline : ∀ c, ('\n' :: rest).head? = some c → Scalar.mayStand c = false :=
    fun c hc => Option.some.inj hc ▸ rfl
  obtain ⟨htake, hdrop⟩ := takeWhile_dropWhile_append hw hline
  rw [Scalar.read?, htake, hdrop, if_neg]
  rintro ⟨-, hspace, -⟩
  exact absurd (Option.some.inj hspace) (by decide)

lemma isWritten_boolean (b : Bool) : (Value.boolean b).IsWritten (Document.writeBoolean b) where
  first c hc := by cases b <;> exact Option.some.inj hc ▸ rfl
  reads rest := by
    have hstand : ∀ c ∈ Document.writeBoolean b, Scalar.mayStand c := by
      refine List.all_eq_true.mp ?_
      cases b <;> rfl
    have hvalue : Scalar.value? (Document.writeBoolean b) = some (.boolean b) := by
      cases b <;> rfl
    obtain ⟨c, t, hct⟩ : ∃ c t, Document.writeBoolean b = c :: t := by
      cases b <;> exact ⟨_, _, rfl⟩
    have hscalar : readValue? maxNesting (Document.writeBoolean b ++ '\n' :: rest)
        = Scalar.read? (Document.writeBoolean b ++ '\n' :: rest) := by
      rw [hct] at hstand ⊢
      exact readValue?_scalar _ (hstand c List.mem_cons_self) _
    rw [hscalar, Scalar.read?_line hstand, hvalue]
    rfl

/-- A string starts with a quote. -/
lemma Quoted.exists_write_eq (t : Text) :
    ∃ q s, Quoted.write t = q :: s ∧ (q = '"' ∨ q = Quoted.mark) := by
  rw [Quoted.write]
  cases Quoted.form t with
  | basic => exact ⟨_, _, rfl, .inl rfl⟩
  | literal => exact ⟨_, _, rfl, .inr rfl⟩
  | longBasic => exact ⟨_, _, rfl, .inl rfl⟩
  | longLiteral => exact ⟨_, _, rfl, .inr rfl⟩

lemma readValue?_write (nesting : ℕ) (t : Text) {rest : Text} (hrest : Quoted.Clear rest) :
    readValue? nesting (Quoted.write t ++ rest) = some (.string t, rest) := by
  have hread := Quoted.read?_write t hrest
  obtain ⟨q, s, hs, hq⟩ := Quoted.exists_write_eq t
  rw [hs, List.cons_append] at hread ⊢
  rcases hq with rfl | rfl
  · rw [readValue?, hread, Option.map_some]
  · rw [Quoted.mark] at hread ⊢
    rw [readValue?, hread, Option.map_some]

/-- Strings as the items of an array, up to its closing bracket. -/
def writeItems (ts : List Text) : Text :=
  List.intercalate [',', ' '] (ts.map Quoted.write) ++ [']']

lemma writeItems_singleton (t : Text) : writeItems [t] = Quoted.write t ++ [']'] := by
  rw [writeItems, List.map_singleton, List.intercalate_singleton]

lemma writeItems_cons_cons (t u : Text) (ts : List Text) :
    writeItems (t :: u :: ts) = Quoted.write t ++ ',' :: ' ' :: writeItems (u :: ts) := by
  rw [writeItems, List.map_cons, List.map_cons, List.intercalate_cons_cons, ← List.map_cons,
    List.append_assoc, List.append_assoc]
  rfl

/-- Each item takes at least one character, and so does the bracket. -/
lemma length_lt_writeItems (ts : List Text) : ts.length < (writeItems ts).length := by
  induction ts with
  | nil => exact Nat.zero_lt_one
  | cons t ts ih =>
      cases ts with
      | nil =>
          obtain ⟨q, s, hs, -⟩ := Quoted.exists_write_eq t
          simp [writeItems_singleton, hs]
      | cons u ts =>
          simp only [writeItems_cons_cons, List.length_append, List.length_cons] at ih ⊢
          omega

lemma readItems?_space (item : Reader Value) (fuel : ℕ) (t : Text) :
    readItems? item fuel (' ' :: t) = readItems? item fuel t := by
  cases fuel with
  | zero => rfl
  | succ fuel => rfl

section Items

variable {item : Reader Value}
  (hitem : ∀ t {rest}, Quoted.Clear rest → item (Quoted.write t ++ rest) = some (.string t, rest))

include hitem

/-- A string among the items of an array is read, whatever follows it. -/
lemma readItems?_write (fuel : ℕ) (t : Text) {rest : Text} (hrest : Quoted.Clear rest) :
    readItems? item (fuel + 1) (Quoted.write t ++ rest)
      = (skipLines? false rest).bind fun
        | ',' :: rest => (readItems? item fuel rest).map fun s => (.string t :: s.1, s.2)
        | ']' :: rest => some ([.string t], rest)
        | _ => none := by
  have hread := hitem t hrest
  obtain ⟨q, s, hs, hq⟩ := Quoted.exists_write_eq t
  have hskip : skipLines? false (Quoted.write t ++ rest) = some (Quoted.write t ++ rest) := by
    rw [hs]
    rcases hq with rfl | rfl <;> exact skipLines?_cons (by decide) _
  rw [readItems?, hskip, Option.bind_some]
  split
  · rename_i u hu
    rw [hs] at hu
    rcases hq with rfl | rfl <;> cases hu
  · refine (congrArg (Option.bind · _) hread).trans ?_
    rfl

/-- An array of strings reads back item by item. -/
lemma readItems?_writeItems {ts : List Text} {fuel : ℕ} (hfuel : ts.length ≤ fuel)
    (rest : Text) :
    readItems? item (fuel + 1) (writeItems ts ++ rest) = some (ts.map .string, rest) := by
  induction ts generalizing fuel with
  | nil => rfl
  | cons t ts ih =>
      cases ts with
      | nil =>
          rw [writeItems_singleton, List.append_assoc, List.singleton_append,
            readItems?_write hitem _ _ (Quoted.clear_cons (by decide) (by decide) _)]
          rfl
      | cons u ts =>
          obtain ⟨fuel, rfl⟩ := Nat.exists_eq_add_one_of_ne_zero (Nat.ne_zero_of_lt hfuel)
          rw [writeItems_cons_cons, List.append_assoc, List.cons_append, List.cons_append,
            readItems?_write hitem _ _ (Quoted.clear_cons (by decide) (by decide) _),
            skipLines?_cons (by decide), Option.bind_some]
          show (readItems? item (fuel + 1) (' ' :: (writeItems (u :: ts) ++ rest))).map _ = _
          rw [readItems?_space, ih (Nat.le_of_succ_le_succ hfuel)]
          rfl

end Items

lemma readValue?_array (nesting : ℕ) (t : Text) :
    readValue? (nesting + 1) ('[' :: t)
      = (readItems? (readValue? nesting) (t.length + 1) t).map fun r => (.array r.1, r.2) := by
  rw [readValue?]

/-- An array of strings reads back at the end of a line. -/
lemma isWritten_strings (ts : List Text) :
    (Value.array (ts.map .string)).IsWritten (Document.writeStrings ts) where
  first c hc := Option.some.inj hc ▸ rfl
  reads rest := by
    have hfuel : ts.length ≤ (writeItems ts ++ '\n' :: rest).length := by
      have hlt := length_lt_writeItems ts
      rw [List.length_append]
      omega
    show readValue? maxNesting ('[' :: (writeItems ts ++ '\n' :: rest)) = _
    rw [maxNesting, readValue?_array, readItems?_writeItems (readValue?_write _) hfuel]
    rfl

/-! ### Lines -/

/-- A text writes a statement if the statement is read back where more lines follow. -/
structure Statement.IsWritten (s : Statement) (line : Text) : Prop where
  first : ∃ c t, line = c :: t ∧ isSolid c
  reads : ∀ rest, Statement.read? (line ++ rest) = some (s, rest)

lemma isWritten_header {key : Text} (h : IsPlainKey key) :
    (Statement.header [] key).IsWritten (Document.writeHeader key) where
  first := ⟨'[', _, rfl, rfl⟩
  reads rest := by
    have hread : readKey? (key ++ ']' :: '\n' :: rest) = some (([], key), ']' :: '\n' :: rest) := by
      refine readKey?_plain h (fun c hc => Option.some.inj hc ▸ rfl) fun t ht => ?_
      cases ht
    show Statement.read? ('[' :: (key ++ [']', '\n'] ++ rest)) = _
    rw [List.append_assoc, List.cons_append, List.singleton_append, Statement.read?, hread]
    · rfl
    · exact h.append_ne (by decide) _

lemma isWritten_entry {key written : Text} {v : Value} (hkey : IsPlainKey key)
    (h : v.IsWritten written) :
    (Statement.entry [] key v).IsWritten (Document.writeEntry key written) where
  first := by
    obtain ⟨c, t, rfl, hc⟩ := hkey.exists_cons
    exact ⟨c, _, rfl, isSolid_of_isKeyChar hc⟩
  reads rest := by
    have hread : readKey? (key ++ ' ' :: '=' :: ' ' :: (written ++ '\n' :: rest))
        = some (([], key), '=' :: ' ' :: (written ++ '\n' :: rest)) := by
      refine readKey?_plain hkey (fun c hc => Option.some.inj hc ▸ rfl) fun t ht => ?_
      cases ht
    have hskip : skipSpace (' ' :: (written ++ '\n' :: rest)) = written ++ '\n' :: rest := by
      show skipSpace (written ++ '\n' :: rest) = _
      cases written with
      | nil => rfl
      | cons c t => exact skipSpace_cons (h.first c rfl) _
    have hsetting : readSetting? (readValue? maxNesting)
          (key ++ ' ' :: '=' :: ' ' :: (written ++ '\n' :: rest))
        = some ((([], key), v), '\n' :: rest) := by
      rw [readSetting?, hread, Option.bind_some]
      show (readValue? maxNesting (skipSpace (' ' :: (written ++ '\n' :: rest)))).map _ = _
      rw [hskip, h.reads]
      rfl
    have hline : Document.writeEntry key written ++ rest
        = key ++ ' ' :: '=' :: ' ' :: (written ++ '\n' :: rest) := by
      simp [Document.writeEntry]
    rw [hline, Statement.read?, hsetting]
    · rfl
    · exact fun s => hkey.append_ne (by decide) _ ('[' :: s)
    · exact hkey.append_ne (by decide) _

/-- Lines that write statements read back as these. -/
lemma Statement.readLines?_flatMap {lines : List (Text × Statement)}
    (h : ∀ l ∈ lines, l.2.IsWritten l.1) {fuel : ℕ}
    (hfuel : (lines.flatMap (·.1)).length < fuel) :
    readLines? fuel (lines.flatMap (·.1)) = some (lines.map (·.2)) := by
  obtain ⟨fuel, rfl⟩ := Nat.exists_eq_add_one_of_ne_zero (Nat.ne_zero_of_lt hfuel)
  induction lines generalizing fuel with
  | nil => rfl
  | cons l lines ih =>
      obtain ⟨hl, hlines⟩ := List.forall_mem_cons.mp h
      obtain ⟨c, t, hct, hc⟩ := hl.first
      rw [List.flatMap_cons, List.length_append, hct, List.length_cons] at hfuel
      obtain ⟨fuel, rfl⟩ := Nat.exists_eq_add_one_of_ne_zero (n := fuel) (by omega)
      have hskip : skipLines? false (l.1 ++ lines.flatMap (·.1))
          = some (l.1 ++ lines.flatMap (·.1)) := by
        rw [hct]
        exact skipLines?_cons hc _
      have hne : ¬(l.1 ++ lines.flatMap (·.1)).isEmpty := by simp [hct]
      rw [List.flatMap_cons, readLines?, hskip, Option.bind_some, if_neg hne, hl.reads,
        Option.bind_some, ih hlines fuel (by omega)]
      rfl

end ShellSyntax.Toml
