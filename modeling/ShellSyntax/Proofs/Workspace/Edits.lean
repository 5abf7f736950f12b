import Mathlib.Data.List.Basic
import Mathlib.Tactic.Common
import ShellSyntax.Proofs.Language.Marking
import ShellSyntax.Proofs.Workspace.Incremental

/-!
Hosts that report each edit, one line at a time.

* `Edit`, `Edit.apply`: a line of a document is replaced, put in or taken out;
* `Workspace.Step`: a host edits a document and reports the line, or has the document highlighted.
  `Workspace.serve`: the lines and the answer at each look;
* `Workspace.Session`, `Workspace.Session.looks`: the document and what the workspace was told of
  it, at each look;
* `Workspace.Session.Sound`: above all reported lines nothing has changed. Edits keep it;
* `Workspace.Session.Traced`: a change of the lines that leaves their number as it was has been
  reported at or below its place;
* `Workspace.serve_eq_tokenizeLines_iff`: in every language all answers are those of tokenizing from
  scratch, if and only if the changes are traced at every look. Reports of edits that move lines
  without a change of their number in the end need not trace them.
-/

namespace ShellSyntax

/-! ### Edits -/

/-- An edit of the lines of a document. -/
inductive Edit where
  | replace (line : ℕ) (text : Text)
  /-- A line is put in above the given one, or below all. -/
  | insert (line : ℕ) (text : Text)
  | delete (line : ℕ)
deriving DecidableEq, Repr

namespace Edit

/-- The line that is reported. -/
def line : Edit → ℕ
  | replace line _ | insert line _ | delete line => line

/-- The lines after an edit. -/
def apply (e : Edit) (lines : List Text) : List Text :=
  match e with
  | replace line text => lines.set line text
  | insert line text => lines.insertIdx line text
  | delete line => lines.eraseIdx line

/-- Above the reported line nothing changes. -/
lemma getElem?_apply (e : Edit) (lines : List Text) {i : ℕ} (hi : i < e.line) :
    (e.apply lines)[i]? = lines[i]? := by
  cases e with
  | replace line text => exact List.getElem?_set_ne (Nat.ne_of_gt hi)
  | insert line text => exact List.getElem?_insertIdx_of_lt hi
  | delete line => exact List.getElem?_eraseIdx_of_lt hi

end Edit

namespace Workspace

open LineCache (Reported)

/-! ### Sessions -/

/-- What a host does with a document: it edits a line and reports it at once, or has all lines
highlighted. -/
inductive Step where
  | edit (e : Edit)
  | look
deriving DecidableEq, Repr

/-- The lines at each look, and the answer to it. -/
def serve (w : Workspace) (doc : ℕ) (lines : List Text) :
    List Step → List (List Text × List (List Token))
  | [] => []
  | .edit e :: steps => (w.invalidateFrom doc e.line).serve doc (e.apply lines) steps
  | .look :: steps =>
    (lines, (w.highlight doc lines).1) :: (w.highlight doc lines).2.serve doc lines steps

/-- The lines of a document, and what a workspace was told of it. -/
structure Session where
  lines : List Text
  report : Report

namespace Session

/-- A document of which a workspace was told nothing. -/
def start (lines : List Text) : Session := ⟨lines, .none⟩

/-- The session after an edit. -/
def edit (s : Session) (e : Edit) : Session :=
  ⟨e.apply s.lines, { s.report with edited := e.line :: s.report.edited }⟩

/-- The session after a look. -/
def look (s : Session) : Session := ⟨s.lines, ⟨s.lines, []⟩⟩

/-- The session as it is at each look. -/
def looks (s : Session) : List Step → List Session
  | [] => []
  | .edit e :: steps => (s.edit e).looks steps
  | .look :: steps => s :: s.look.looks steps

/-- Where a line has changed, a line at or above it was reported. -/
def Sound (s : Session) : Prop :=
  ∀ i, i < s.lines.length → i < s.report.base.length → s.lines[i]? ≠ s.report.base[i]? →
    ∃ d ∈ s.report.edited, d ≤ i

/-- Where a line has changed, but not the number of lines, a line at or below it was reported. -/
def Traced (s : Session) : Prop :=
  s.lines.length = s.report.base.length → ∀ i, s.lines[i]? ≠ s.report.base[i]? →
    ∃ d ∈ s.report.edited, i ≤ d ∧ d < s.lines.length

variable {s : Session}

lemma sound_start (lines : List Text) : (start lines).Sound :=
  fun i _ hi => absurd hi (Nat.not_lt_zero i)

lemma sound_look (s : Session) : s.look.Sound := fun _ _ _ hne => absurd rfl hne

/-- An edit changes nothing above the line it reports. -/
lemma Sound.edit (h : s.Sound) (e : Edit) : (s.edit e).Sound := by
  intro i hl hb hne
  by_cases hi : e.line ≤ i
  · exact ⟨e.line, List.mem_cons_self, hi⟩
  · have hsame : (e.apply s.lines)[i]? = s.lines[i]? := e.getElem?_apply s.lines (by omega)
    have hl' : i < s.lines.length := by
      by_contra hge
      rw [List.getElem?_eq_none (Nat.le_of_not_lt hge), List.getElem?_eq_none_iff] at hsame
      exact absurd hl (Nat.not_lt_of_le hsame)
    obtain ⟨d, hd, hdi⟩ := h i hl' hb (by rwa [← hsame])
    exact ⟨d, List.mem_cons_of_mem _ hd, hdi⟩

lemma Sound.reported (h : s.Sound) (ht : s.Traced) :
    Reported s.report.edited s.report.base s.lines := ⟨h, ht⟩

end Session

/-! ### Right answers -/

variable {w : Workspace} {doc : ℕ} {l : Language} {s : Session}

/-- A look at traced changes is answered right, and the cache mirrors the lines. -/
lemma look_of_traced (hl : w.looksAt? doc = some l) (hm : w.Mirrors doc s.report) (hs : s.Sound)
    (ht : s.Traced) :
    (w.highlight doc s.lines).1 = (l.tokenizeLines s.lines .root).map (·.tokens)
      ∧ (w.highlight doc s.lines).2.looksAt? doc = some l
      ∧ (w.highlight doc s.lines).2.Mirrors doc s.look.report := by
  have hreport := hs.reported ht
  refine ⟨?_, by rw [looksAt?_highlight, hl], ?_⟩
  · rw [hm.highlight hl hreport]
    exact LineCache.tokens_ofLines l _ s.lines
  · have hlooked : (w.highlight doc s.lines).2.Mirrors doc
        (s.report.after w doc (.highlight doc s.lines)) := hm.looked fun _ => hreport
    rwa [Report.after, if_pos ⟨rfl, by rw [hl]; rfl⟩] at hlooked

/-- The report of an edit keeps what the workspace knows of the document. -/
lemma mirrors_edit (hm : w.Mirrors doc s.report) (e : Edit) :
    (w.invalidateFrom doc e.line).Mirrors doc (s.edit e).report :=
  hm.edited e.line rfl (by rw [cache_invalidateFrom, if_pos rfl])

lemma serve_of_traced (hl : w.looksAt? doc = some l) (hm : w.Mirrors doc s.report) (hs : s.Sound)
    {steps : List Step} (ht : ∀ s' ∈ s.looks steps, s'.Traced) :
    ∀ answer ∈ w.serve doc s.lines steps,
      answer.2 = (l.tokenizeLines answer.1 .root).map (·.tokens) := by
  induction steps generalizing w s with
  | nil => exact fun answer h => absurd h List.not_mem_nil
  | cons step steps ih =>
      cases step with
      | edit e =>
          exact ih (by rw [looksAt?_invalidateFrom, hl]) (mirrors_edit hm e) (hs.edit e) ht
      | look =>
          obtain ⟨hnow, hlater⟩ := List.forall_mem_cons.mp ht
          obtain ⟨hanswer, hl', hm'⟩ := look_of_traced hl hm hs hnow
          exact List.forall_mem_cons.mpr ⟨hanswer, ih (s := s.look) hl' hm' s.sound_look hlater⟩

/-! ### Wrong answers -/

/-- If a change is not traced, the old tokens are the answer, in a language that marks a character
in which the old line and the new one differ. -/
lemma traced_of_marking (hs : s.Sound) {w : Char → Workspace}
    (hl : ∀ x, (w x).looksAt? doc = some (.marking x)) (hm : ∀ x, (w x).Mirrors doc s.report)
    (h : ∀ x, ((w x).highlight doc s.lines).1
      = ((Language.marking x).tokenizeLines s.lines .root).map (·.tokens)) : s.Traced := by
  intro hlen i hne
  by_contra hno
  simp only [not_exists, not_and, Nat.not_lt] at hno
  have hi : i < s.lines.length := by
    by_contra hge
    rw [List.getElem?_eq_none (by omega), List.getElem?_eq_none (by omega)] at hne
    exact hne rfl
  -- a reported line stands above it, and none at it or below
  have habove : ∃ d ∈ s.report.edited, d < i := by
    obtain ⟨d, hd, hdi⟩ := hs i hi (hlen ▸ hi) hne
    have := hno d hd
    exact ⟨d, hd, by omega⟩
  have hb : i < s.report.base.length := hlen ▸ hi
  obtain ⟨x, hx⟩ := Language.exists_marks_ne (t := s.report.base[i]) (u := s.lines[i])
    (fun heq => hne (by rw [List.getElem?_eq_getElem hi, List.getElem?_eq_getElem hb, heq])) 0
  -- the line is passed over, so that its tokens are those of the old line
  have hold : (((w x).cache doc).refresh (.marking x) s.lines).lines[i]?
      = (LineCache.known (.marking x) s.report.base .root)[i]? := by
    rw [(hm x).of_looksAt? (language?_looksAt? (hl x))]
    exact LineCache.getElem?_refresh (fun line => by rw [Language.tokenizeLine_marking]) _ hlen
      habove fun d hd hid => hlen ▸ hno d hd hid
  have hanswer := congrArg (·[i]?) (h x)
  rw [highlight_of_some (hl x)] at hanswer
  simp only [LineCache.tokens, List.getElem?_map, hold, LineCache.known,
    Language.tokenizeLines_marking, List.getElem?_eq_getElem hi, List.getElem?_eq_getElem hb,
    Option.map_some, CachedLine.ofTokens, Option.getD_some] at hanswer
  exact hx (Option.some.inj hanswer)

lemma traced_of_serve (hs : s.Sound) {w : Char → Workspace}
    (hl : ∀ x, (w x).looksAt? doc = some (.marking x)) (hm : ∀ x, (w x).Mirrors doc s.report)
    {steps : List Step} (h : ∀ x, ∀ answer ∈ (w x).serve doc s.lines steps,
      answer.2 = ((Language.marking x).tokenizeLines answer.1 .root).map (·.tokens)) :
    ∀ s' ∈ s.looks steps, s'.Traced := by
  induction steps generalizing w s with
  | nil => exact fun s' hs' => absurd hs' List.not_mem_nil
  | cons step steps ih =>
      cases step with
      | edit e =>
          exact ih (hs.edit e) (fun x => by rw [looksAt?_invalidateFrom, hl])
            (fun x => mirrors_edit (hm x) e) h
      | look =>
          have hnow : s.Traced :=
            traced_of_marking hs hl hm fun x => (List.forall_mem_cons.mp (h x)).1
          refine List.forall_mem_cons.mpr ⟨hnow, ?_⟩
          have hlooked := fun x => look_of_traced (hl x) (hm x) hs hnow
          exact ih s.sound_look (fun x => (hlooked x).2.1) (fun x => (hlooked x).2.2)
            fun x => (List.forall_mem_cons.mp (h x)).2

/-- A workspace in which a document has a language. -/
def opened (l : Language) : Workspace :=
  (⟨Registry.empty.add l, {}, true⟩ : Workspace).setCache 0
    { LineCache.empty with language := l.name }

lemma looksAt?_opened (l : Language) : (opened l).looksAt? 0 = some l := by
  rw [looksAt?, if_pos (show (opened l).enabled = true from rfl), language?, opened, cache_setCache,
    if_pos rfl]
  exact (Registry.get?_add Registry.empty l l.name).trans (if_pos rfl)

lemma cleared_opened (l : Language) : (opened l).cache 0 = ((opened l).cache 0).invalidateAll := by
  rw [opened, cache_setCache, if_pos rfl]
  rfl

/-- **When a host that reports each edit gets right answers**: in every language, each look finds
the tokens of tokenizing from scratch, if and only if at each look that finds as many lines as the
one before it, the changes since then have been reported at or below their places. Lines that moved,
and whose number in the end is what it was, are not looked at again below the last report. -/
theorem serve_eq_tokenizeLines_iff (lines : List Text) (steps : List Step) :
    (∀ (w : Workspace) (doc : ℕ) (l : Language), w.looksAt? doc = some l →
      w.cache doc = (w.cache doc).invalidateAll → ∀ answer ∈ w.serve doc lines steps,
        answer.2 = (l.tokenizeLines answer.1 .root).map (·.tokens))
      ↔ ∀ s ∈ (Session.start lines).looks steps, s.Traced := by
  refine ⟨fun h => ?_, fun ht w doc l hl hw => ?_⟩
  · exact traced_of_serve (Session.sound_start lines) (fun x => looksAt?_opened (.marking x))
      (fun x => mirrors_none (cleared_opened (.marking x)))
      fun x => h (opened (.marking x)) 0 _ (looksAt?_opened _) (cleared_opened _)
  · exact serve_of_traced hl (mirrors_none hw) (Session.sound_start lines) ht

/-- A line is put in above two, and the last of the three taken out. -/
def shiftDown : List Step := [.look, .edit (.insert 0 ['y']), .edit (.delete 2), .look]

/-- In shell text the second look finds the keyword that stood in the second line before. -/
theorem serve_shiftDown :
    (opened shell).looksAt? 0 = some shell
      ∧ ((opened shell).serve 0 [['x'], ['i', 'f']] shiftDown)[1]?
      = some ([['y'], ['x']], [[⟨⟨0, 1⟩, .plain⟩], [⟨⟨0, 2⟩, .keyword⟩]])
      ∧ (shell.tokenizeLines [['y'], ['x']] .root).map (·.tokens)
        = [[⟨⟨0, 1⟩, .plain⟩], [⟨⟨0, 1⟩, .plain⟩]] :=
  ⟨looksAt?_opened shell, by decide +kernel, by decide +kernel⟩

end Workspace

end ShellSyntax
