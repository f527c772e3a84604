import Choreo.Library.Search
import Choreo.Text
import Choreo.Tools.Sanitize

/-!
# Editing a file

An edit replaces a text that occurs in the file, all its occurrences or the only one. The edits of
a call are applied one after the other, each to the text that the edits before it left, and the
file is written once all of them went through.

What an edit asks for is that its text occurs at one position. The search counts occurrences from
left to right without overlap, so that a text that overlaps itself in the file may be counted once
although it occurs at several positions.
-/

namespace Choreo

/-- One replacement. -/
structure TextEdit where
  oldText : Text
  newText : Text
  replaceAll : Option Bool := none
deriving Repr, DecidableEq

/-- The text after some edits, what it was, how many replacements were made and by how many
characters they changed its length. -/
structure AppliedEditSummary where
  content : Text
  original : Option Text
  replacementCount : ℕ
  charDelta : ℤ
deriving Repr, DecidableEq

namespace AppliedEditSummary

/-- The summary after one more edit, the `index`-th. -/
def apply (s : AppliedEditSummary) (index : ℕ) (edit : TextEdit) :
    Except String AppliedEditSummary :=
  if edit.oldText = [] then .error s!"edit {index + 1}: old_text must not be empty"
  else
    let found := Search.matchCount edit.oldText s.content
    if found = 0 then .error s!"edit {index + 1}: old_text not found"
    else
      let all := edit.replaceAll.getD false
      if all = false ∧ found ≠ 1 then
        .error s!"edit {index + 1}: old_text matched {found} locations; edit is ambiguous"
      else
        let replacements := if all then found else 1
        let content :=
          if all then Search.replaceAll edit.oldText edit.newText s.content
          else match Search.splitFirst edit.oldText s.content with
            | some (before, after) => before ++ (edit.newText ++ after)
            | none => s.content
        .ok { s with
          content := content
          replacementCount := s.replacementCount + replacements
          charDelta := s.charDelta +
            ((edit.newText.length : ℤ) - edit.oldText.length) * replacements }

/-- The summary after the edits from the `index`-th on. -/
def applyFrom (s : AppliedEditSummary) (index : ℕ) :
    List TextEdit → Except String AppliedEditSummary
  | [] => .ok s
  | edit :: edits =>
    match s.apply index edit with
    | .ok s => s.applyFrom (index + 1) edits
    | .error e => .error e

end AppliedEditSummary

def applyTextEdits (originalContent : Text) (edits : List TextEdit) :
    Except String AppliedEditSummary :=
  AppliedEditSummary.applyFrom
    { content := originalContent, original := some originalContent, replacementCount := 0,
      charDelta := 0 } 0 edits

/-- The arguments of a call. -/
structure EditFileArgs where
  path : String
  edits : List TextEdit
  expectedSha256 : Option String := none
  dryRun : Option Bool := none

/-- The file that a call works on: how its path is resolved and shown, its content if it can be
read, the digest of a content, and whether replacing it succeeds. A file is replaced as a whole, by
renaming a new one over it. -/
structure EditedFile where
  display : String → String
  content : Except String Text
  sha256Hex : Text → String
  persist : Text → Except String Unit

/-- The answer of a call: whether the file was or would be edited, its path, and the summary. -/
structure EditReport where
  dryRun : Bool
  path : String
  summary : AppliedEditSummary

/-- The answer of a call, and the content that the file was replaced with. -/
def executeEditFileTool (file : EditedFile) (args : EditFileArgs) :
    Except String EditReport × Option Text :=
  let path := trim args.path
  if path = "" then (.error "missing required string argument: path", none)
  else if args.edits = [] then (.error "missing required array argument: edits", none)
  else
    match file.content with
    | .error e => (.error e, none)
    | .ok original =>
      let mismatch := match args.expectedSha256 with
        | some expected =>
          if file.sha256Hex original ≠ (trim expected).toLower then
            some s!"expected {trim expected}, got {file.sha256Hex original}"
          else none
        | none => none
      match mismatch with
      | some hashes =>
        (.error s!"expected_sha256 mismatch for {file.display path}: {hashes}", none)
      | none =>
        match applyTextEdits original args.edits with
        | .error e => (.error e, none)
        | .ok summary =>
          let report := { dryRun := args.dryRun.getD false, path := file.display path,
                          summary := summary }
          if report.dryRun then (.ok report, none)
          else
            match file.persist summary.content with
            | .ok () => (.ok report, some summary.content)
            | .error e => (.error e, none)

/-! ### Edits one after the other -/

/-- A rule that says when a text is the only one of its kind in another. -/
abbrev OnlyRule : Type := Text → Text → Prop

/-- Edits applied to a text one after the other: the text they leave and the number of
replacements. -/
inductive Sequential (only : OnlyRule) : List TextEdit → Text → Text → ℕ → Prop
  | nil (text : Text) : Sequential only [] text text 0
  | one {edit : TextEdit} {edits : List TextEdit} {text before after result : Text} {n : ℕ}
      (hold : edit.oldText ≠ []) (hall : edit.replaceAll.getD false = false)
      (honly : only edit.oldText text)
      (hsplit : Search.splitFirst edit.oldText text = some (before, after))
      (h : Sequential only edits (before ++ (edit.newText ++ after)) result n) :
      Sequential only (edit :: edits) text result (1 + n)
  | all {edit : TextEdit} {edits : List TextEdit} {text result : Text} {n : ℕ}
      (hold : edit.oldText ≠ []) (hall : edit.replaceAll.getD false = true)
      (hoccurs : ∃ k, Search.OccursAt edit.oldText text k)
      (h : Sequential only edits (Search.replaceAll edit.oldText edit.newText text) result n) :
      Sequential only (edit :: edits) text result
        (Search.matchCount edit.oldText text + n)

/-- What the edits of a call ask for: a text that is replaced once occurs at one position, also
counting occurrences that overlap. -/
abbrev EditsApply : List TextEdit → Text → Text → ℕ → Prop :=
  Sequential fun old text => ∃! k, Search.OccursAt old text k

/-- What the search applies: a text that is replaced once is found once. -/
abbrev EditsFound : List TextEdit → Text → Text → ℕ → Prop :=
  Sequential fun old text => Search.matchCount old text = 1

namespace AppliedEditSummary

variable (s : AppliedEditSummary)

def replaced (content : Text) (n : ℕ) : AppliedEditSummary :=
  { s with
    content := content
    replacementCount := s.replacementCount + n
    charDelta := s.charDelta + ((content.length : ℤ) - s.content.length) }

theorem replaced_replaced (content content' : Text) (n n' : ℕ) :
    (s.replaced content n).replaced content' n' = s.replaced content' (n + n') := by
  simp only [replaced, AppliedEditSummary.mk.injEq, true_and]
  constructor <;> omega

theorem replaced_self : s.replaced s.content 0 = s := by
  simp [replaced]

variable {index : ℕ}

theorem apply_all {s : AppliedEditSummary} {edit : TextEdit}
    (hold : edit.oldText ≠ []) (hall : edit.replaceAll.getD false = true)
    (hoccurs : ∃ k, Search.OccursAt edit.oldText s.content k) :
    s.apply index edit =
      .ok (s.replaced (Search.replaceAll edit.oldText edit.newText s.content)
        (Search.matchCount edit.oldText s.content)) := by
  have hfound : Search.matchCount edit.oldText s.content ≠ 0 := fun h => by
    obtain ⟨k, hk⟩ := hoccurs
    exact (Search.matchCount_eq_zero_iff hold).1 h k hk
  rw [apply, if_neg hold]
  dsimp only
  rw [if_neg hfound, hall, if_neg (by simp), if_pos rfl, if_pos rfl]
  rw [replaced, Search.length_replaceAll hold]
  congr 2
  ring

/-- The code applies an edit whose text is found once. -/
theorem apply_one {s : AppliedEditSummary} {edit : TextEdit} {before after : Text}
    (hold : edit.oldText ≠ []) (hall : edit.replaceAll.getD false = false)
    (hone : Search.matchCount edit.oldText s.content = 1)
    (hsplit : Search.splitFirst edit.oldText s.content = some (before, after)) :
    s.apply index edit = .ok (s.replaced (before ++ (edit.newText ++ after)) 1) := by
  have hlen := Search.length_of_splitFirst hsplit
  rw [apply, if_neg hold]
  dsimp only
  rw [hone, if_neg Nat.one_ne_zero, if_neg (by simp), hall, if_neg Bool.false_ne_true,
    if_neg Bool.false_ne_true, hsplit, replaced, hlen]
  congr 2
  simp only [List.length_append]
  push_cast
  ring

theorem apply_eq_ok {s s' : AppliedEditSummary} {edit : TextEdit}
    (h : s.apply index edit = .ok s') :
    edit.oldText ≠ [] ∧ (∃ k, Search.OccursAt edit.oldText s.content k) ∧
      (edit.replaceAll.getD false = false → Search.matchCount edit.oldText s.content = 1) := by
  rw [apply] at h
  split_ifs at h with hold
  dsimp only at h
  by_cases hfound : Search.matchCount edit.oldText s.content = 0
  · rw [if_pos hfound] at h
    cases h
  · rw [if_neg hfound] at h
    refine ⟨hold, ?_, fun hall => ?_⟩
    · by_contra hnone
      exact hfound ((Search.matchCount_eq_zero_iff hold).2 (not_exists.1 hnone))
    · by_contra hne
      rw [if_pos ⟨hall, hne⟩] at h
      cases h

/-- The code applies edits exactly if each of them is found when its turn comes. -/
theorem applyFrom_eq_ok_iff {s s' : AppliedEditSummary} {edits : List TextEdit} :
    s.applyFrom index edits = .ok s' ↔
      ∃ result n, EditsFound edits s.content result n ∧ s' = s.replaced result n := by
  induction edits generalizing s index with
  | nil =>
    rw [applyFrom, Except.ok.injEq]
    constructor
    · rintro rfl
      exact ⟨s.content, 0, .nil _, s.replaced_self.symm⟩
    · rintro ⟨result, n, h, rfl⟩
      cases h
      exact s.replaced_self.symm
  | cons edit edits ih =>
    constructor
    · intro h
      rcases happly : s.apply index edit with e | next
      · rw [applyFrom, happly] at h
        cases h
      · rw [applyFrom, happly] at h
        obtain ⟨hold, hoccurs, hone⟩ := apply_eq_ok happly
        obtain ⟨result, n, hrest, rfl⟩ := ih.1 h
        rcases hall : edit.replaceAll.getD false with - | -
        · obtain ⟨⟨before, after⟩, hsplit⟩ := Search.splitFirst_isSome_iff.2 hoccurs
          rw [apply_one hold hall (hone hall) hsplit] at happly
          cases happly
          exact ⟨result, 1 + n, .one hold hall (hone hall) hsplit hrest,
            s.replaced_replaced _ _ _ _⟩
        · rw [apply_all hold hall hoccurs] at happly
          cases happly
          exact ⟨result, _, .all hold hall hoccurs hrest, s.replaced_replaced _ _ _ _⟩
    · rintro ⟨result, n, h, rfl⟩
      cases h with
      | one hold hall honly hsplit h =>
        rw [applyFrom, apply_one hold hall honly hsplit]
        exact ih.2 ⟨result, _, h, (s.replaced_replaced _ _ _ _).symm⟩
      | all hold hall hoccurs h =>
        rw [applyFrom, apply_all hold hall hoccurs]
        exact ih.2 ⟨result, _, h, (s.replaced_replaced _ _ _ _).symm⟩

end AppliedEditSummary

variable {edits : List TextEdit}

/-- What the code applies. -/
theorem applyTextEdits_eq_ok_iff {text : Text}
    {s : AppliedEditSummary} :
    applyTextEdits text edits = .ok s ↔
      ∃ result n, EditsFound edits text result n ∧
        s = { content := result, original := some text, replacementCount := n,
              charDelta := (result.length : ℤ) - text.length } := by
  rw [applyTextEdits, AppliedEditSummary.applyFrom_eq_ok_iff]
  simp only [AppliedEditSummary.replaced, Nat.zero_add, Int.zero_add]

/-! ### When the search finds what is asked for -/

namespace Sequential

variable {only : OnlyRule} {edits : List TextEdit} {text result result' : Text} {n n' : ℕ}

/-- Edits leave one text. -/
theorem unique (h : Sequential only edits text result n)
    (h' : Sequential only edits text result' n') : result = result' ∧ n = n' := by
  induction h generalizing result' n' with
  | nil text =>
    cases h'
    exact ⟨rfl, rfl⟩
  | one hold hall honly hsplit h ih =>
    cases h' with
    | one hold' hall' honly' hsplit' h' =>
      rw [hsplit] at hsplit'
      cases hsplit'
      obtain ⟨rfl, rfl⟩ := ih h'
      exact ⟨rfl, rfl⟩
    | all hold' hall' =>
      rw [hall] at hall'
      cases hall'
  | all hold hall hoccurs h ih =>
    cases h' with
    | one hold' hall' =>
      rw [hall] at hall'
      cases hall'
    | all hold' hall' hoccurs' h' =>
      obtain ⟨rfl, rfl⟩ := ih h'
      exact ⟨rfl, rfl⟩

end Sequential

/-- A text meets an edit that replaces one occurrence, after the edits before it, and the text of
the edit overlaps itself in it. -/
def MeetsOverlap (edits : List TextEdit) (text : Text) : Prop :=
  ∃ done edit rest left n, edits = done ++ edit :: rest ∧ EditsFound done text left n ∧
    edit.replaceAll.getD false = false ∧ Search.Overlapped edit.oldText left

theorem meetsOverlap_cons {edit : TextEdit} {text : Text} :
    MeetsOverlap (edit :: edits) text ↔
      (edit.replaceAll.getD false = false ∧ Search.Overlapped edit.oldText text) ∨
        ∃ left n, EditsFound [edit] text left n ∧ MeetsOverlap edits left := by
  constructor
  · rintro ⟨done, edit', rest, left, n, hedits, hdone, hall, hoverlap⟩
    rcases done with - | ⟨first, done⟩
    · obtain ⟨rfl, rfl⟩ := List.cons.inj hedits
      cases hdone
      exact .inl ⟨hall, hoverlap⟩
    · obtain ⟨rfl, rfl⟩ := List.cons.inj hedits
      cases hdone with
      | one hold hone honly hsplit h =>
        exact .inr ⟨_, _, .one hold hone honly hsplit (.nil _),
          done, edit', rest, left, _, rfl, h, hall, hoverlap⟩
      | all hold hrepl hoccurs h =>
        exact .inr ⟨_, _, .all hold hrepl hoccurs (.nil _),
          done, edit', rest, left, _, rfl, h, hall, hoverlap⟩
  · rintro (⟨hall, hoverlap⟩ | ⟨next, m, hfirst, done, edit', rest, left, n, rfl, hdone, hall,
      hoverlap⟩)
    · exact ⟨[], edit, edits, text, 0, rfl, .nil _, hall, hoverlap⟩
    · cases hfirst with
      | one hold hone honly hsplit h =>
        cases h
        exact ⟨edit :: done, edit', rest, left, _, rfl, .one hold hone honly hsplit hdone, hall,
          hoverlap⟩
      | all hold hrepl hoccurs h =>
        cases h
        exact ⟨edit :: done, edit', rest, left, _, rfl, .all hold hrepl hoccurs hdone, hall,
          hoverlap⟩

/-- The edits apply as they ask exactly if they are found and none of them meets a text in which
its own text overlaps itself. -/
theorem editsApply_iff {text result : Text} {n : ℕ} :
    EditsApply edits text result n ↔
      EditsFound edits text result n ∧ ¬MeetsOverlap edits text := by
  constructor
  · intro h
    induction h with
    | nil text =>
      refine ⟨.nil text, ?_⟩
      rintro ⟨done, edit, rest, left, n, hedits, -⟩
      exact absurd hedits (by simp)
    | one hold hall honly hsplit h ih =>
      obtain ⟨hone, hoverlap⟩ := (Search.occursOnce_iff hold).1 honly
      refine ⟨.one hold hall hone hsplit ih.1, ?_⟩
      rw [meetsOverlap_cons]
      rintro (⟨-, hover⟩ | ⟨left, n, hfirst, hmeets⟩)
      · exact hoverlap hover
      · obtain ⟨rfl, -⟩ := hfirst.unique (.one hold hall hone hsplit (.nil _))
        exact ih.2 hmeets
    | all hold hall hoccurs h ih =>
      refine ⟨.all hold hall hoccurs ih.1, ?_⟩
      rw [meetsOverlap_cons]
      rintro (⟨hone, -⟩ | ⟨left, n, hfirst, hmeets⟩)
      · rw [hall] at hone
        cases hone
      · obtain ⟨rfl, -⟩ := hfirst.unique (.all hold hall hoccurs (.nil _))
        exact ih.2 hmeets
  · rintro ⟨h, hmeets⟩
    induction h with
    | nil text => exact .nil text
    | one hold hall honly hsplit h ih =>
      rw [meetsOverlap_cons, not_or] at hmeets
      have hover := fun hover => hmeets.1 ⟨hall, hover⟩
      refine .one hold hall ((Search.occursOnce_iff hold).2 ⟨honly, hover⟩) hsplit (ih ?_)
      exact fun hrest => hmeets.2 ⟨_, _, .one hold hall honly hsplit (.nil _), hrest⟩
    | all hold hall hoccurs h ih =>
      rw [meetsOverlap_cons, not_or] at hmeets
      refine .all hold hall hoccurs (ih ?_)
      exact fun hrest => hmeets.2 ⟨_, _, .all hold hall hoccurs (.nil _), hrest⟩

/-- The edits of a call are applied as they ask: they succeed exactly if each text that is replaced
occurs as it should, and then the summary is that of the text they leave. -/
def AppliesAsAsked (text : Text) (edits : List TextEdit) : Prop :=
  ((∃ s, applyTextEdits text edits = .ok s) ↔ ∃ result n, EditsApply edits text result n) ∧
    ∀ s, applyTextEdits text edits = .ok s →
      EditsApply edits text s.content s.replacementCount ∧
        s.charDelta = (s.content.length : ℤ) - text.length

/-- A call that fails replaces no file. -/
theorem executeEditFileTool_error {file : EditedFile} {args : EditFileArgs} {e : String}
    {written : Option Text} (h : executeEditFileTool file args = (.error e, written)) :
    written = none := by
  rw [executeEditFileTool] at h
  dsimp only at h
  repeat' split at h
  all_goals cases h
  all_goals rfl

/-- The edits of a call are applied as they ask exactly if they are not all found while one of
them, which replaces a single occurrence, meets a text in which its own text overlaps itself. A
call that fails replaces no file. -/
theorem appliesAsAsked_iff (file : EditedFile) (args : EditFileArgs) (text : Text)
    (edits : List TextEdit) :
    (AppliesAsAsked text edits ∧
      ∀ e written, executeEditFileTool file args = (.error e, written) → written = none) ↔
    ¬((∃ result n, EditsFound edits text result n) ∧ MeetsOverlap edits text) := by
  have hwritten : ∀ e written, executeEditFileTool file args = (.error e, written) →
      written = none := fun e written h => executeEditFileTool_error h
  rw [and_iff_left hwritten]
  constructor
  · rintro ⟨hiff, -⟩ ⟨⟨result, n, hfound⟩, hmeets⟩
    obtain ⟨result', n', happly⟩ := hiff.1 ⟨_, applyTextEdits_eq_ok_iff.2 ⟨_, _, hfound, rfl⟩⟩
    exact (editsApply_iff.1 happly).2 hmeets
  · intro hnot
    have happly {result : Text} {n : ℕ} (hfound : EditsFound edits text result n) :
        EditsApply edits text result n :=
      editsApply_iff.2 ⟨hfound, fun hmeets => hnot ⟨⟨result, n, hfound⟩, hmeets⟩⟩
    refine ⟨⟨?_, ?_⟩, fun s hs => ?_⟩
    · rintro ⟨s, hs⟩
      obtain ⟨result, n, hfound, -⟩ := applyTextEdits_eq_ok_iff.1 hs
      exact ⟨result, n, happly hfound⟩
    · rintro ⟨result, n, h⟩
      exact ⟨_, applyTextEdits_eq_ok_iff.2 ⟨result, n, (editsApply_iff.1 h).1, rfl⟩⟩
    · obtain ⟨result, n, hfound, rfl⟩ := applyTextEdits_eq_ok_iff.1 hs
      exact ⟨happly hfound, rfl⟩

/-- The text of an edit occurs twice, overlapping itself, and is replaced once. -/
theorem not_appliesAsAsked_overlap :
    ¬AppliesAsAsked ['a', 'a', 'a'] [{ oldText := ['a', 'a'], newText := ['b'] }] := by
  rintro ⟨-, h⟩
  have hsplit : Search.splitFirst ['a', 'a'] ['a', 'a', 'a'] = some ([], ['a']) := by decide
  have hrest : Search.splitFirst ['a', 'a'] ['a'] = none := by decide
  have hcount : Search.matchCount ['a', 'a'] ['a', 'a', 'a'] = 1 := by
    rw [Search.matchCount_of_some (by decide) hsplit, Search.matchCount_of_none hrest]
  have hfound : EditsFound [{ oldText := ['a', 'a'], newText := ['b'] }] ['a', 'a', 'a']
      ['b', 'a'] 1 :=
    @Sequential.one _ { oldText := ['a', 'a'], newText := ['b'] } [] _ [] ['a'] _ 0
      (List.cons_ne_nil 'a' ['a']) rfl hcount hsplit (.nil _)
  obtain ⟨result, n, happly⟩ : ∃ result n, EditsApply
      [{ oldText := ['a', 'a'], newText := ['b'] }] ['a', 'a', 'a'] result n :=
    ⟨_, _, (h _ (applyTextEdits_eq_ok_iff.2 ⟨_, _, hfound, rfl⟩)).1⟩
  cases happly with
  | one hold hall honly =>
    obtain ⟨k, -, hunique⟩ := honly
    have heq := (hunique 0 (by decide)).trans (hunique 1 (by decide)).symm
    exact absurd heq (by decide)
  | all hold hall => cases hall

end Choreo
