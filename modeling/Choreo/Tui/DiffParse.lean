import Mathlib.Tactic

/-!
# Reading unified diffs

The terminal client reads the text of a diff line by line (`parse_diff` of
`choreo-tui/src/diff_render.rs`) and looks for the headers of a file everywhere. A deleted line that
begins with two hyphens and a space is taken for a header, and so is an added one with plus signs; a
path with a space is cut there. All other diffs are read as they were printed, with a carriage return
at the end of a line as the exception.
-/

namespace Choreo.DiffParse

open List Option

abbrev Text := List Char

inductive DiffLineKind
  | addition
  | deletion
  | context
deriving DecidableEq

structure DiffLine where
  kind : DiffLineKind
  content : Text
deriving DecidableEq

structure DiffHunk where
  header : Text
  lines : List DiffLine
deriving DecidableEq

structure FileDiff where
  oldPath : Text
  newPath : Text
  hunks : List DiffHunk
deriving DecidableEq

/-! ### The parser -/

/-- The text after a fixed beginning. -/
def stripPrefix : Text → Text → Option Text
  | [], text => some text
  | _ :: _, [] => none
  | c :: start, d :: text => if c = d then stripPrefix start text else none

def diffGit : Text := ['d', 'i', 'f', 'f', ' ', '-', '-', 'g', 'i', 't', ' ']

/-- A line without the carriage return at its end. -/
def withoutReturn (line : Text) : Text :=
  if line.getLast? = some '\r' then line.dropLast else line

def linesFrom (line : Text) : Text → List Text
  | [] => if line = [] then [] else [line]
  | c :: text =>
    if c = '\n' then withoutReturn line :: linesFrom [] text else linesFrom (line ++ [c]) text

structure DiffParserState where
  oldPath : Text := []
  newPath : Text := []
  hunks : List DiffHunk := []
  currentHunkLines : List DiffLine := []
  currentHunkHeader : Text := []
  inHunk : Bool := false

namespace DiffParserState

variable (s : DiffParserState)

def flushHunk : DiffParserState :=
  if s.inHunk then
    { s with
      hunks := s.hunks ++ [⟨s.currentHunkHeader, s.currentHunkLines⟩]
      currentHunkHeader := []
      currentHunkLines := []
      inHunk := false }
  else s

/-- Ends a file, and the file if there is any of it. -/
def flushFile : DiffParserState × List FileDiff :=
  let s := s.flushHunk
  if s.oldPath ≠ [] ∨ s.newPath ≠ [] ∨ s.hunks ≠ [] then
    ({ s with oldPath := [], newPath := [], hunks := [] }, [⟨s.oldPath, s.newPath, s.hunks⟩])
  else (s, [])

/-- A line of the hunk. -/
def push (kind : DiffLineKind) (content : Text) : DiffParserState :=
  { s with currentHunkLines := s.currentHunkLines ++ [⟨kind, content⟩] }

/-- A line of a hunk that is no header. -/
def hunkLine (line : Text) : DiffParserState :=
  match line with
  | '+' :: content => s.push .addition content
  | '-' :: content => s.push .deletion content
  | ' ' :: content => s.push .context content
  | line => if line = "\\ No newline at end of file".toList then s else s.flushHunk

/-- A line that begins no file. -/
def line (line : Text) : DiffParserState :=
  match stripPrefix ['-', '-', '-', ' '] line with
  | some rest =>
    if s.oldPath = [] then { s with oldPath := (stripPrefix ['a', '/'] rest).getD rest } else s
  | none =>
    match stripPrefix ['+', '+', '+', ' '] line with
    | some rest =>
      if s.newPath = [] then { s with newPath := (stripPrefix ['b', '/'] rest).getD rest } else s
    | none =>
      if (stripPrefix ['@', '@'] line).isSome then
        { s.flushHunk with currentHunkHeader := line, inHunk := true }
      else if s.inHunk then s.hunkLine line
      else s

/-- Begins a file: the two paths are what is before the first space and behind it. -/
def begin (rest : Text) : DiffParserState :=
  { s with
    oldPath := (stripPrefix ['a', '/'] (rest.takeWhile (· ≠ ' '))).getD []
    newPath :=
      if ' ' ∈ rest then (stripPrefix ['b', '/'] (rest.dropWhile (· ≠ ' ')).tail).getD [] else [] }

end DiffParserState

def parseLine (r : DiffParserState × List FileDiff) (line : Text) :
    DiffParserState × List FileDiff :=
  match stripPrefix diffGit line with
  | some rest => (r.1.flushFile.1.begin rest, r.2 ++ r.1.flushFile.2)
  | none => (r.1.line line, r.2)

def parseDiff (text : Text) : List FileDiff :=
  let r := (linesFrom [] text).foldl parseLine ({}, [])
  r.2 ++ r.1.flushFile.2

/-! ### The printer -/

/-- The sign in front of a line. -/
def DiffLineKind.sign : DiffLineKind → Char
  | .addition => '+'
  | .deletion => '-'
  | .context => ' '

def DiffHunk.printed (hunk : DiffHunk) : List Text :=
  hunk.header :: hunk.lines.map fun line => line.kind.sign :: line.content

variable (file : FileDiff)

/-- The lines of a file behind its first one. -/
def FileDiff.body : List Text :=
  ('-' :: '-' :: '-' :: ' ' :: 'a' :: '/' :: file.oldPath) ::
    ('+' :: '+' :: '+' :: ' ' :: 'b' :: '/' :: file.newPath) :: file.hunks.flatMap (·.printed)

def FileDiff.title : Text :=
  'a' :: '/' :: (file.oldPath ++ ' ' :: 'b' :: '/' :: file.newPath)

def FileDiff.printed : List Text := (diffGit ++ file.title) :: file.body

def print (files : List FileDiff) : Text :=
  (files.flatMap (·.printed)).flatMap (· ++ ['\n'])

/-- Paths and lines have no newline, and a hunk header begins as one. -/
structure FileDiff.WellFormed (file : FileDiff) : Prop where
  lines : ∀ line ∈ file.printed, '\n' ∉ line
  header : ∀ hunk ∈ file.hunks, (stripPrefix ['@', '@'] hunk.header).isSome = true

/-! ### Lines -/

/-- A line that a printed diff keeps: nothing is cut at its end. -/
def Ends (line : Text) : Prop := line.getLast? ≠ some '\r'

instance (line : Text) : Decidable (Ends line) := inferInstanceAs (Decidable (_ ≠ _))

theorem withoutReturn_eq_self {line : Text} : withoutReturn line = line ↔ Ends line := by
  rw [withoutReturn, Ends]
  split_ifs with h
  · refine iff_of_false (fun heq => ?_) (not_not_intro h)
    have hne : line ≠ [] := by
      rintro rfl
      cases h
    have hlength := congrArg List.length heq
    rw [length_dropLast] at hlength
    have := length_pos_iff.2 hne
    omega
  · exact iff_of_true rfl h

theorem withoutReturn_cons {c : Char} (hc : c ≠ '\r') (line : Text) :
    withoutReturn (c :: line) = c :: withoutReturn line := by
  cases line with
  | nil => simp [withoutReturn, hc]
  | cons d line =>
    rw [withoutReturn, withoutReturn, List.getLast?_cons_cons]
    split_ifs <;> rfl

theorem sign_ne_return (kind : DiffLineKind) : kind.sign ≠ '\r' := by
  cases kind <;> decide

/-- The beginning of a line is kept. -/
theorem withoutReturn_append (start : Text) (c : Char) (line : Text) :
    withoutReturn (start ++ c :: line) = start ++ withoutReturn (c :: line) := by
  rw [withoutReturn, withoutReturn, List.getLast?_append_of_ne_nil _ (cons_ne_nil c line)]
  split_ifs
  · rw [dropLast_append_of_ne_nil (cons_ne_nil c line)]
  · rfl

theorem linesFrom_append {line : Text} (h : '\n' ∉ line) (cur text : Text) :
    linesFrom cur (line ++ '\n' :: text) = withoutReturn (cur ++ line) :: linesFrom [] text := by
  induction line generalizing cur with
  | nil => rw [nil_append, linesFrom, if_pos rfl, append_nil]
  | cons c line ih =>
    rw [mem_cons, not_or] at h
    rw [cons_append, linesFrom, if_neg (Ne.symm h.1), ih h.2, append_assoc]
    rfl

theorem linesFrom_printed {lines : List Text} (h : ∀ line ∈ lines, '\n' ∉ line) :
    linesFrom [] (lines.flatMap (· ++ ['\n'])) = lines.map withoutReturn := by
  induction lines with
  | nil => rfl
  | cons line lines ih =>
    rw [forall_mem_cons] at h
    rw [flatMap_cons, append_assoc, singleton_append, linesFrom_append h.1, ih h.2]
    rfl

theorem stripPrefix_append (start text : Text) : stripPrefix start (start ++ text) = some text := by
  induction start with
  | nil => rfl
  | cons c start ih => rw [cons_append, stripPrefix, if_pos rfl, ih]

/-! ### A hunk -/

def readLine (line : DiffLine) : Option DiffLine :=
  let content := withoutReturn line.content
  let taken := match line.kind with
    | .deletion => (stripPrefix ['-', '-', ' '] content).isSome
    | .addition => (stripPrefix ['+', '+', ' '] content).isSome
    | .context => false
  if taken then none else some ⟨line.kind, content⟩

def readHunk (hunk : DiffHunk) : DiffHunk :=
  ⟨withoutReturn hunk.header, hunk.lines.filterMap readLine⟩

theorem eq_of_stripPrefix {start text rest : Text} (h : stripPrefix start text = some rest) :
    text = start ++ rest := by
  induction start generalizing text with
  | nil => exact some.inj h
  | cons c start ih =>
    cases text with
    | nil => cases h
    | cons d text =>
      rw [stripPrefix] at h
      split_ifs at h with hcd
      rw [ih h, hcd, cons_append]

theorem header_eq {header : Text} (h : (stripPrefix ['@', '@'] header).isSome = true) :
    ∃ rest, header = '@' :: '@' :: rest := by
  obtain ⟨rest, hrest⟩ := isSome_iff_exists.1 h
  exact ⟨rest, eq_of_stripPrefix hrest⟩

namespace DiffParserState

variable {s : DiffParserState}

theorem line_sign (hin : s.inHunk = true) (line : DiffLine) :
    ∃ oldPath newPath,
      s.line (withoutReturn (line.kind.sign :: line.content)) =
        { s with
          oldPath := oldPath, newPath := newPath
          currentHunkLines := s.currentHunkLines ++ (readLine line).toList } ∧
      (readLine line ≠ none → oldPath = s.oldPath ∧ newPath = s.newPath) := by
  obtain ⟨kind, content⟩ := line
  cases kind with
  | context =>
    rw [withoutReturn_cons (sign_ne_return _)]
    refine ⟨s.oldPath, s.newPath, ?_, fun _ => ⟨rfl, rfl⟩⟩
    simp [DiffParserState.line, DiffLineKind.sign, stripPrefix, hin, hunkLine, push, readLine]
  | deletion =>
    rw [withoutReturn_cons (sign_ne_return _)]
    cases htaken : stripPrefix ['-', '-', ' '] (withoutReturn content) with
    | none =>
      refine ⟨s.oldPath, s.newPath, ?_, fun _ => ⟨rfl, rfl⟩⟩
      simp [DiffParserState.line, DiffLineKind.sign, stripPrefix, hin, hunkLine, push, readLine,
        htaken]
    | some rest =>
      refine ⟨if s.oldPath = [] then (stripPrefix ['a', '/'] rest).getD rest else s.oldPath,
        s.newPath, ?_, fun hread => (hread ?_).elim⟩
      · simp [DiffParserState.line, DiffLineKind.sign, stripPrefix, htaken, readLine]
        split_ifs <;> simp
      · simp [readLine, htaken]
  | addition =>
    rw [withoutReturn_cons (sign_ne_return _)]
    cases htaken : stripPrefix ['+', '+', ' '] (withoutReturn content) with
    | none =>
      refine ⟨s.oldPath, s.newPath, ?_, fun _ => ⟨rfl, rfl⟩⟩
      simp [DiffParserState.line, DiffLineKind.sign, stripPrefix, hin, hunkLine, push, readLine,
        htaken]
    | some rest =>
      refine ⟨s.oldPath,
        if s.newPath = [] then (stripPrefix ['b', '/'] rest).getD rest else s.newPath, ?_,
        fun hread => (hread ?_).elim⟩
      · simp [DiffParserState.line, DiffLineKind.sign, stripPrefix, htaken, readLine]
        split_ifs <;> simp
      · simp [readLine, htaken]

theorem foldl_lines (hin : s.inHunk = true) (lines : List DiffLine) :
    ∃ oldPath newPath,
      (lines.map fun line => withoutReturn (line.kind.sign :: line.content)).foldl
          DiffParserState.line s =
        { s with
          oldPath := oldPath, newPath := newPath
          currentHunkLines := s.currentHunkLines ++ lines.filterMap readLine } ∧
      ((∀ line ∈ lines, readLine line ≠ none) → oldPath = s.oldPath ∧ newPath = s.newPath) := by
  induction lines generalizing s with
  | nil => exact ⟨s.oldPath, s.newPath, by simp, fun _ => ⟨rfl, rfl⟩⟩
  | cons line lines ih =>
    obtain ⟨o, n, hline, hpaths⟩ := line_sign hin line
    rw [map_cons, foldl_cons, hline]
    obtain ⟨o', n', hrest, hpaths'⟩ := ih (s := { s with
      oldPath := o, newPath := n
      currentHunkLines := s.currentHunkLines ++ (readLine line).toList }) hin
    refine ⟨o', n', hrest.trans ?_, fun hall => ?_⟩
    · cases hread : readLine line <;> simp [hread]
    · rw [forall_mem_cons] at hall
      obtain ⟨ho', hn'⟩ := hpaths' hall.2
      obtain ⟨ho, hn⟩ := hpaths hall.1
      exact ⟨ho'.trans ho, hn'.trans hn⟩

/-- Nothing of a hunk is left when none is open. -/
def Idle (s : DiffParserState) : Prop :=
  s.flushHunk = { oldPath := s.oldPath, newPath := s.newPath, hunks := s.flushHunk.hunks }

theorem foldl_hunks (hs : s.Idle) {hunks : List DiffHunk}
    (hheader : ∀ hunk ∈ hunks, (stripPrefix ['@', '@'] hunk.header).isSome = true) :
    ∃ oldPath newPath,
      (((hunks.flatMap (·.printed)).map withoutReturn).foldl DiffParserState.line s).flushHunk =
        { oldPath := oldPath, newPath := newPath
          hunks := s.flushHunk.hunks ++ hunks.map readHunk } ∧
      ((∀ hunk ∈ hunks, ∀ line ∈ hunk.lines, readLine line ≠ none) →
        oldPath = s.oldPath ∧ newPath = s.newPath) := by
  induction hunks generalizing s with
  | nil =>
    refine ⟨s.oldPath, s.newPath, ?_, fun _ => ⟨rfl, rfl⟩⟩
    rw [map_nil, append_nil]
    exact hs
  | cons hunk hunks ih =>
    rw [forall_mem_cons] at hheader
    obtain ⟨rest, hrest⟩ := header_eq hheader.1
    have hfirst : s.line (withoutReturn hunk.header) =
        { s.flushHunk with currentHunkHeader := withoutReturn hunk.header, inHunk := true } := by
      rw [hrest, withoutReturn_cons (by decide), withoutReturn_cons (by decide)]
      rfl
    obtain ⟨o, n, hlines, hpaths⟩ := foldl_lines (s := { s.flushHunk with
      currentHunkHeader := withoutReturn hunk.header, inHunk := true }) rfl hunk.lines
    rw [flatMap_cons, map_append, foldl_append, DiffHunk.printed, map_cons,
      foldl_cons, hfirst, List.map_map]
    obtain ⟨o', n', heq, hpaths'⟩ := ih (s := { s.flushHunk with
      oldPath := o, newPath := n
      currentHunkHeader := withoutReturn hunk.header, inHunk := true
      currentHunkLines := s.flushHunk.currentHunkLines ++ hunk.lines.filterMap readLine })
      rfl hheader.2
    refine ⟨o', n', ?_, fun hall => ?_⟩
    · have hsteps := congrArg (fun t => (((hunks.flatMap (·.printed)).map withoutReturn).foldl
        DiffParserState.line t).flushHunk) hlines
      refine hsteps.trans (heq.trans ?_)
      rw [hs]
      simp [flushHunk, readHunk]
    · rw [forall_mem_cons] at hall
      obtain ⟨ho', hn'⟩ := hpaths' hall.2
      obtain ⟨ho, hn⟩ := hpaths hall.1
      rw [hs] at ho hn
      exact ⟨ho'.trans ho, hn'.trans hn⟩

end DiffParserState

/-! ### A file -/

def FileDiff.first : DiffParserState :=
  DiffParserState.begin {} (withoutReturn file.title)

def FileDiff.state : DiffParserState :=
  (file.body.map withoutReturn).foldl DiffParserState.line file.first

/-- A path that is read in the first line, or else in its own. -/
def orElse (first path : Text) : Text := if first = [] then withoutReturn path else first

theorem FileDiff.state_spec {file : FileDiff} (h : file.WellFormed) :
    ∃ oldPath newPath,
      file.state.flushHunk =
        { oldPath := oldPath, newPath := newPath, hunks := file.hunks.map readHunk } ∧
      ((∀ hunk ∈ file.hunks, ∀ line ∈ hunk.lines, readLine line ≠ none) →
        oldPath = orElse file.first.oldPath file.oldPath ∧
          newPath = orElse file.first.newPath file.newPath) := by
  have hpaths : ((file.body.take 2).map withoutReturn).foldl DiffParserState.line file.first =
      { oldPath := orElse file.first.oldPath file.oldPath
        newPath := orElse file.first.newPath file.newPath } := by
    simp only [FileDiff.body, take_succ_cons, take_zero, map_cons, map_nil,
      foldl_cons, foldl_nil]
    have hold := withoutReturn_append ['-', '-', '-', ' ', 'a'] '/' file.oldPath
    have hnew := withoutReturn_append ['+', '+', '+', ' ', 'b'] '/' file.newPath
    rw [withoutReturn_cons (by decide)] at hold hnew
    simp only [cons_append, nil_append] at hold hnew
    rw [hold, hnew]
    simp only [DiffParserState.line, stripPrefix, if_true,
      orElse, FileDiff.first, DiffParserState.begin]
    split_ifs <;> simp_all
  obtain ⟨o, n, hstate, hkept⟩ := DiffParserState.foldl_hunks (s :=
    { oldPath := orElse file.first.oldPath file.oldPath
      newPath := orElse file.first.newPath file.newPath }) rfl h.header
  refine ⟨o, n, Eq.trans ?_ hstate, hkept⟩
  rw [← hpaths, ← foldl_append, ← map_append]
  rfl

theorem FileDiff.flushFile_state {file : FileDiff} (h : file.WellFormed) :
    file.state.flushFile.1 = {} ∧ file.state.flushFile.2.length ≤ 1 := by
  obtain ⟨o, n, hstate, -⟩ := file.state_spec h
  rw [DiffParserState.flushFile, hstate]
  dsimp only
  split_ifs with hsome
  · exact ⟨rfl, le_rfl⟩
  · simp only [not_or, not_not] at hsome
    obtain ⟨rfl, rfl, hnil⟩ := hsome
    rw [hnil]
    exact ⟨rfl, Nat.zero_le 1⟩

/-! ### All files -/

/-- Lines that begin no file only change the state. -/
theorem foldl_parseLine {lines : List Text} (h : ∀ line ∈ lines, stripPrefix diffGit line = none)
    (s : DiffParserState) (files : List FileDiff) :
    lines.foldl parseLine (s, files) = (lines.foldl DiffParserState.line s, files) := by
  induction lines generalizing s with
  | nil => rfl
  | cons line lines ih =>
    rw [forall_mem_cons] at h
    rw [foldl_cons, parseLine, h.1, foldl_cons]
    exact ih h.2 _

theorem FileDiff.body_begins {file : FileDiff} (h : file.WellFormed) :
    ∀ line ∈ file.body.map withoutReturn, stripPrefix diffGit line = none := by
  have hother : ∀ {c : Char} {line : Text}, c ≠ '\r' → c ≠ 'd' →
      stripPrefix diffGit (withoutReturn (c :: line)) = none := by
    intro c line hr hd
    rw [withoutReturn_cons hr, diffGit, stripPrefix, if_neg (Ne.symm hd)]
  intro line hline
  obtain ⟨line, hmem, rfl⟩ := List.mem_map.1 hline
  rw [FileDiff.body, mem_cons, mem_cons, mem_flatMap] at hmem
  rcases hmem with rfl | rfl | ⟨hunk, hhunk, hmem⟩
  · exact hother (by decide) (by decide)
  · exact hother (by decide) (by decide)
  · rw [DiffHunk.printed, mem_cons, List.mem_map] at hmem
    rcases hmem with rfl | ⟨line, -, rfl⟩
    · obtain ⟨rest, hrest⟩ := header_eq (h.header hunk hhunk)
      rw [hrest]
      exact hother (by decide) (by decide)
    · refine hother (sign_ne_return _) ?_
      cases line.kind <;> decide

theorem foldl_files {files : List FileDiff} (h : ∀ file ∈ files, file.WellFormed)
    {s : DiffParserState} (hs : s.flushFile.1 = {}) (before : List FileDiff) :
    let r := ((files.flatMap (·.printed)).map withoutReturn).foldl parseLine (s, before)
    r.2 ++ r.1.flushFile.2 =
      before ++ s.flushFile.2 ++ files.flatMap fun file => file.state.flushFile.2 := by
  induction files generalizing s before with
  | nil => exact (append_nil _).symm
  | cons file files ih =>
    rw [forall_mem_cons] at h
    have htitle : withoutReturn (diffGit ++ file.title) = diffGit ++ withoutReturn file.title :=
      withoutReturn_append _ _ _
    rw [flatMap_cons, map_append, foldl_append, FileDiff.printed, map_cons,
      foldl_cons, htitle, parseLine, stripPrefix_append, foldl_parseLine (file.body_begins h.1)]
    dsimp only
    rw [hs]
    refine (ih h.2 (file.flushFile_state h.1).1 _).trans ?_
    rw [flatMap_cons, append_assoc (before ++ s.flushFile.2)]

theorem parseDiff_print {files : List FileDiff} (h : ∀ file ∈ files, file.WellFormed) :
    parseDiff (print files) = files.flatMap fun file => file.state.flushFile.2 := by
  rw [parseDiff, print, linesFrom_printed]
  · exact foldl_files h rfl []
  · intro line hline
    obtain ⟨file, hfile, hline⟩ := mem_flatMap.1 hline
    exact (h file hfile).lines line hline

/-! ### What is read as it was printed -/

/-- A line that is read as it was printed. -/
def DiffLine.Plain (line : DiffLine) : Prop :=
  Ends line.content ∧
    match line.kind with
    | .deletion => stripPrefix ['-', '-', ' '] line.content = none
    | .addition => stripPrefix ['+', '+', ' '] line.content = none
    | .context => True

/-- A file that is read as it was printed: its old path has no space, or it begins with one and is
taken from its own line; there is anything of the file; and all its lines are read. -/
structure FileDiff.Plain (file : FileDiff) : Prop where
  oldPath : ' ' ∉ file.oldPath ∨
    ∃ rest, file.oldPath = ' ' :: rest ∧ stripPrefix ['b', '/'] rest = none ∧ Ends file.oldPath
  newPath : Ends file.newPath
  some : file.oldPath ≠ [] ∨ file.newPath ≠ [] ∨ file.hunks ≠ []
  hunks : ∀ hunk ∈ file.hunks, Ends hunk.header ∧ ∀ line ∈ hunk.lines, line.Plain

theorem filterMap_eq_self_iff {α : Type*} {f : α → Option α} {as : List α} :
    as.filterMap f = as ↔ ∀ a ∈ as, f a = some a := by
  induction as with
  | nil => simp
  | cons a as ih =>
    rw [forall_mem_cons]
    cases hf : f a with
    | none =>
      rw [filterMap_cons_none hf]
      refine iff_of_false (fun heq => ?_) fun h => by cases h.1
      have hlength := length_filterMap_le f as
      rw [heq, length_cons] at hlength
      omega
    | some b => rw [filterMap_cons_some hf, cons.injEq, ih, some.injEq]

theorem readLine_eq_some_iff {line : DiffLine} : readLine line = some line ↔ line.Plain := by
  obtain ⟨kind, content⟩ := line
  rw [DiffLine.Plain, ← withoutReturn_eq_self]
  have hread : ∀ {taken : Bool},
      (if taken then none else some (DiffLine.mk kind (withoutReturn content))) =
        some ⟨kind, content⟩ ↔ taken = false ∧ withoutReturn content = content := by
    intro taken
    cases taken <;> simp
  rw [readLine]
  dsimp only
  rw [hread, and_comm]
  refine and_congr_right fun hends => ?_
  cases kind <;> simp [hends]

theorem readHunk_eq_iff {hunk : DiffHunk} :
    readHunk hunk = hunk ↔ Ends hunk.header ∧ ∀ line ∈ hunk.lines, line.Plain := by
  obtain ⟨header, lines⟩ := hunk
  rw [readHunk, DiffHunk.mk.injEq, withoutReturn_eq_self, filterMap_eq_self_iff]
  simp only [readLine_eq_some_iff]

/-- The first line of a file is cut at its first space. -/
theorem begin_spec {start rest : Text} (hstart : ' ' ∉ start) :
    DiffParserState.begin {} ('a' :: '/' :: (start ++ ' ' :: rest)) =
      { oldPath := start, newPath := (stripPrefix ['b', '/'] rest).getD [] } := by
  have hbefore : ∀ c ∈ 'a' :: '/' :: start, (c ≠ ' ' : Bool) = true := by
    intro c hc
    rw [decide_eq_true_eq]
    rintro rfl
    simp [hstart] at hc
  have hline : 'a' :: '/' :: (start ++ ' ' :: rest) = ('a' :: '/' :: start) ++ ' ' :: rest := rfl
  rw [hline, DiffParserState.begin, takeWhile_append_of_pos hbefore,
    dropWhile_append_of_pos hbefore, if_pos (by simp)]
  simp [stripPrefix]

theorem withoutReturn_title : withoutReturn file.title =
    'a' :: '/' :: (file.oldPath ++ ' ' :: 'b' :: '/' :: withoutReturn file.newPath) := by
  have h := withoutReturn_append ('a' :: '/' :: (file.oldPath ++ [' ', 'b'])) '/' file.newPath
  rw [withoutReturn_cons (by decide)] at h
  simpa [FileDiff.title] using h

/-- Which paths are read as they were printed. -/
theorem paths_eq_iff :
    (orElse file.first.oldPath file.oldPath = file.oldPath ∧
        orElse file.first.newPath file.newPath = file.newPath) ↔
      (' ' ∉ file.oldPath ∨ ∃ rest, file.oldPath = ' ' :: rest ∧
        stripPrefix ['b', '/'] rest = none ∧ Ends file.oldPath) ∧ Ends file.newPath := by
  rw [FileDiff.first, withoutReturn_title, ← (withoutReturn_eq_self : _ ↔ Ends file.newPath)]
  by_cases hspace : ' ' ∈ file.oldPath
  · obtain ⟨start, rest, hold, hstart⟩ := eq_append_cons_of_mem hspace
    have hne : start ≠ file.oldPath := fun heq => hstart (heq ▸ hspace)
    rw [hold, append_assoc, cons_append, begin_spec hstart, ← hold]
    cases start with
    | cons c start =>
      refine iff_of_false (fun h => hne h.1) ?_
      rintro ⟨hno | ⟨rest', heq, -⟩, -⟩
      · exact hno hspace
      · rw [hold, cons_append, cons.injEq] at heq
        exact hstart (heq.1 ▸ mem_cons_self)
    | nil =>
      have hiff : (∃ rest', file.oldPath = ' ' :: rest' ∧ stripPrefix ['b', '/'] rest' = none ∧
          Ends file.oldPath) ↔ stripPrefix ['b', '/'] rest = none ∧ Ends file.oldPath := by
        rw [hold]
        simp
      rw [hiff, or_iff_right (not_not_intro hspace), orElse, if_pos rfl, withoutReturn_eq_self]
      cases hrest : stripPrefix ['b', '/'] rest with
      | none =>
        have hnone : stripPrefix ['b', '/']
            (rest ++ ' ' :: 'b' :: '/' :: withoutReturn file.newPath) = none := by
          rcases rest with - | ⟨c, - | ⟨d, rest⟩⟩
          · rfl
          · simp [stripPrefix]
          · simpa [stripPrefix] using hrest
        rw [hnone, getD_none, orElse, if_pos rfl]
        simp
      | some name =>
        rw [eq_of_stripPrefix hrest, append_assoc, stripPrefix_append, getD_some, orElse,
          if_neg (by simp)]
        refine iff_of_false (fun h => ?_) fun h => by cases h.1.1
        have hlength := congrArg List.length h.2
        have hcut : file.newPath.length ≤ (withoutReturn file.newPath).length + 1 := by
          rw [withoutReturn]
          split_ifs
          · rw [length_dropLast]
            omega
          · omega
        simp only [length_append, length_cons] at hlength
        omega
  · rw [begin_spec hspace, show stripPrefix ['b', '/'] ('b' :: '/' :: _) = some _ from rfl,
      getD_some, orElse, orElse]
    have hold : (if file.oldPath = [] then withoutReturn file.oldPath else file.oldPath) =
        file.oldPath := by
      split_ifs with hnil
      · rw [hnil]
        rfl
      · rfl
    rw [hold, ite_id]
    simp [hspace]

/-- A file is read as it was printed exactly when it is plain. -/
theorem FileDiff.flushFile_state_eq_iff {file : FileDiff} (h : file.WellFormed) :
    file.state.flushFile.2 = [file] ↔ file.Plain := by
  obtain ⟨o, n, hstate, hkept⟩ := file.state_spec h
  have hhunks : file.hunks.map readHunk = file.hunks ↔
      ∀ hunk ∈ file.hunks, Ends hunk.header ∧ ∀ line ∈ hunk.lines, line.Plain := by
    rw [← filterMap_eq_map', filterMap_eq_self_iff]
    simp only [some.injEq, readHunk_eq_iff]
  have hread : (∀ hunk ∈ file.hunks, Ends hunk.header ∧ ∀ line ∈ hunk.lines, line.Plain) →
      ∀ hunk ∈ file.hunks, ∀ line ∈ hunk.lines, readLine line ≠ none := by
    intro hplain hunk hhunk line hline hnone
    cases hnone.symm.trans (readLine_eq_some_iff.2 ((hplain hunk hhunk).2 line hline))
  have hflush : file.state.flushFile.2 =
      if o ≠ [] ∨ n ≠ [] ∨ file.hunks.map readHunk ≠ [] then
        [⟨o, n, file.hunks.map readHunk⟩] else [] := by
    rw [DiffParserState.flushFile, hstate]
    dsimp only
    split_ifs <;> rfl
  rw [hflush]
  constructor
  · intro heq
    split_ifs at heq with hsome
    have hfile : FileDiff.mk o n (file.hunks.map readHunk) = file := singleton_inj.1 heq
    have ho : o = file.oldPath := congrArg FileDiff.oldPath hfile
    have hn : n = file.newPath := congrArg FileDiff.newPath hfile
    have hmap : file.hunks.map readHunk = file.hunks := congrArg FileDiff.hunks hfile
    obtain ⟨hold, hnew⟩ := hkept (hread (hhunks.1 hmap))
    rw [ho, hn, hmap] at hsome
    obtain ⟨hpath, hends⟩ :=
      (paths_eq_iff file).1 ⟨hold.symm.trans ho, hnew.symm.trans hn⟩
    exact ⟨hpath, hends, hsome, hhunks.1 hmap⟩
  · intro hplain
    obtain ⟨hold, hnew⟩ := hkept (hread hplain.hunks)
    obtain ⟨ho, hn⟩ := (paths_eq_iff file).2 ⟨hplain.oldPath, hplain.newPath⟩
    rw [hold, hnew, ho, hn, hhunks.2 hplain.hunks, if_pos hplain.some]

/-- A printed diff is read as it was printed exactly when all its files are plain. -/
theorem parseDiff_print_eq_iff {files : List FileDiff} (h : ∀ file ∈ files, file.WellFormed) :
    parseDiff (print files) = files ↔ ∀ file ∈ files, file.Plain := by
  have hone : (files.flatMap fun file => file.state.flushFile.2) =
      files.flatMap fun file => (file.state.flushFile.2.head?).toList := by
    refine flatMap_congr fun file hfile => ?_
    have hlength := (file.flushFile_state (h file hfile)).2
    match file.state.flushFile.2, hlength with
    | [], _ | [_], _ => rfl
  rw [parseDiff_print h, hone, ← filterMap_eq_flatMap_toList, filterMap_eq_self_iff]
  refine forall₂_congr fun file hfile => ?_
  rw [← file.flushFile_state_eq_iff (h file hfile)]
  have hlength := (file.flushFile_state (h file hfile)).2
  match file.state.flushFile.2, hlength with
  | [], _ | [_], _ => simp

namespace Sample

/-- Two files, with lines of every kind, an empty line also. -/
def twoFiles : List FileDiff :=
  [⟨['f'], ['f'],
      [⟨['@', '@', ' ', '1'], [⟨.context, ['a']⟩, ⟨.deletion, ['b']⟩, ⟨.addition, ['c']⟩,
          ⟨.context, []⟩]⟩,
        ⟨['@', '@'], [⟨.addition, ['d']⟩]⟩]⟩,
    ⟨['g'], ['h'], [⟨['@', '@'], [⟨.deletion, []⟩]⟩]⟩]

/-- A file with a removed line. -/
def removing (content : Text) : FileDiff :=
  ⟨['f'], ['f'], [⟨['@', '@'], [⟨.deletion, content⟩]⟩]⟩

theorem wellFormed_removing {content : Text} (h : '\n' ∉ content) :
    (removing content).WellFormed := by
  refine ⟨?_, by simp [removing, stripPrefix]⟩
  simp [removing, FileDiff.printed, FileDiff.title, FileDiff.body, DiffHunk.printed, diffGit,
    DiffLineKind.sign, h]

end Sample

theorem parseDiff_twoFiles : parseDiff (print Sample.twoFiles) = Sample.twoFiles := by
  refine (parseDiff_print_eq_iff ?_).2 ?_
  · simp only [Sample.twoFiles, forall_mem_cons]
    exact ⟨⟨by decide, by decide⟩, ⟨by decide, by decide⟩, by simp⟩
  · simp only [Sample.twoFiles, forall_mem_cons]
    refine ⟨⟨.inl (by decide), by decide, .inl (by decide), ?_⟩,
      ⟨.inl (by decide), by decide, .inl (by decide), ?_⟩, by simp⟩ <;>
      simp [DiffLine.Plain, Ends, stripPrefix]

/-- A removed comment is lost. -/
theorem parseDiff_removedComment :
    (Sample.removing ['-', '-', ' ', 'x']).WellFormed ∧
      parseDiff (print [Sample.removing ['-', '-', ' ', 'x']]) ≠
        [Sample.removing ['-', '-', ' ', 'x']] :=
  ⟨Sample.wellFormed_removing (by decide), by decide⟩

end Choreo.DiffParse
