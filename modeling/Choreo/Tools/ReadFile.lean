import Choreo.Library.Folds
import Choreo.Library.Utf8Strict
import Choreo.Text
import Choreo.Tools.TextStream

/-!
# Reading files for the model

`read_file` and `read_file_range` show the lines of a text file, within the budget of a tool's
output (`choreo-daemon/src/tools/read_file.rs`, `read_file_range.rs` and `text_stream.rs`). A line
is shown with its unsafe characters escaped; a file whose head is not text is refused, and so is a
line that is to be shown and is not text.

The file comes as a `Reader`; what opening it failed with, if it did, and the displayed form of its
path are arguments.
-/

namespace Choreo

open List

section ReadFile

variable (unicode : FormatCategory)

/-! ### Line content -/

/-- A character that can spoof a text: a line or paragraph separator, or a format character. -/
def isUnsafeUnicode (c : Char) : Bool :=
  c == '\u2028' || c == '\u2029' || isNonJoinerFormatChar unicode c

/-- Whether a text has only printable ASCII characters, or also tabs. -/
def isPlainAscii (text : Text) (keepTabs : Bool) : Bool :=
  (Utf8.encode text).all fun b => (b == 0x09 && keepTabs) || (0x20 ≤ b.toNat && b.toNat ≤ 0x7E)

/-- Whether a character is kept as it is. -/
def sanitizeKeeps (c : Char) (keepTabs : Bool) : Bool :=
  if c.toNat < 0x80 then (c == '\t' && keepTabs) || (0x20 ≤ c.toNat && c.toNat ≤ 0x7E)
  else !(c.toNat < 0xA0) && !isUnsafeUnicode unicode c

/-- Escapes control characters, separators and format characters. -/
def sanitizeText (text : Text) (keepTabs : Bool) : Text :=
  if isPlainAscii text keepTabs then text
  else text.flatMap fun c => if sanitizeKeeps unicode c keepTabs then [c] else escapeDefault c

/-- Escapes the content of a line. -/
def sanitizeContent (content : Text) : Text := sanitizeText unicode content true

/-! ### Errors -/

variable (path : Text)

def nulError (offset : ℕ) : Text :=
  "'".toList ++ path ++ "' appears to be a binary file (NUL byte at offset ".toList ++
    Nat.toDigits 10 offset ++ ")".toList

/-- The error of a file whose head has a NUL byte. -/
def binaryError (offset : ℕ) : Text :=
  nulError path offset ++ "; read_file/read_file_range are for UTF-8 text files".toList

def invalidError (offset : ℕ) : Text :=
  "'".toList ++ path ++ "' is not valid UTF-8 text (invalid byte sequence at offset ".toList ++
    Nat.toDigits 10 offset ++ ")".toList

/-! ### Opening -/

/-- Opens a file for reading, unless its first piece has a NUL byte or an ill-formed part other than
a character that is cut at the end of the piece. -/
def openTextReader (path : Text) (file : Except Text Reader) : Except Text Reader := do
  let reader ← file
  match reader.fillBuf.findIdx? (· == 0) with
  | some pos => .error (binaryError path pos)
  | none =>
    match Utf8.fromUtf8 reader.fillBuf with
    | .ok _ => .ok reader
    | .error e => if e.incomplete then .ok reader else .error (invalidError path e.validUpTo)

/-! ### Lines -/

/-- A text without a character at its end, if it is there. -/
def stripSuffix (c : Char) (text : Text) : Text :=
  if text.getLast? = some c then text.dropLast else text

/-- The marker of a line over the cap. -/
def lineSuffix : Text := "\n...[line truncated: exceeds 64 KiB]".toList

variable (line : StreamedLine)

/-- A line as text: well-formed bytes, or what is before a character that the cap has cut. -/
def lineText (path : Text) : Except Text Text :=
  match Utf8.fromUtf8 line.content with
  | .ok text => .ok text
  | .error e =>
    if !line.complete && e.incomplete then
      .ok ((Utf8.fromUtf8 (line.content.take e.validUpTo)).toOption.getD [])
    else .error (invalidError path (line.startOffset + e.validUpTo))

/-- A line as it is shown, with its number or without. -/
def renderStreamedLine (path : Text) (numbered : Bool) : Except Text Text :=
  match line.content.findIdx? (· == 0) with
  | some pos => .error (nulError path (line.startOffset + pos))
  | none => do
    let lineStr ← lineText line path
    let display := sanitizeContent unicode (stripSuffix '\r' (stripSuffix '\n' lineStr))
    let displayLine :=
      if numbered then Nat.toDigits 10 line.lineNumber ++ " | ".toList ++ display else display
    .ok (if line.complete then displayLine else displayLine ++ lineSuffix)

/-! ### The budget -/

/-- The bytes that may be shown, those that are, and whether a line did not fit. -/
structure OutputBudget where
  maxBytes : ℕ
  shownBytes : ℕ := 0
  truncated : Bool := false
deriving DecidableEq, Repr

/-- Appends a line and a newline, if they fit. -/
def OutputBudget.pushLine (budget : OutputBudget) (out line : Text) : Bool × OutputBudget × Text :=
  let displayLen := Utf8.size line + 1
  if budget.truncated || budget.maxBytes < budget.shownBytes + displayLen then
    (false, { budget with truncated := true }, out)
  else (true, { budget with shownBytes := budget.shownBytes + displayLen }, out ++ line ++ ['\n'])

/-! ### The tools -/

/-- What a tool has collected: the budget, the output and the number of lines in it. -/
structure Collecting where
  budget : OutputBudget := { maxBytes := maxToolOutputBytes }
  out : Text := []
  linesShown : ℕ := 0

def readFileLine (path : Text) (c : Collecting) (line : StreamedLine) : Except Text Collecting :=
  if c.budget.truncated then .ok c
  else do
    let displayLine ← renderStreamedLine unicode line path false
    let (_, budget, out) := c.budget.pushLine c.out displayLine
    .ok { c with budget := budget, out := out }

def readFileReport (shownBytes totalBytes totalLines : ℕ) : Text :=
  "\n...[truncated: showing ".toList ++ Nat.toDigits 10 (shownBytes + 1) ++ " of ".toList ++
    Nat.toDigits 10 totalBytes ++ " bytes; file has ".toList ++ Nat.toDigits 10 totalLines ++
    " line(s) — use read_file_range for the rest]".toList

variable (argPath path : Text)

/-- Reads a file from its beginning. -/
def executeReadFile (file : Except Text Reader) : Except Text Text :=
  if (trim (String.ofList argPath)) = "" then
    .error "missing required string argument: path".toList
  else do
    let reader ← openTextReader path file
    let (lines, stream) := TextStream.collect { reader := reader }
    let c ← lines.foldlM (readFileLine unicode path) {}
    .ok (if c.budget.truncated then
      c.out ++ readFileReport c.budget.shownBytes stream.totalBytes stream.linesRead
    else c.out)

/-- The most lines that `read_file_range` shows. -/
def maxReadFileRangeLines : ℕ := 500

def readFileRangeLine (path : Text) (start max : ℕ) (c : Collecting) (line : StreamedLine) :
    Except Text Collecting :=
  let inWindow := start ≤ line.lineNumber && c.linesShown < max
  if !inWindow || c.budget.truncated then .ok c
  else do
    let displayLine ← renderStreamedLine unicode line path true
    let (fits, budget, out) := c.budget.pushLine c.out displayLine
    .ok { budget := budget, out := out, linesShown := c.linesShown + if fits then 1 else 0 }

def readFileRangeHeader (path : Text) (start max totalLines linesShown : ℕ) (truncated : Bool) :
    Text :=
  if truncated && linesShown = 0 then
    "path: ".toList ++ path ++ "\nlines: none of ".toList ++ Nat.toDigits 10 totalLines ++
      " (first line exceeds output budget)\n\n".toList
  else
    let shownEnd := if truncated then start + linesShown - 1 else min totalLines (start + (max - 1))
    "path: ".toList ++ path ++ "\nlines: ".toList ++ Nat.toDigits 10 start ++ "-".toList ++
      Nat.toDigits 10 shownEnd ++ " of ".toList ++ Nat.toDigits 10 totalLines ++ "\n\n".toList

def readFileRangeReport (shownBytes headerLen totalBytes linesShown totalLines : ℕ) : Text :=
  "\n...[truncated: showing ".toList ++ Nat.toDigits 10 (shownBytes + headerLen + 1) ++
    " of ".toList ++ Nat.toDigits 10 totalBytes ++ " bytes (".toList ++
    Nat.toDigits 10 linesShown ++ " of ".toList ++ Nat.toDigits 10 totalLines ++
    " lines) — use a smaller range]".toList

def executeReadFileRange (start max : ℕ) (file : Except Text Reader) :
    Except Text Text :=
  if (trim (String.ofList argPath)) = "" then
    .error "missing required string argument: path".toList
  else if start = 0 then .error "start_line must be >= 1".toList
  else if max = 0 then .error "max_lines must be >= 1".toList
  else if maxReadFileRangeLines < max then .error "max_lines must be <= 500".toList
  else do
    let reader ← openTextReader path file
    let (lines, stream) := TextStream.collect { reader := reader }
    let c ← lines.foldlM (readFileRangeLine unicode path start max) {}
    if stream.linesRead < start then
      .error ("start_line ".toList ++ Nat.toDigits 10 start ++
        " is past end of file; file has ".toList ++ Nat.toDigits 10 stream.linesRead ++
        " lines".toList)
    else
      let header := readFileRangeHeader path start max stream.linesRead c.linesShown
        c.budget.truncated
      .ok (header ++ c.out ++ if c.budget.truncated then
        readFileRangeReport c.budget.shownBytes (Utf8.size header) stream.totalBytes c.linesShown
          stream.linesRead
      else [])

/-! ### The lines that are shown -/

/-- The lines that are shown of some lines, on a number of bytes, and whether there are more: lines
are rendered and shown until one of them does not fit. -/
def shownLines (path : Text) (numbered : Bool) : ℕ → List StreamedLine →
    Except Text (List Text × Bool)
  | _, [] => .ok ([], false)
  | room, line :: lines => do
    let display ← renderStreamedLine unicode line path numbered
    if Utf8.size display + 1 ≤ room then
      let rest ← shownLines path numbered (room - (Utf8.size display + 1)) lines
      .ok (display :: rest.1, rest.2)
    else .ok ([], true)

/-- Lines as they stand in the output. -/
def body (texts : List Text) : Text := texts.flatMap fun text => text ++ ['\n']

def fileText (path : Text) (content : Bytes) : Except Text Text := do
  let lines := streamedLines 0 0 (fileLines content)
  let shown ← shownLines unicode path false maxToolOutputBytes lines
  .ok (body shown.1 ++ if shown.2 then
    readFileReport (Utf8.size (body shown.1)) content.length lines.length
  else [])

/-- The lines of a range: those from a number on, no more than a number of them. -/
def windowLines (start max : ℕ) (content : Bytes) : List StreamedLine :=
  ((streamedLines 0 0 (fileLines content)).drop (start - 1)).take max

def rangeText (path : Text) (start max : ℕ) (content : Bytes) : Except Text Text := do
  let shown ← shownLines unicode path true maxToolOutputBytes (windowLines start max content)
  let totalLines := (fileLines content).length
  if totalLines < start then
    .error ("start_line ".toList ++ Nat.toDigits 10 start ++
      " is past end of file; file has ".toList ++ Nat.toDigits 10 totalLines ++ " lines".toList)
  else
    let header := readFileRangeHeader path start max totalLines shown.1.length shown.2
    .ok (header ++ body shown.1 ++ if shown.2 then
      readFileRangeReport (Utf8.size (body shown.1)) (Utf8.size header) content.length
        shown.1.length totalLines
    else [])

theorem size_body_cons (text : Text) (texts : List Text) :
    Utf8.size (body (text :: texts)) = Utf8.size text + 1 + Utf8.size (body texts) := by
  rw [body, flatMap_cons, Utf8.size_append, Utf8.size_append, body]
  rfl

/-! ### Collecting -/

def Collecting.extend (c : Collecting) (shown : List Text × Bool) (counted : Bool) :
    Collecting where
  budget :=
    { c.budget with
      shownBytes := c.budget.shownBytes + Utf8.size (body shown.1)
      truncated := shown.2 }
  out := c.out ++ body shown.1
  linesShown := c.linesShown + if counted then shown.1.length else 0

theorem Collecting.extend_extend (c : Collecting) (display : Text) (rest : List Text × Bool)
    (counted : Bool) :
    (c.extend ([display], false) counted).extend rest counted =
      c.extend (display :: rest.1, rest.2) counted := by
  rcases counted with - | - <;>
    simp [Collecting.extend, body, Nat.add_assoc, Nat.add_comm 1]

variable {c : Collecting}

theorem Collecting.extend_nil (h : c.budget.truncated = false) (counted : Bool) :
    c.extend ([], false) counted = c := by
  rcases c with ⟨⟨maxBytes, shownBytes, truncated⟩, out, linesShown⟩
  obtain rfl : truncated = false := h
  rcases counted with - | - <;> simp [Collecting.extend, body]

/-- A line that fits is appended, and the first that does not ends the output. -/
theorem pushLine_eq (h : c.budget.truncated = false) (display : Text) :
    c.budget.pushLine c.out display =
      if Utf8.size display + 1 ≤ c.budget.maxBytes - c.budget.shownBytes then
        (true, (c.extend ([display], false) false).budget, c.out ++ display ++ ['\n'])
      else (false, (c.extend ([], true) false).budget, c.out) := by
  have hsize : Utf8.size (body [display]) = Utf8.size display + 1 := by
    rw [size_body_cons]
    rfl
  rw [OutputBudget.pushLine]
  by_cases hfits : Utf8.size display + 1 ≤ c.budget.maxBytes - c.budget.shownBytes
  · rw [if_pos hfits, if_neg]
    · simp [Collecting.extend, hsize, h]
    · simp [h]
      omega
  · rw [if_neg hfits, if_pos]
    · simp [Collecting.extend, body]
    · simp [h]
      omega

/-- A line is collected: it is shown if it fits, and ends the output if it does not. -/
def collectLine (path : Text) (numbered : Bool) (c : Collecting) (line : StreamedLine) :
    Except Text Collecting :=
  if c.budget.truncated then .ok c
  else (renderStreamedLine unicode line path numbered).map fun display =>
    if Utf8.size display + 1 ≤ c.budget.maxBytes - c.budget.shownBytes then
      c.extend ([display], false) numbered
    else c.extend ([], true) numbered

theorem readFileLine_eq (path : Text) (c : Collecting) (line : StreamedLine) :
    readFileLine unicode path c line = collectLine unicode path false c line := by
  rw [readFileLine, collectLine]
  by_cases h : c.budget.truncated = true
  · rw [if_pos h, if_pos h]
  · rw [if_neg h, if_neg h]
    rcases renderStreamedLine unicode line path false with error | display
    · rfl
    · have hpush := pushLine_eq (by simpa using h) display
      by_cases hfits : Utf8.size display + 1 ≤ c.budget.maxBytes - c.budget.shownBytes
      · rw [if_pos hfits] at hpush
        simp [Except.map, bind, Except.bind, hpush, hfits, Collecting.extend, body]
      · rw [if_neg hfits] at hpush
        simp [Except.map, bind, Except.bind, hpush, hfits, Collecting.extend, body]

theorem readFileRangeLine_eq (path : Text) (start max : ℕ) (c : Collecting) (line : StreamedLine) :
    readFileRangeLine unicode path start max c line =
      if start ≤ line.lineNumber ∧ c.linesShown < max then collectLine unicode path true c line
      else .ok c := by
  rw [readFileRangeLine, collectLine]
  by_cases hwindow : start ≤ line.lineNumber ∧ c.linesShown < max
  · rw [if_pos hwindow]
    by_cases h : c.budget.truncated = true
    · simp [h]
    · have hfalse : c.budget.truncated = false := by simpa using h
      simp only [hwindow, hfalse, decide_true, Bool.and_self, Bool.not_true, Bool.or_self,
        Bool.false_eq_true, if_false]
      rcases renderStreamedLine unicode line path true with error | display
      · rfl
      · have hpush := pushLine_eq hfalse display
        by_cases hfits : Utf8.size display + 1 ≤ c.budget.maxBytes - c.budget.shownBytes
        · rw [if_pos hfits] at hpush
          simp [Except.map, bind, Except.bind, hpush, hfits, Collecting.extend, body]
        · rw [if_neg hfits] at hpush
          simp [Except.map, bind, Except.bind, hpush, hfits, Collecting.extend, body]
  · rw [if_neg hwindow, if_pos]
    simp
    grind

theorem collectLine_truncated (path : Text) (numbered : Bool)
    (h : c.budget.truncated = true) (lines : List StreamedLine) :
    lines.foldlM (collectLine unicode path numbered) c = .ok c := by
  induction lines with
  | nil => rfl
  | cons line lines ih =>
    rw [foldlM_cons, collectLine, if_pos h]
    exact ih

theorem foldlM_collectLine (path : Text) (numbered : Bool)
    (h : c.budget.truncated = false) (lines : List StreamedLine) :
    lines.foldlM (collectLine unicode path numbered) c =
      (shownLines unicode path numbered (c.budget.maxBytes - c.budget.shownBytes) lines).map
        (c.extend · numbered) := by
  induction lines generalizing c with
  | nil =>
    rw [shownLines, Except.map, Collecting.extend_nil h]
    rfl
  | cons line lines ih =>
    rw [foldlM_cons, collectLine, h, shownLines]
    rcases renderStreamedLine unicode line path numbered with error | display
    · rfl
    · by_cases hfits : Utf8.size display + 1 ≤ c.budget.maxBytes - c.budget.shownBytes
      · have hroom : (c.extend ([display], false) numbered).budget.maxBytes -
            (c.extend ([display], false) numbered).budget.shownBytes =
              c.budget.maxBytes - c.budget.shownBytes - (Utf8.size display + 1) := by
          simp only [Collecting.extend, size_body_cons]
          exact (Nat.sub_sub _ _ _).symm
        have hnext := ih (c := c.extend ([display], false) numbered) rfl
        rw [hroom] at hnext
        simp only [Except.map, bind, Except.bind, Bool.false_eq_true, if_false, if_pos hfits]
        rw [hnext]
        rcases shownLines unicode path numbered
            (c.budget.maxBytes - c.budget.shownBytes - (Utf8.size display + 1)) lines with
          error | rest
        · rfl
        · simp only [Except.map, Collecting.extend_extend]
      · simp only [Except.map, bind, Except.bind, Bool.false_eq_true, if_false, if_neg hfits]
        exact collectLine_truncated unicode path numbered rfl lines

/-- Lines outside the range, and all lines after one that did not fit, are only counted. -/
theorem foldlM_skip (path : Text) (start max : ℕ) {lines : List StreamedLine}
    (h : ∀ line ∈ lines, c.budget.truncated = true ∨
      ¬ (start ≤ line.lineNumber ∧ c.linesShown < max)) :
    lines.foldlM (readFileRangeLine unicode path start max) c = .ok c := by
  induction lines with
  | nil => rfl
  | cons line lines ih =>
    have hline : readFileRangeLine unicode path start max c line = .ok c := by
      rw [readFileRangeLine_eq]
      split_ifs with hwindow
      · rw [collectLine, if_pos ((h line mem_cons_self).resolve_right (not_not_intro hwindow))]
      · rfl
    rw [foldlM_cons, hline]
    exact ih fun other hother => h other (mem_cons_of_mem _ hother)

theorem foldlM_window (path : Text) (start max : ℕ) {lines : List StreamedLine}
    (hcount : c.linesShown ≤ max) (hopen : c.budget.truncated = false)
    (h : ∀ line ∈ lines, start ≤ line.lineNumber) :
    lines.foldlM (readFileRangeLine unicode path start max) c =
      (lines.take (max - c.linesShown)).foldlM (collectLine unicode path true) c := by
  induction lines generalizing c with
  | nil =>
    rw [take_nil]
    rfl
  | cons line lines ih =>
    by_cases hfull : c.linesShown = max
    · rw [hfull, Nat.sub_self, take_zero]
      exact foldlM_skip unicode path start max fun other _ => .inr fun hwindow => by omega
    · have hlt : c.linesShown < max := by omega
      have htake : max - c.linesShown = (max - (c.linesShown + 1)) + 1 := by omega
      rw [htake, take_succ_cons, foldlM_cons, foldlM_cons, readFileRangeLine_eq,
        if_pos ⟨h line mem_cons_self, hlt⟩, collectLine, hopen]
      simp only [Bool.false_eq_true, if_false]
      rcases renderStreamedLine unicode line path true with error | display
      · rfl
      · by_cases hfits : Utf8.size display + 1 ≤ c.budget.maxBytes - c.budget.shownBytes
        · have hnext := ih (c := c.extend ([display], false) true) hlt rfl
            fun other hother => h other (mem_cons_of_mem _ hother)
          simp only [Except.map, bind, Except.bind, if_pos hfits]
          exact hnext
        · simp only [Except.map, bind, Except.bind, if_neg hfits]
          rw [foldlM_skip unicode path start max fun other _ => .inl rfl,
            collectLine_truncated unicode path true rfl]

/-! ### The numbers of the lines -/

theorem lineNumber_of_mem_take (number offset n : ℕ) (lines : List Bytes) :
    ∀ line ∈ (streamedLines number offset lines).take n, line.lineNumber ≤ number + n := by
  induction lines generalizing number offset n with
  | nil => simp [streamedLines]
  | cons first lines ih =>
    rcases n with - | n
    · simp
    · rw [streamedLines, take_succ_cons]
      refine forall_mem_cons.2 ⟨?_, fun line hline => ?_⟩
      · have hfirst : (TextStream.lineOf (number + 1) offset first).lineNumber = number + 1 := rfl
        omega
      · have hlater := ih (number + 1) (offset + first.length) n line hline
        omega

theorem lineNumber_of_mem_drop (number offset n : ℕ) (lines : List Bytes) :
    ∀ line ∈ (streamedLines number offset lines).drop n, number + n < line.lineNumber := by
  induction lines generalizing number offset n with
  | nil => simp [streamedLines]
  | cons first lines ih =>
    rcases n with - | n
    · rw [streamedLines, drop_zero]
      refine forall_mem_cons.2 ⟨?_, fun line hline => ?_⟩
      · have hfirst : (TextStream.lineOf (number + 1) offset first).lineNumber = number + 1 := rfl
        omega
      · have hlater := ih (number + 1) (offset + first.length) 0 line hline
        omega
    · rw [streamedLines, drop_succ_cons]
      intro line hline
      have hlater := ih (number + 1) (offset + first.length) n line hline
      omega

theorem length_streamedLines (number offset : ℕ) (lines : List Bytes) :
    (streamedLines number offset lines).length = lines.length := by
  induction lines generalizing number offset with
  | nil => rfl
  | cons first lines ih => rw [streamedLines, length_cons, length_cons, ih]

theorem foldlM_readFileRangeLine (path : Text) {start : ℕ} (hstart : 0 < start) (max : ℕ)
    (content : Bytes) :
    (streamedLines 0 0 (fileLines content)).foldlM (readFileRangeLine unicode path start max) {} =
      (shownLines unicode path true maxToolOutputBytes (windowLines start max content)).map
        (Collecting.extend {} · true) := by
  rw [← take_append_drop (start - 1) (streamedLines 0 0 (fileLines content)),
    foldlM_append, foldlM_skip unicode path start max fun line hline => .inr fun hwindow => ?_]
  · refine Eq.trans (foldlM_window unicode path start max (c := {}) (Nat.zero_le max) rfl
      fun line hline => ?_) (foldlM_collectLine unicode path true rfl _)
    · have hnumber := lineNumber_of_mem_drop 0 0 (start - 1) (fileLines content) line hline
      omega
  · have hnumber := lineNumber_of_mem_take 0 0 (start - 1) (fileLines content) line hline
    omega

/-! ### What the tools return -/

theorem executeReadFile_eq (file : Except Text Reader) :
    executeReadFile unicode argPath path file =
      if trim (String.ofList argPath) = "" then
        .error "missing required string argument: path".toList
      else (openTextReader path file).bind fun reader => fileText unicode path reader.content := by
  rw [executeReadFile]
  split_ifs
  · rfl
  · refine bind_congr fun reader => ?_
    obtain ⟨hlines, hcount, hbytes⟩ := TextStream.collect_eq { reader := reader } rfl
    have hstep : readFileLine unicode path = collectLine unicode path false := by
      funext c line
      exact readFileLine_eq unicode path c line
    have hfold := foldlM_collectLine unicode path false (c := {}) rfl
      (streamedLines 0 0 (fileLines reader.content))
    rw [fileText, length_streamedLines]
    dsimp only at hlines hcount hbytes ⊢
    rw [hlines, hcount, hbytes, hstep, hfold]
    have hroom : ({} : Collecting).budget.maxBytes - ({} : Collecting).budget.shownBytes =
        maxToolOutputBytes := rfl
    rw [hroom]
    rcases shownLines unicode path false maxToolOutputBytes
        (streamedLines 0 0 (fileLines reader.content)) with error | ⟨texts, more⟩
    · rfl
    · simp only [Except.map, bind, Except.bind, Collecting.extend, nil_append, Nat.zero_add]
      rcases more with - | - <;> simp

theorem executeReadFileRange_eq (start max : ℕ)
    (file : Except Text Reader) :
    executeReadFileRange unicode argPath path start max file =
      if trim (String.ofList argPath) = "" then
        .error "missing required string argument: path".toList
      else if start = 0 then .error "start_line must be >= 1".toList
      else if max = 0 then .error "max_lines must be >= 1".toList
      else if maxReadFileRangeLines < max then .error "max_lines must be <= 500".toList
      else (openTextReader path file).bind fun reader =>
        rangeText unicode path start max reader.content := by
  rw [executeReadFileRange]
  split_ifs with hpath hstart hmax hmany
  all_goals try rfl
  refine bind_congr fun reader => ?_
  obtain ⟨hlines, hcount, hbytes⟩ := TextStream.collect_eq { reader := reader } rfl
  have hfold := foldlM_readFileRangeLine unicode path (Nat.pos_of_ne_zero hstart) max reader.content
  rw [rangeText]
  dsimp only at hlines hcount hbytes ⊢
  rw [Nat.zero_add] at hcount hbytes
  rw [hlines, hcount, hbytes, hfold]
  rcases shownLines unicode path true maxToolOutputBytes (windowLines start max reader.content) with
    error | ⟨texts, more⟩
  · rfl
  · simp only [Except.map, bind, Except.bind, Collecting.extend, nil_append, Nat.zero_add,
      if_true]

/-! ### When the tools fail -/

/-- A line that is not text: it has a NUL byte or an ill-formed part, other than a character that
the cap has cut. -/
def IsBad : Prop :=
  0 ∈ line.content ∨ ∃ e, Utf8.fromUtf8 line.content = .error e ∧
    ¬ (line.complete = false ∧ e.incomplete = true)

theorem lineText_error_iff (path : Text) :
    (∃ error, lineText line path = .error error) ↔
      ∃ e, Utf8.fromUtf8 line.content = .error e ∧
        ¬ (line.complete = false ∧ e.incomplete = true) := by
  rw [lineText]
  rcases Utf8.fromUtf8 line.content with e | text
  · by_cases hcut : line.complete = false ∧ e.incomplete = true
    · refine iff_of_false ?_ ?_
      · rintro ⟨_, h⟩
        simp [hcut] at h
      · rintro ⟨e', h, hne⟩
        obtain rfl := Except.error.inj h
        exact hne hcut
    · refine iff_of_true ⟨invalidError path (line.startOffset + e.validUpTo), ?_⟩ ⟨e, rfl, hcut⟩
      have hkept : (!line.complete && e.incomplete) = false := by simpa using hcut
      simp only [hkept, Bool.false_eq_true, if_false]
  · exact iff_of_false (by rintro ⟨_, h⟩; cases h) (by rintro ⟨_, h, -⟩; cases h)

/-- A line is refused exactly if it is not text. -/
theorem renderStreamedLine_error_iff (path : Text) (numbered : Bool) :
    (∃ error, renderStreamedLine unicode line path numbered = .error error) ↔ IsBad line := by
  rw [renderStreamedLine, IsBad, ← lineText_error_iff line path]
  rcases hnul : line.content.findIdx? (· == 0) with - | pos
  · have hnone : 0 ∉ line.content := fun hmem => by
      have hfound := List.findIdx?_eq_none_iff.1 hnul 0 hmem
      simp at hfound
    rw [or_iff_right hnone]
    rcases lineText line path with error | text
    · exact iff_of_true ⟨error, rfl⟩ ⟨error, rfl⟩
    · exact iff_of_false (by rintro ⟨_, h⟩; cases h) (by rintro ⟨_, h⟩; cases h)
  · refine iff_of_true ⟨_, rfl⟩ (.inl ?_)
    obtain ⟨hlt, hpos, -⟩ := List.findIdx?_eq_some_iff_getElem.1 hnul
    rw [← eq_of_beq hpos]
    exact getElem_mem hlt

/-- A line as it is shown; if it is not text, with its ill-formed parts replaced. -/
def lineShown (path : Text) (numbered : Bool) : Text :=
  match renderStreamedLine unicode line path numbered with
  | .ok display => display
  | .error _ =>
    (if numbered then Nat.toDigits 10 line.lineNumber ++ " | ".toList else []) ++
      sanitizeContent unicode
        (stripSuffix '\r' (stripSuffix '\n' (Utf8.decodeLossy line.content))) ++
      if line.complete then [] else lineSuffix

/-- The lines that are returned of some lines, on a number of bytes, and the first that does not
fit. -/
def returnedLines (path : Text) (numbered : Bool) :
    ℕ → List StreamedLine → List StreamedLine × Option StreamedLine
  | _, [] => ([], none)
  | room, line :: lines =>
    if Utf8.size (lineShown unicode line path numbered) + 1 ≤ room then
      let rest := returnedLines path numbered
        (room - (Utf8.size (lineShown unicode line path numbered) + 1)) lines
      (line :: rest.1, rest.2)
    else ([], some line)

/-- Showing lines fails exactly if a line that is returned, or the first that does not fit, is not
text; otherwise the returned lines are shown. -/
theorem shownLines_eq_returned (path : Text) (numbered : Bool) (room : ℕ)
    (lines : List StreamedLine) :
    let returned := returnedLines unicode path numbered room lines
    (∃ error, shownLines unicode path numbered room lines = .error error) ∧
        ((∃ line ∈ returned.1, IsBad line) ∨ ∃ line, returned.2 = some line ∧ IsBad line) ∨
      shownLines unicode path numbered room lines =
          .ok (returned.1.map (lineShown unicode · path numbered), returned.2.isSome) ∧
        (∀ line ∈ returned.1, ¬ IsBad line) ∧ ∀ line, returned.2 = some line → ¬ IsBad line := by
  induction lines generalizing room with
  | nil => exact .inr ⟨rfl, by simp [returnedLines]⟩
  | cons first lines ih =>
    have hbad := renderStreamedLine_error_iff unicode first path numbered
    rw [shownLines]
    rcases hrender : renderStreamedLine unicode first path numbered with error | display
    · refine .inl ⟨⟨error, rfl⟩, ?_⟩
      have hfirst := hbad.1 ⟨error, hrender⟩
      by_cases hfits : Utf8.size (lineShown unicode first path numbered) + 1 ≤ room
      · exact .inl ⟨first, by simp [returnedLines, hfits], hfirst⟩
      · exact .inr ⟨first, by simp [returnedLines, hfits], hfirst⟩
    · have hgood : ¬ IsBad first := fun h => by
        obtain ⟨error, herror⟩ := hbad.2 h
        rw [hrender] at herror
        cases herror
      have hshown : lineShown unicode first path numbered = display := by rw [lineShown, hrender]
      by_cases hfits : Utf8.size display + 1 ≤ room
      · have hreturned : returnedLines unicode path numbered room (first :: lines) =
            (first :: (returnedLines unicode path numbered (room - (Utf8.size display + 1)) lines).1,
              (returnedLines unicode path numbered
                (room - (Utf8.size display + 1)) lines).2) := by
          rw [returnedLines, hshown, if_pos hfits]
        simp only [bind, Except.bind, if_pos hfits, hreturned, exists_mem_cons_iff, hgood,
          false_or, forall_mem_cons, not_false_eq_true, true_and, map_cons, hshown]
        rcases ih (room - (Utf8.size display + 1)) with ⟨⟨error, herror⟩, hline⟩ | ⟨hok, hlines⟩
        · exact .inl ⟨⟨error, by rw [herror]⟩, hline⟩
        · exact .inr ⟨by rw [hok], hlines⟩
      · refine .inr ?_
        simp [bind, Except.bind, hfits, returnedLines, hshown, hgood]

/-- A line that is not text is not returned, but makes the tool fail: the lines before it are all
text and leave no room for it. -/
def Overread (path : Text) (numbered : Bool) (lines : List StreamedLine) : Prop :=
  (∀ line ∈ (returnedLines unicode path numbered maxToolOutputBytes lines).1, ¬ IsBad line) ∧
    ∃ line, (returnedLines unicode path numbered maxToolOutputBytes lines).2 = some line ∧
      IsBad line

theorem shownLines_error_iff (path : Text) (numbered : Bool) (lines : List StreamedLine) :
    (∃ error, shownLines unicode path numbered maxToolOutputBytes lines = .error error) ↔
      (∃ line ∈ (returnedLines unicode path numbered maxToolOutputBytes lines).1, IsBad line) ∨
        Overread unicode path numbered lines := by
  rcases shownLines_eq_returned unicode path numbered maxToolOutputBytes lines with
    ⟨herror, hline⟩ | ⟨hok, hlines, hleft⟩
  · refine iff_of_true herror (or_iff_not_imp_left.2 fun hnone => ?_)
    exact ⟨fun line hmem hbad => hnone ⟨line, hmem, hbad⟩, hline.resolve_left hnone⟩
  · refine iff_of_false (by rintro ⟨_, h⟩; rw [hok] at h; cases h) ?_
    rintro (⟨line, hmem, hbad⟩ | ⟨-, line, hsome, hbad⟩)
    · exact hlines line hmem hbad
    · exact hleft line hsome hbad

/-- A head that is refused: it has a NUL byte or an ill-formed part, other than a character that is
cut at its end. -/
def BadHead (reader : Reader) : Prop :=
  0 ∈ reader.fillBuf ∨ ∃ e, Utf8.fromUtf8 reader.fillBuf = .error e ∧ e.incomplete = false

theorem openTextReader_cases (reader : Reader) :
    (∃ error, BadHead reader ∧ openTextReader path (.ok reader) = .error error) ∨
      ¬ BadHead reader ∧ openTextReader path (.ok reader) = .ok reader := by
  simp only [openTextReader, bind, Except.bind]
  rcases hnul : reader.fillBuf.findIdx? (· == 0) with - | pos
  · have hnone : 0 ∉ reader.fillBuf := fun hmem => by
      have hfound := List.findIdx?_eq_none_iff.1 hnul 0 hmem
      simp at hfound
    rcases hutf : Utf8.fromUtf8 reader.fillBuf with e | text
    · rcases hcut : e.incomplete with - | -
      · exact .inl ⟨invalidError path e.validUpTo, .inr ⟨e, hutf, hcut⟩, by simp [hcut]⟩
      · refine .inr ⟨?_, by simp [hcut]⟩
        rintro (hmem | ⟨e', he', hwhole⟩)
        · exact hnone hmem
        · rw [hutf] at he'
          obtain rfl := Except.error.inj he'
          rw [hcut] at hwhole
          cases hwhole
    · refine .inr ⟨?_, rfl⟩
      rintro (hmem | ⟨e', he', -⟩)
      · exact hnone hmem
      · rw [hutf] at he'
        cases he'
  · refine .inl ⟨_, .inl ?_, rfl⟩
    obtain ⟨hlt, hpos, -⟩ := List.findIdx?_eq_some_iff_getElem.1 hnul
    rw [← eq_of_beq hpos]
    exact getElem_mem hlt

theorem renderStreamedLine_numbered (path : Text) :
    renderStreamedLine unicode line path true =
      (renderStreamedLine unicode line path false).map fun display =>
        Nat.toDigits 10 line.lineNumber ++ " | ".toList ++ display := by
  rw [renderStreamedLine, renderStreamedLine]
  rcases line.content.findIdx? (· == 0) with - | pos
  · rcases lineText line path with error | text
    · rfl
    · rcases line.complete with - | - <;> simp [bind, Except.bind, Except.map]
  · rfl

theorem lineShown_numbered (path : Text) :
    lineShown unicode line path true =
      Nat.toDigits 10 line.lineNumber ++ " | ".toList ++ lineShown unicode line path false := by
  rw [lineShown, lineShown, renderStreamedLine_numbered]
  rcases renderStreamedLine unicode line path false with error | display
  · simp [Except.map]
  · rfl

def fileReturned (path : Text) (content : Bytes) : Text :=
  let lines := streamedLines 0 0 (fileLines content)
  let returned := returnedLines unicode path false maxToolOutputBytes lines
  let shown := body (returned.1.map (lineShown unicode · path false))
  shown ++ if returned.2.isSome then
    readFileReport (Utf8.size shown) content.length lines.length
  else []

def rangeReturned (path : Text) (start max : ℕ) (content : Bytes) : Text :=
  let returned := returnedLines unicode path true maxToolOutputBytes (windowLines start max content)
  let shown := body (returned.1.map (lineShown unicode · path true))
  let totalLines := (fileLines content).length
  let header :=
    readFileRangeHeader path start max totalLines returned.1.length returned.2.isSome
  header ++ shown ++ if returned.2.isSome then
    readFileRangeReport (Utf8.size shown) (Utf8.size header) content.length returned.1.length
      totalLines
  else []

theorem fileText_cases (path : Text) (content : Bytes) :
    let lines := streamedLines 0 0 (fileLines content)
    (∃ error, fileText unicode path content = .error error) ∧
        ((∃ line ∈ (returnedLines unicode path false maxToolOutputBytes lines).1, IsBad line) ∨
          Overread unicode path false lines) ∨
      fileText unicode path content = .ok (fileReturned unicode path content) ∧
        ¬ ((∃ line ∈ (returnedLines unicode path false maxToolOutputBytes lines).1, IsBad line) ∨
          Overread unicode path false lines) := by
  intro lines
  rw [← shownLines_error_iff, fileText]
  rcases shownLines_eq_returned unicode path false maxToolOutputBytes lines with
    ⟨⟨error, herror⟩, -⟩ | ⟨hok, -⟩
  · exact .inl ⟨⟨error, by rw [herror]; rfl⟩, error, herror⟩
  · refine .inr ⟨?_, by rintro ⟨_, h⟩; rw [hok] at h; cases h⟩
    rw [hok]
    rfl

theorem rangeText_cases (path : Text) (start max : ℕ) (content : Bytes) :
    let lines := windowLines start max content
    (∃ error, rangeText unicode path start max content = .error error) ∧
        (((∃ line ∈ (returnedLines unicode path true maxToolOutputBytes lines).1, IsBad line) ∨
          Overread unicode path true lines) ∨ (fileLines content).length < start) ∨
      rangeText unicode path start max content = .ok (rangeReturned unicode path start max content) ∧
        ¬ (((∃ line ∈ (returnedLines unicode path true maxToolOutputBytes lines).1, IsBad line) ∨
          Overread unicode path true lines) ∨ (fileLines content).length < start) := by
  intro lines
  rw [← shownLines_error_iff, rangeText]
  rcases shownLines_eq_returned unicode path true maxToolOutputBytes lines with
    ⟨⟨error, herror⟩, -⟩ | ⟨hok, -⟩
  · exact .inl ⟨⟨error, by rw [herror]; rfl⟩, .inl ⟨error, herror⟩⟩
  · have hnone : ¬ ∃ error, shownLines unicode path true maxToolOutputBytes lines =
        .error error := by
      rintro ⟨_, h⟩
      rw [hok] at h
      cases h
    rw [or_iff_right hnone, hok]
    simp only [bind, Except.bind]
    by_cases hpast : (fileLines content).length < start
    · exact .inl ⟨⟨_, if_pos hpast⟩, hpast⟩
    · refine .inr ⟨?_, hpast⟩
      rw [if_neg hpast, rangeReturned, length_map]

/-- No line is read behind the end of the file. -/
theorem not_overread_of_lt {start max : ℕ} {content : Bytes} (path : Text)
    (h : (fileLines content).length < start) :
    ¬ Overread unicode path true (windowLines start max content) := by
  have hnil : windowLines start max content = [] := by
    rw [windowLines, drop_eq_nil_of_le (by rw [length_streamedLines]; omega), take_nil]
  rw [hnil]
  rintro ⟨-, line, hline, -⟩
  cases hline

/-- When `read_file` fails, and what it returns otherwise. -/
theorem executeReadFile_cases (reader : Reader) (argPath path : Text) :
    let lines := streamedLines 0 0 (fileLines reader.content)
    ((∃ error, executeReadFile unicode argPath path (.ok reader) = .error error) ↔
      trim (String.ofList argPath) = "" ∨ BadHead reader ∨
        (∃ line ∈ (returnedLines unicode path false maxToolOutputBytes lines).1, IsBad line) ∨
          Overread unicode path false lines) ∧
      ∀ out, executeReadFile unicode argPath path (.ok reader) = .ok out →
        out = fileReturned unicode path reader.content := by
  intro lines
  rw [executeReadFile_eq]
  by_cases hpath : trim (String.ofList argPath) = ""
  · rw [if_pos hpath]
    exact ⟨iff_of_true ⟨_, rfl⟩ (.inl hpath), fun _ h => by cases h⟩
  · rw [if_neg hpath, or_iff_right hpath]
    rcases openTextReader_cases path reader with ⟨error, hhead, herror⟩ | ⟨hhead, hok⟩
    · rw [herror]
      exact ⟨iff_of_true ⟨error, rfl⟩ (.inl hhead), fun _ h => by cases h⟩
    · rw [hok, or_iff_right hhead]
      change (_ ↔ _) ∧ ∀ out, fileText unicode path reader.content = .ok out → _
      rcases fileText_cases unicode path reader.content with ⟨⟨error, hfail⟩, h⟩ | ⟨htext, h⟩
      · exact ⟨iff_of_true ⟨error, hfail⟩ h, fun out hout => by rw [hfail] at hout; cases hout⟩
      · refine ⟨iff_of_false ?_ h, fun out hout => (Except.ok.inj (htext.symm.trans hout)).symm⟩
        rintro ⟨error, hfail⟩
        cases htext.symm.trans hfail

/-- When `read_file_range` fails, and what it returns otherwise. -/
theorem executeReadFileRange_cases (reader : Reader) (argPath path : Text) (start max : ℕ) :
    let lines := windowLines start max reader.content
    ((∃ error, executeReadFileRange unicode argPath path start max (.ok reader) = .error error) ↔
      trim (String.ofList argPath) = "" ∨ start = 0 ∨ max = 0 ∨ maxReadFileRangeLines < max ∨
        BadHead reader ∨
        ((∃ line ∈ (returnedLines unicode path true maxToolOutputBytes lines).1, IsBad line) ∨
          Overread unicode path true lines) ∨ (fileLines reader.content).length < start) ∧
      ∀ out, executeReadFileRange unicode argPath path start max (.ok reader) = .ok out →
        out = rangeReturned unicode path start max reader.content := by
  intro lines
  rw [executeReadFileRange_eq]
  split_ifs with hpath hstart hmax hmany
  · exact ⟨iff_of_true ⟨_, rfl⟩ (.inl hpath), fun _ h => by cases h⟩
  · exact ⟨iff_of_true ⟨_, rfl⟩ (.inr (.inl hstart)), fun _ h => by cases h⟩
  · exact ⟨iff_of_true ⟨_, rfl⟩ (.inr (.inr (.inl hmax))), fun _ h => by cases h⟩
  · exact ⟨iff_of_true ⟨_, rfl⟩ (.inr (.inr (.inr (.inl hmany)))), fun _ h => by cases h⟩
  · rw [or_iff_right hpath, or_iff_right hstart, or_iff_right hmax, or_iff_right hmany]
    rcases openTextReader_cases path reader with ⟨error, hhead, herror⟩ | ⟨hhead, hok⟩
    · rw [herror]
      exact ⟨iff_of_true ⟨error, rfl⟩ (.inl hhead), fun _ h => by cases h⟩
    · rw [hok, or_iff_right hhead]
      change (_ ↔ _) ∧ ∀ out, rangeText unicode path start max reader.content = .ok out → _
      rcases rangeText_cases unicode path start max reader.content with
        ⟨⟨error, hfail⟩, h⟩ | ⟨htext, h⟩
      · exact ⟨iff_of_true ⟨error, hfail⟩ h, fun out hout => by rw [hfail] at hout; cases hout⟩
      · refine ⟨iff_of_false ?_ h, fun out hout => (Except.ok.inj (htext.symm.trans hout)).symm⟩
        rintro ⟨error, hfail⟩
        cases htext.symm.trans hfail

/-- What is said of the two tools and a file, in the pieces in which it is read. -/
structure AgreesWithFile (reader : Reader) (argPath path : Text) (start max : ℕ) : Prop where
  /-- The stream yields the lines of the file with their numbers and places, and counts them. -/
  stream : (TextStream.collect { reader := reader }).1 =
      streamedLines 0 0 (fileLines reader.content) ∧
    (TextStream.collect { reader := reader }).2.linesRead = (fileLines reader.content).length ∧
    (TextStream.collect { reader := reader }).2.totalBytes = reader.content.length
  /-- The lines of a file are the file; each has at most one newline, at its end, and all but the
  last do end with one. -/
  lines : (fileLines reader.content).flatten = reader.content ∧
    (∀ line ∈ fileLines reader.content, line ≠ [] ∧ newline ∉ line.dropLast) ∧
    ∀ line ∈ (fileLines reader.content).dropLast, line.getLast? = some newline
  /-- `read_file` returns the lines from the first on that fit. -/
  readFile : ∀ out, executeReadFile unicode argPath path (.ok reader) = .ok out →
    out = fileReturned unicode path reader.content
  /-- `read_file_range` returns the lines of the range that fit. -/
  readFileRange : ∀ out, executeReadFileRange unicode argPath path start max (.ok reader) = .ok out →
    out = rangeReturned unicode path start max reader.content
  /-- A line is shown alike by both, but for its number. -/
  numbered : ∀ line, lineShown unicode line path true =
    Nat.toDigits 10 line.lineNumber ++ " | ".toList ++ lineShown unicode line path false
  /-- `read_file` fails if the path is missing, the head is refused, or a line that is returned is
  not text. -/
  readFile_fails : (∃ error, executeReadFile unicode argPath path (.ok reader) = .error error) ↔
    trim (String.ofList argPath) = "" ∨ BadHead reader ∨
      ∃ line ∈ (returnedLines unicode path false maxToolOutputBytes
        (streamedLines 0 0 (fileLines reader.content))).1, IsBad line
  /-- `read_file_range` fails if an argument is out of bounds, the head is refused, a line that is
  returned is not text, or the range begins after the last line. -/
  readFileRange_fails :
    (∃ error, executeReadFileRange unicode argPath path start max (.ok reader) = .error error) ↔
      trim (String.ofList argPath) = "" ∨ start = 0 ∨ max = 0 ∨ maxReadFileRangeLines < max ∨
        BadHead reader ∨
        (∃ line ∈ (returnedLines unicode path true maxToolOutputBytes
          (windowLines start max reader.content)).1, IsBad line) ∨
        (fileLines reader.content).length < start

/-- The two tools agree with the whole file, in whatever pieces it is read, exactly if neither
refuses a line that it would not return. -/
theorem agreesWithFile_iff (reader : Reader) (argPath path : Text) (start max : ℕ) :
    AgreesWithFile unicode reader argPath path start max ↔
      (trim (String.ofList argPath) ≠ "" → ¬ BadHead reader →
        ¬ Overread unicode path false (streamedLines 0 0 (fileLines reader.content)) ∧
        (0 < start → 0 < max → max ≤ maxReadFileRangeLines →
          ¬ Overread unicode path true (windowLines start max reader.content))) := by
  obtain ⟨hfile, hfileOut⟩ := executeReadFile_cases unicode reader argPath path
  obtain ⟨hrange, hrangeOut⟩ := executeReadFileRange_cases unicode reader argPath path start max
  constructor
  · rintro h hpath hhead
    have hreturned := h.readFile_fails.symm.trans hfile
    rw [or_iff_right hpath, or_iff_right hpath, or_iff_right hhead, or_iff_right hhead]
      at hreturned
    refine ⟨fun hover => ?_, fun hstart hmax hmany hover => ?_⟩
    · obtain ⟨line, hmem, hbad⟩ := hreturned.2 (.inr hover)
      exact hover.1 line hmem hbad
    · have hfails := hrange.2 (.inr (.inr (.inr (.inr (.inr (.inl (.inr hover)))))))
      rcases h.readFileRange_fails.1 hfails with h | h | h | h | h | ⟨line, hmem, hbad⟩ | h
      · exact hpath h
      · exact hstart.ne' h
      · exact hmax.ne' h
      · exact absurd hmany (Nat.not_le.2 h)
      · exact hhead h
      · exact hover.1 line hmem hbad
      · exact not_overread_of_lt unicode path h hover
  · intro h
    obtain ⟨hlines, hcount, hbytes⟩ := TextStream.collect_eq { reader := reader } rfl
    dsimp only at hlines hcount hbytes
    rw [Nat.zero_add] at hcount hbytes
    refine ⟨⟨hlines, hcount, hbytes⟩,
      ⟨flatten_fileLines _, fileLines_shape _, getLast?_fileLines _⟩, hfileOut, hrangeOut,
      fun line => lineShown_numbered unicode line path, hfile.trans ?_, hrange.trans ?_⟩
    · exact or_congr_right' fun hpath => or_congr_right' fun hhead => or_iff_left (h hpath hhead).1
    · refine or_congr_right' fun hpath => or_congr_right' fun hstart => or_congr_right' fun hmax =>
        or_congr_right' fun hmany => or_congr_right' fun hhead => or_congr_left (or_iff_left ?_)
      exact (h hpath hhead).2 (Nat.pos_of_ne_zero hstart) (Nat.pos_of_ne_zero hmax)
        (Nat.not_lt.1 hmany)

end ReadFile

/-! ### A line that is not returned -/

variable (n : ℕ)

def letters : Bytes := List.replicate n 0x61 ++ [newline]

def bytewise (content : Bytes) : Reader :=
  ⟨content.map fun b => [b], fun piece hpiece => by
    obtain ⟨b, -, rfl⟩ := mem_map.1 hpiece
    exact cons_ne_nil _ _⟩

theorem content_bytewise (content : Bytes) : (bytewise content).content = content := by
  simp [bytewise, Reader.content, ← flatMap_def]

/-- Two lines of letters, and a byte that is no text. -/
def lettersFile : Bytes := letters n ++ (letters n ++ [0xFF])

theorem newline_notMem_replicate : newline ∉ List.replicate n (0x61 : UInt8) :=
  fun hmem => absurd (eq_of_mem_replicate hmem) (by decide)

theorem fileLines_letters (rest : Bytes) :
    fileLines (letters n ++ rest) = letters n :: fileLines rest := by
  have hlength : lineLength (letters n ++ rest) = (letters n).length := by
    rw [letters, append_assoc, singleton_append,
      lineLength_of_newline (newline_notMem_replicate n), length_append]
    rfl
  rw [fileLines_eq (by simp [letters]), hlength, take_left, drop_left]

theorem length_letters : (letters n).length = n + 1 := by
  rw [letters, length_append, length_replicate]
  rfl

theorem mem_letters {n : ℕ} {b : UInt8} (h : b ∈ letters n) : b = 0x61 ∨ b = newline := by
  rw [letters, mem_append, mem_singleton] at h
  exact h.imp eq_of_mem_replicate id

variable (unicode : FormatCategory)

theorem sanitizeContent_letters (n : ℕ) :
    sanitizeContent unicode (List.replicate n 'a') = List.replicate n 'a' := by
  rw [sanitizeContent, sanitizeText, if_pos]
  rw [isPlainAscii, all_eq_true]
  intro b hb
  obtain ⟨c, hc, hb⟩ := mem_flatMap.1 hb
  rw [eq_of_mem_replicate hc] at hb
  obtain rfl := mem_singleton.1 hb
  rfl

theorem renderStreamedLine_letters {n : ℕ}
    (hn : n + 1 ≤ maxLineDisplayBytes) (number offset : ℕ) (path : Text) :
    renderStreamedLine unicode (TextStream.lineOf number offset (letters n)) path false =
      .ok (List.replicate n 'a') := by
  have hline : TextStream.lineOf number offset (letters n) = ⟨number, letters n, true, offset⟩ := by
    rw [TextStream.lineOf, take_of_length_le (by rw [length_letters]; exact hn),
      length_letters, decide_eq_true hn]
  have hnul : (letters n).findIdx? (· == 0) = none := by
    refine List.findIdx?_eq_none_iff.2 fun b hb => ?_
    rcases mem_letters hb with rfl | rfl <;> rfl
  have hascii : ∀ b ∈ letters n, b.toNat < 0x80 := fun b hb => by
    rcases mem_letters hb with rfl | rfl <;> decide
  have htext : Utf8.fromUtf8 (letters n) = .ok (List.replicate n 'a' ++ ['\n']) := by
    rw [Utf8.fromUtf8_ascii hascii, letters, map_append, map_replicate]
    rfl
  have hnewline : stripSuffix '\n' (List.replicate n 'a' ++ ['\n']) = List.replicate n 'a' := by
    rw [stripSuffix, if_pos (List.getLast?_concat ..), dropLast_concat]
  have hreturn : stripSuffix '\r' (List.replicate n 'a') = List.replicate n 'a' := by
    rw [stripSuffix, if_neg]
    intro hlast
    exact absurd (eq_of_mem_replicate (List.mem_of_getLast? hlast)) (by decide)
  rw [hline, renderStreamedLine, hnul]
  simp only [lineText, htext, bind, Except.bind, hnewline, hreturn, sanitizeContent_letters,
    Bool.false_eq_true, if_false, if_true]

theorem size_replicate_letter : Utf8.size (List.replicate n 'a') = n := by
  rw [Utf8.size_eq_length fun c hc => by rw [eq_of_mem_replicate hc]; decide,
    length_replicate]

theorem returnedLines_letters {n room : ℕ}
    (hn : n + 1 ≤ maxLineDisplayBytes) (hroom : n + 1 ≤ room) (number offset : ℕ) (path : Text)
    (lines : List StreamedLine) :
    returnedLines unicode path false room (TextStream.lineOf number offset (letters n) :: lines) =
      (TextStream.lineOf number offset (letters n) ::
          (returnedLines unicode path false (room - (n + 1)) lines).1,
        (returnedLines unicode path false (room - (n + 1)) lines).2) := by
  have hshown : lineShown unicode (TextStream.lineOf number offset (letters n)) path false =
      List.replicate n 'a' := by
    rw [lineShown, renderStreamedLine_letters unicode hn]
  rw [returnedLines, hshown, size_replicate_letter, if_pos hroom]

theorem streamedLines_lettersFile : streamedLines 0 0 (fileLines (lettersFile n)) =
    [TextStream.lineOf 1 0 (letters n), TextStream.lineOf 2 (n + 1) (letters n),
      TextStream.lineOf 3 (n + 1 + (n + 1)) [0xFF]] := by
  rw [lettersFile, fileLines_letters, fileLines_letters]
  have hbyte : ¬ (0xFF : UInt8) = newline := by decide
  simp only [fileLines, streamedLines, length_letters, Nat.zero_add, if_neg hbyte]

theorem isBad_byte (number offset : ℕ) : IsBad (TextStream.lineOf number offset [0xFF]) := by
  refine .inr ⟨⟨0, false⟩, ?_, by simp⟩
  rw [TextStream.lineOf, take_of_length_le (by decide)]
  rfl

theorem not_isBad_letters {n : ℕ} (hn : n + 1 ≤ maxLineDisplayBytes) (number offset : ℕ) :
    ¬ IsBad (TextStream.lineOf number offset (letters n)) := by
  rw [← renderStreamedLine_error_iff .listed _ [] false, renderStreamedLine_letters .listed hn]
  rintro ⟨error, h⟩
  cases h

/-- `read_file` also fails for a line that it cannot return: here the two lines before it fill the
budget. -/
theorem not_agreesWithFile :
    ¬ AgreesWithFile .listed (bytewise (lettersFile 65535)) ['a'] ['a'] 1 1 := by
  intro h
  obtain ⟨n, hn⟩ : ∃ n : ℕ, 65535 = n + 1 := ⟨65534, rfl⟩
  have hcap : n + 1 + 1 ≤ maxLineDisplayBytes := by rw [← hn]; decide
  have hbudget : maxToolOutputBytes = n + 1 + 1 + (n + 1 + 1) := by rw [← hn]; rfl
  rw [hn] at h
  have hhead : ¬ BadHead (bytewise (lettersFile (n + 1))) := by
    rintro (hnul | ⟨e, he, -⟩)
    · exact absurd (mem_singleton.1 hnul) (by decide)
    · cases he
  have hreturned : returnedLines .listed ['a'] false maxToolOutputBytes
      (streamedLines 0 0 (fileLines (bytewise (lettersFile (n + 1))).content)) =
        ([TextStream.lineOf 1 0 (letters (n + 1)),
          TextStream.lineOf 2 (n + 1 + 1) (letters (n + 1))],
          some (TextStream.lineOf 3 (n + 1 + 1 + (n + 1 + 1)) [0xFF])) := by
    rw [content_bytewise, streamedLines_lettersFile, hbudget,
      returnedLines_letters .listed hcap (Nat.le_add_right _ _),
      returnedLines_letters .listed hcap (by omega), Nat.add_sub_cancel, Nat.sub_self,
      returnedLines, if_neg (Nat.not_succ_le_zero _)]
  have hfails := (executeReadFile_cases .listed (bytewise (lettersFile (n + 1))) ['a'] ['a']).1.2
    (.inr (.inr (.inr ⟨?_, _, congrArg Prod.snd hreturned, isBad_byte _ _⟩)))
  · rcases h.readFile_fails.1 hfails with hpath | hbad | ⟨line, hmem, hbad⟩
    · exact absurd hpath (by decide)
    · exact hhead hbad
    · rw [hreturned] at hmem
      rcases mem_pair.1 hmem with rfl | rfl <;> exact not_isBad_letters hcap _ _ hbad
  · rw [hreturned]
    intro line hmem
    rcases mem_pair.1 hmem with rfl | rfl <;> exact not_isBad_letters hcap _ _

end Choreo
