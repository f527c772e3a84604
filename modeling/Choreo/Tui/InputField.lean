import Choreo.Library.Runs
import Choreo.Tui.Input

/-!
# The input buffer with its visual lines

The input buffer wraps its text into visual lines for the moves by a line and for clicks
(`choreo-tui/src/state/input.rs`). The lines are cached with the width they were computed for and
with a counter that every change of the text bumps. All offsets are bytes, and every slice at an
offset inside a character panics.
-/

namespace Choreo

open List

/-- A text cut into graphemes, as the segmentation of Unicode does it. -/
structure Segmentation where
  graphemes : List Char → List (List Char)
  flatten_graphemes : ∀ text, (graphemes text).flatten = text

/-- The text between two byte offsets; `none` is the panic of a slice. -/
def slice (text : List Char) (start stop : ℕ) : Option (List Char) :=
  if start ≤ stop then (splitAt text stop).bind fun p => (splitAt p.1 start).map Prod.snd else none

/-! ### Visual lines -/

/-- A line on the screen: its bytes in the text, and its width. -/
structure VisualLineInfo where
  startByte : ℕ
  endByte : ℕ
  displayWidth : ℕ
deriving DecidableEq

/-- White space within ASCII. Bytes of other characters are never taken for it. -/
def isAsciiWhitespace (c : Char) : Bool :=
  c = ' ' || c = '\t' || c = '\n' || c = Char.ofNat 12 || c = '\r'

/-- The words of a line, each with the white space before it, and the white space at the end. -/
def splitWords : ℕ → List Char → List (List Char × List Char) × List Char
  | 0, text => ([], text)
  | fuel + 1, text =>
    let space := text.takeWhile isAsciiWhitespace
    match text.dropWhile isAsciiWhitespace with
    | [] => ([], space)
    | c :: rest =>
      let word := (c :: rest).takeWhile fun c => !isAsciiWhitespace c
      let later := splitWords fuel ((c :: rest).dropWhile fun c => !isAsciiWhitespace c)
      ((space, word) :: later.1, later.2)

section Lines

variable (width : List Char → ℕ) (maxWidth : ℕ)

/-- The words go to the line that is open as long as they fit: the line began at `lineStart` and
has the width `lineWidth`, and the last word ended at `wordEnd`. -/
def wrapWords (trailing : List Char) :
    List (List Char × List Char) → ℕ → ℕ → ℕ → List VisualLineInfo
  | [], lineStart, lineWidth, wordEnd =>
    [⟨lineStart, wordEnd + Utf8.size trailing, lineWidth + width trailing⟩]
  | (space, word) :: words, lineStart, lineWidth, wordEnd =>
    let wordStart := wordEnd + Utf8.size space
    if 0 < lineWidth ∧ maxWidth < lineWidth + (width space + width word) then
      ⟨lineStart, wordEnd, lineWidth⟩ ::
        wrapWords trailing words wordStart (width word) (wordStart + Utf8.size word)
    else
      wrapWords trailing words lineStart (lineWidth + (width space + width word))
        (wordStart + Utf8.size word)

/-- The visual lines of a logical line that begins at a byte of the text. -/
def wrapLogical (offset : ℕ) (logical : List Char) : List VisualLineInfo :=
  if logical = [] then [⟨offset, offset, 0⟩]
  else
    let words := splitWords logical.length logical
    if words.1 = [] then [⟨offset, offset + Utf8.size logical, width logical⟩]
    else wrapWords width maxWidth words.2 words.1 offset 0 offset

def wrapLogicals (offset : ℕ) : List (List Char) → List VisualLineInfo
  | [] => []
  | logical :: rest =>
    wrapLogical width maxWidth offset logical ++
      wrapLogicals (offset + Utf8.size logical + 1) rest

variable (text : List Char)

/-- Wraps a text at words. Words that are wider than the line overflow. -/
def computeVisualLines : List VisualLineInfo :=
  if maxWidth = 0 then [⟨0, 0, 0⟩] else wrapLogicals width maxWidth 0 (text.splitOn '\n')

/-- Row and column of a cursor, both cut to 16 bits. -/
def findCursorPos (cursor : ℕ) (lines : List VisualLineInfo) :
    Option (ℕ × ℕ) :=
  match lines.findIdx? fun line => line.startByte ≤ cursor && cursor ≤ line.endByte with
  | some i =>
    (lines[i]?).bind fun line =>
      (slice text line.startByte (min cursor line.endByte)).map fun before =>
        (i % 2 ^ 16, width before % 2 ^ 16)
  | none =>
    match lines.getLast? with
    | none => some (0, 0)
    | some line =>
      (slice text line.startByte line.endByte).map fun before =>
        ((lines.length - 1) % 2 ^ 16, width before % 2 ^ 16)

/-- The characters before a column. -/
def columnPrefix (targetCol : ℕ) : ℕ → List Char → List Char
  | _, [] => []
  | col, c :: rest =>
    if targetCol < col + width [c] then [] else c :: columnPrefix targetCol (col + width [c]) rest

def byteOffsetAtColumn (targetCol : ℕ) : ℕ :=
  Utf8.size (columnPrefix width targetCol 0 text)

/-- The graphemes before a click at a column. A wide grapheme counts if the click is not on its
first cell. -/
def clickPrefix (targetCol : ℕ) : ℕ → List (List Char) → List (List Char)
  | _, [] => []
  | col, g :: rest =>
    if targetCol < col + width g then if 2 ≤ width g ∧ col < targetCol then [g] else []
    else g :: clickPrefix targetCol (col + width g) rest

/-- The byte that a click at a column of a line chooses. -/
def graphemeOffsetAtColumn (seg : Segmentation) (text : List Char) (targetCol : ℕ) : ℕ :=
  Utf8.size (clickPrefix width targetCol 0 (seg.graphemes text)).flatten

end Lines

/-! ### The buffer -/

/-- The keys that the buffer knows. -/
inductive KeyCode
  | backspace
  | delete
  | left
  | right
  | home
  | endKey
  | char (c : Char)
  | other
deriving DecidableEq

/-- A key with the modifiers that matter. -/
structure KeyEvent where
  code : KeyCode
  control : Bool := false
  alt : Bool := false
deriving DecidableEq

/-- What a key event does to the buffer, if it is taken. -/
def KeyEvent.toKey (event : KeyEvent) : Option Key :=
  match event.code with
  | .backspace => some (if event.control then .clear else .backspace)
  | .delete => some (if event.control then .deleteWordForward else .delete)
  | .left => some (if event.control then .wordLeft else .left)
  | .right => some (if event.control then .wordRight else .right)
  | .home => some (if event.control then .home else .homeLine)
  | .endKey => some (if event.control then .endOfText else .endLine)
  | .char c =>
    if c = 'w' ∧ event.control = true then some .deleteWordBackward
    else if c = 'u' ∧ event.control = true then some .deleteToStart
    else if event.control = false ∧ event.alt = false then
      if c = Char.ofNat 0 then none else some (.insert [c])
    else none
  | .other => none

/-- The buffer with its window and its cache: the counter and the width that the cached lines were
computed for. The counter has 64 bits, which no run of the client exhausts. -/
structure InputField where
  buffer : InputBuffer := {}
  scrollOffset : ℕ := 0
  generation : ℕ := 0
  linesCache : Option (ℕ × ℕ × List VisualLineInfo) := none

inductive InputOperation
  | handleKey (event : KeyEvent)
  | insertStr (text : List Char)
  | cursorUp (maxWidth : ℕ)
  | cursorDown (maxWidth : ℕ)
  | cursorVisualPos (maxWidth : ℕ)
  | ensureCursorVisible (maxWidth visibleHeight : ℕ)
  | click (maxWidth visibleHeight row col : ℕ)

namespace InputField

variable (seg : Segmentation) (width : List Char → ℕ)

/-- Whether a key bumps the counter. -/
def bumps (key : Key) (b : InputBuffer) : Bool :=
  match key with
  | .insert text => text ≠ []
  | .backspace => b.cursor ≠ 0
  | .deleteWordBackward => b.cursor ≠ 0
  | .delete => !b.atEnd
  | .deleteWordForward => !b.atEnd
  | .deleteToStart => true
  | .clear => true
  | _ => false

/-- A key on the buffer; `none` is a panic. -/
def applyKey (key : Key) (s : InputField) : Option InputField :=
  (InputBuffer.handleKey seg.graphemes key s.buffer).map fun buffer =>
    { s with
      buffer := buffer
      generation := if bumps key s.buffer then s.generation + 1 else s.generation
      scrollOffset := if key = .clear then 0 else s.scrollOffset }

variable (maxWidth : ℕ)

/-- The cached lines, computed again if the counter or the width is another one. -/
def cachedVisualLines (s : InputField) : InputField × List VisualLineInfo :=
  let fresh := (s.generation, maxWidth, computeVisualLines width maxWidth s.buffer.text)
  let entry := s.linesCache.getD fresh
  let entry := if entry.1 ≠ s.generation ∨ entry.2.1 ≠ maxWidth then fresh else entry
  ({ s with linesCache := some entry }, entry.2.2)

def moveTo (s : InputField) (line : Option VisualLineInfo) (col : ℕ) : Option InputField :=
  line.bind fun target =>
    (slice s.buffer.text target.startByte target.endByte).map fun text =>
      { s with buffer.cursor :=
          target.startByte + byteOffsetAtColumn width text (min col target.displayWidth) }

def cursorUp (s : InputField) : Option InputField :=
  if maxWidth < 1 then some s
  else
    let (s, lines) := s.cachedVisualLines width maxWidth
    (findCursorPos width s.buffer.text s.buffer.cursor lines).bind fun pos =>
      if pos.1 = 0 then some s else s.moveTo width lines[pos.1 - 1]? pos.2

def cursorDown (s : InputField) : Option InputField :=
  if maxWidth < 1 then some s
  else
    let (s, lines) := s.cachedVisualLines width maxWidth
    (findCursorPos width s.buffer.text s.buffer.cursor lines).bind fun pos =>
      if lines.length % 2 ^ 16 ≤ (pos.1 + 1) % 2 ^ 16 then some s
      else s.moveTo width lines[pos.1 + 1]? pos.2

def cursorVisualPos (s : InputField) : Option InputField :=
  if maxWidth < 1 then some s
  else
    let (s, lines) := s.cachedVisualLines width maxWidth
    (findCursorPos width s.buffer.text s.buffer.cursor lines).map fun _ => s

/-- Moves the window so that it shows the cursor. -/
def ensureCursorVisible (maxWidth visibleHeight : ℕ) (s : InputField) : Option InputField :=
  if maxWidth < 1 ∨ visibleHeight = 0 then some { s with scrollOffset := 0 }
  else
    let (s, lines) := s.cachedVisualLines width maxWidth
    if lines.length ≤ visibleHeight then some { s with scrollOffset := 0 }
    else
      (findCursorPos width s.buffer.text s.buffer.cursor lines).map fun pos =>
        let above := if pos.1 < s.scrollOffset then pos.1 else s.scrollOffset
        let below := if above + visibleHeight ≤ pos.1 then pos.1 + 1 - visibleHeight else above
        { s with scrollOffset := min below (lines.length - visibleHeight) }

def click (maxWidth visibleHeight row col : ℕ) (s : InputField) : Option InputField :=
  if maxWidth < 1 then some { s with buffer.cursor := 0 }
  else
    let (s, lines) := s.cachedVisualLines width maxWidth
    let visibleCount := min (max visibleHeight 1) lines.length
    let offset := min s.scrollOffset (lines.length - visibleCount)
    match lines[offset + row]? with
    | some line =>
      (slice s.buffer.text line.startByte line.endByte).map fun text =>
        { s with buffer.cursor :=
            line.startByte + graphemeOffsetAtColumn width seg text (min col line.displayWidth) }
    | none => some { s with buffer.cursor := Utf8.size s.buffer.text }

/-- One operation; `none` is a panic. -/
def step : InputOperation → InputField → Option InputField
  | .handleKey event, s =>
    match event.toKey with
    | some key => s.applyKey seg key
    | none => some s
  | .insertStr text, s => s.applyKey seg (.insert text)
  | .cursorUp maxWidth, s => s.cursorUp width maxWidth
  | .cursorDown maxWidth, s => s.cursorDown width maxWidth
  | .cursorVisualPos maxWidth, s => s.cursorVisualPos width maxWidth
  | .ensureCursorVisible maxWidth visibleHeight, s =>
    s.ensureCursorVisible width maxWidth visibleHeight
  | .click maxWidth visibleHeight row col, s => s.click seg width maxWidth visibleHeight row col

end InputField

/-! ### Slices -/

theorem prefix_of_size_le {pre pre' text : List Char} (h : pre <+: text) (h' : pre' <+: text)
    (hle : Utf8.size pre ≤ Utf8.size pre') : pre <+: pre' := by
  rcases prefix_or_prefix_of_prefix h h' with hpre | ⟨rest, rfl⟩
  · exact hpre
  · have hrest : rest = [] := by
      have hlength := Utf8.length_le_size rest
      rw [Utf8.size_append] at hle
      exact length_eq_zero_iff.1 (by omega)
    rw [hrest, append_nil]

theorem slice_append (pre mid post : List Char) :
    slice (pre ++ mid ++ post) (Utf8.size pre) (Utf8.size (pre ++ mid)) = some mid := by
  have hle : Utf8.size pre ≤ Utf8.size (pre ++ mid) := by
    rw [Utf8.size_append]
    omega
  rw [slice, if_pos hle, splitAt_size, Option.bind_some, splitAt_size]
  rfl

/-- A line is a part of a text, between two characters each. -/
def VisualLineInfo.IsSlice (text : List Char) (line : VisualLineInfo) : Prop :=
  ∃ pre mid post, text = pre ++ mid ++ post ∧ line.startByte = Utf8.size pre ∧
    line.endByte = Utf8.size (pre ++ mid)

theorem splitWords_flatten (fuel : ℕ) (text : List Char) :
    ((splitWords fuel text).1.flatMap fun p => p.1 ++ p.2) ++ (splitWords fuel text).2 = text := by
  induction fuel generalizing text with
  | zero => rfl
  | succ fuel ih =>
    have hspace := takeWhile_append_dropWhile (p := isAsciiWhitespace) (l := text)
    rw [splitWords]
    cases hrest : text.dropWhile isAsciiWhitespace with
    | nil => rwa [hrest, append_nil] at hspace
    | cons c rest =>
      have hword := takeWhile_append_dropWhile (p := fun c => !isAsciiWhitespace c)
        (l := c :: rest)
      simp only [flatMap_cons, append_assoc, ih]
      rw [hword, ← hrest, hspace]

section Lines

variable {width : List Char → ℕ} {maxWidth : ℕ}

theorem isSlice_wrapWords (trailing post : List Char) (words : List (List Char × List Char)) :
    ∀ (pre mid text : List Char) (lineWidth : ℕ),
      text = pre ++ mid ++ ((words.flatMap fun p => p.1 ++ p.2) ++ trailing ++ post) →
      ∀ line ∈ wrapWords width maxWidth trailing words (Utf8.size pre) lineWidth
        (Utf8.size (pre ++ mid)), line.IsSlice text := by
  induction words with
  | nil =>
    intro pre mid text lineWidth htext line hline
    obtain rfl := mem_singleton.1 hline
    refine ⟨pre, mid ++ trailing, post, ?_, rfl, ?_⟩
    · rw [htext]
      simp
    · simp only [Utf8.size_append]
      omega
  | cons p words ih =>
    obtain ⟨space, word⟩ := p
    intro pre mid text lineWidth htext line hline
    rw [wrapWords] at hline
    split_ifs at hline
    · rcases mem_cons.1 hline with rfl | hline
      · exact ⟨pre, mid, _, htext, rfl, rfl⟩
      · refine ih (pre ++ mid ++ space) word text (width word) ?_ line ?_
        · rw [htext]
          simp
        · simpa only [Utf8.size_append, Nat.add_assoc] using hline
    · refine ih pre (mid ++ space ++ word) text (lineWidth + (width space + width word)) ?_ line ?_
      · rw [htext]
        simp
      · simpa only [Utf8.size_append, Nat.add_assoc] using hline

theorem isSlice_wrapLogical (pre logical post : List Char) :
    ∀ line ∈ wrapLogical width maxWidth (Utf8.size pre) logical,
      line.IsSlice (pre ++ logical ++ post) := by
  intro line hline
  rw [wrapLogical] at hline
  split at hline
  · obtain rfl := mem_singleton.1 hline
    exact ⟨pre, [], logical ++ post, by simp, rfl, by simp⟩
  · dsimp only at hline
    split at hline
    · obtain rfl := mem_singleton.1 hline
      exact ⟨pre, logical, post, rfl, rfl, by simp⟩
    · have hflat := splitWords_flatten logical.length logical
      refine isSlice_wrapWords (splitWords logical.length logical).2 post _ pre [] _ 0 ?_ line
        (by simpa using hline)
      rw [hflat]
      simp

theorem isSlice_wrapLogicals (logicals : List (List Char)) : ∀ pre : List Char,
    ∀ line ∈ wrapLogicals width maxWidth (Utf8.size pre) logicals,
      line.IsSlice (pre ++ ['\n'].intercalate logicals) := by
  induction logicals with
  | nil => intro pre line hline; exact absurd hline not_mem_nil
  | cons logical rest ih =>
    intro pre line hline
    rw [wrapLogicals] at hline
    rcases mem_append.1 hline with hfirst | hlater
    · cases rest with
      | nil =>
        have hslice : line.IsSlice (pre ++ logical ++ []) :=
          isSlice_wrapLogical pre logical [] line hfirst
        simpa using hslice
      | cons next rest =>
        rw [intercalate_cons_cons, append_assoc, ← append_assoc]
        exact isSlice_wrapLogical pre logical _ line hfirst
    · cases rest with
      | nil => exact absurd hlater not_mem_nil
      | cons next rest =>
        have hstart : Utf8.size (pre ++ (logical ++ ['\n'])) =
            Utf8.size pre + Utf8.size logical + 1 := by
          have hnewline : Utf8.size ['\n'] = 1 := rfl
          simp only [Utf8.size_append, hnewline]
          omega
        have hslice := ih (pre ++ (logical ++ ['\n'])) line (hstart ▸ hlater)
        rw [intercalate_cons_cons]
        simpa [append_assoc] using hslice

theorem forall_computeVisualLines (text : List Char) :
    ∀ line ∈ computeVisualLines width maxWidth text, line.IsSlice text := by
  intro line hline
  rw [computeVisualLines] at hline
  split_ifs at hline
  · obtain rfl := mem_singleton.1 hline
    exact ⟨[], [], text, rfl, rfl, rfl⟩
  · have hslice := isSlice_wrapLogicals (text.splitOn '\n') [] line hline
    rwa [nil_append, intercalate_splitOn] at hslice

/-- A cursor between two characters has a row and a column; the row is that of a line, if there
is one, cut to 16 bits. -/
theorem findCursorPos_eq {b : InputBuffer} (hb : b.OnBoundary) {lines : List VisualLineInfo}
    (hlines : ∀ line ∈ lines, line.IsSlice b.text) (hne : lines ≠ []) :
    ∃ i col, i < lines.length ∧
      findCursorPos width b.text b.cursor lines = some (i % 2 ^ 16, col) := by
  obtain ⟨cpre, cpost, htext, hcursor⟩ := hb
  rw [findCursorPos]
  cases hfind : lines.findIdx? fun line => line.startByte ≤ b.cursor && b.cursor ≤ line.endByte with
  | some i =>
    obtain ⟨hi, hbetween, -⟩ := List.findIdx?_eq_some_iff_getElem.1 hfind
    rw [Bool.and_eq_true, decide_eq_true_eq, decide_eq_true_eq] at hbetween
    obtain ⟨pre, mid, post, hslice, hstart, hstop⟩ := hlines _ (getElem_mem hi)
    have hpre : pre <+: b.text := ⟨mid ++ post, by rw [hslice, append_assoc]⟩
    have hcpre : cpre <+: b.text := ⟨cpost, htext.symm⟩
    obtain ⟨before, hbefore⟩ : pre <+: cpre :=
      prefix_of_size_le hpre hcpre (hstart ▸ hcursor ▸ hbetween.1)
    refine ⟨i, width before % 2 ^ 16, hi, ?_⟩
    simp only [List.getElem?_eq_getElem hi, Option.bind_some, min_eq_left hbetween.2]
    rw [hstart, hcursor, htext, ← hbefore, slice_append]
    rfl
  | none =>
    have hlast := List.getLast?_eq_some_getLast hne
    have hpos : 0 < lines.length := length_pos_of_ne_nil hne
    obtain ⟨pre, mid, post, hslice, hstart, hstop⟩ := hlines _ (getLast_mem hne)
    refine ⟨lines.length - 1, width mid % 2 ^ 16, by omega, ?_⟩
    simp only [hlast]
    rw [hstart, hstop, hslice, slice_append]
    rfl

end Lines

namespace InputField

variable {seg : Segmentation} {width : List Char → ℕ}

/-! ### The cache -/

/-- The cached lines are those of the text, if the counter is still the one they were computed
at. -/
def Cached (width : List Char → ℕ) (s : InputField) : Prop :=
  ∀ entry ∈ s.linesCache, entry.1 ≤ s.generation ∧
    (entry.1 = s.generation → entry.2.2 = computeVisualLines width entry.2.1 s.buffer.text)

/-- The cursor is between two characters, and the cache holds. -/
structure Invariant (width : List Char → ℕ) (s : InputField) : Prop where
  boundary : s.buffer.OnBoundary
  cached : Cached width s

variable {s : InputField}

theorem cachedVisualLines_spec (h : Cached width s) (maxWidth : ℕ) :
    (s.cachedVisualLines width maxWidth).2 = computeVisualLines width maxWidth s.buffer.text ∧
      (s.cachedVisualLines width maxWidth).1.buffer = s.buffer ∧
      Cached width (s.cachedVisualLines width maxWidth).1 := by
  have hfresh : Cached width { s with linesCache := some (s.generation, maxWidth,
      computeVisualLines width maxWidth s.buffer.text) } := by
    rintro entry hentry
    cases hentry
    exact ⟨le_rfl, fun _ => rfl⟩
  rw [cachedVisualLines]
  cases hcache : s.linesCache with
  | none =>
    simp only [Option.getD_none, ne_eq, not_true_eq_false, or_self, if_false]
    exact ⟨trivial, trivial, hfresh⟩
  | some entry =>
    simp only [Option.getD_some]
    split_ifs with hstale
    · exact ⟨rfl, trivial, hfresh⟩
    · rw [not_or, not_not, not_not] at hstale
      have hentry := h entry hcache
      refine ⟨?_, trivial, ?_⟩
      · rw [hentry.2 hstale.1, hstale.2]
      · rintro entry' hentry'
        cases hentry'
        exact hentry

theorem Cached.of_eq {s s' : InputField} (h : Cached width s)
    (hcache : s'.linesCache = s.linesCache)
    (hgeneration : s'.generation = s.generation) (htext : s'.buffer.text = s.buffer.text) :
    Cached width s' := by
  intro entry hentry
  rw [hgeneration, htext]
  exact h entry (hcache ▸ hentry)

/-- A change of the text leaves the cache behind. -/
theorem Cached.of_lt {s s' : InputField} (h : Cached width s)
    (hcache : s'.linesCache = s.linesCache)
    (hgeneration : s.generation < s'.generation) : Cached width s' := by
  intro entry hentry
  have hle := (h entry (hcache ▸ hentry)).1
  exact ⟨by omega, fun heq => absurd heq (by omega)⟩

/-! ### Moves by a line and clicks -/

theorem columnPrefix_prefix (targetCol col : ℕ) (text : List Char) :
    columnPrefix width targetCol col text <+: text := by
  induction text generalizing col with
  | nil => exact prefix_rfl
  | cons c rest ih =>
    rw [columnPrefix]
    split_ifs
    · exact nil_prefix
    · exact cons_prefix_cons.2 ⟨rfl, ih _⟩

theorem clickPrefix_prefix (targetCol col : ℕ) (graphemes : List (List Char)) :
    clickPrefix width targetCol col graphemes <+: graphemes := by
  induction graphemes generalizing col with
  | nil => exact prefix_rfl
  | cons g rest ih =>
    rw [clickPrefix]
    split_ifs
    · exact ⟨rest, rfl⟩
    · exact nil_prefix
    · exact cons_prefix_cons.2 ⟨rfl, ih _⟩

/-- A place within a slice is between two characters. -/
theorem onBoundary_slice {text pre mid post front : List Char} (htext : text = pre ++ mid ++ post)
    (hfront : front <+: mid) {cursor : ℕ} (hcursor : cursor = Utf8.size pre + Utf8.size front) :
    (InputBuffer.mk text cursor).OnBoundary := by
  obtain ⟨back, rfl⟩ := hfront
  exact ⟨pre ++ front, back ++ post, by simp [htext], by rw [hcursor, Utf8.size_append]⟩

theorem computeVisualLines_ne_nil (maxWidth : ℕ) (text : List Char) :
    computeVisualLines width maxWidth text ≠ [] := by
  rw [computeVisualLines]
  split_ifs
  · exact cons_ne_nil _ _
  · obtain ⟨first, rest, hsplit⟩ := exists_cons_of_ne_nil (splitOn_ne_nil '\n' text)
    rw [hsplit, wrapLogicals]
    have hfirst : wrapLogical width maxWidth 0 first ≠ [] := by
      have hwords : ∀ (trailing : List Char) (words : List (List Char × List Char))
          (lineStart lineWidth wordEnd : ℕ),
          wrapWords width maxWidth trailing words lineStart lineWidth wordEnd ≠ [] := by
        intro trailing words
        induction words with
        | nil => intro _ _ _; exact cons_ne_nil _ _
        | cons p words ih =>
          intro lineStart lineWidth wordEnd
          rw [wrapWords]
          split_ifs
          · exact cons_ne_nil _ _
          · exact ih _ _ _
      rw [wrapLogical]
      split
      · exact cons_ne_nil _ _
      · dsimp only
        split
        · exact cons_ne_nil _ _
        · exact hwords _ _ _ _ _
    intro hnil
    exact hfirst (append_eq_nil_iff.1 hnil).1

theorem moveTo_spec (h : Cached width s) {line : VisualLineInfo}
    (hline : line.IsSlice s.buffer.text) (col : ℕ) :
    ∃ s', s.moveTo width (some line) col = some s' ∧ Invariant width s' := by
  obtain ⟨pre, mid, post, htext, hstart, hstop⟩ := hline
  have hslice : slice s.buffer.text line.startByte line.endByte = some mid := by
    rw [hstart, hstop, htext, slice_append]
  refine ⟨{ s with buffer.cursor :=
    line.startByte + byteOffsetAtColumn width mid (min col line.displayWidth) }, ?_, ?_,
    h.of_eq rfl rfl rfl⟩
  · rw [moveTo, Option.bind_some, hslice]
    rfl
  · have hfront : columnPrefix width (min col line.displayWidth) 0 mid <+: mid :=
      columnPrefix_prefix _ _ _
    exact onBoundary_slice htext hfront (by rw [hstart]; rfl)

theorem exists_cursorPos (h : Invariant width s) (maxWidth : ℕ) :
    ∃ i col, i < (computeVisualLines width maxWidth s.buffer.text).length ∧
      findCursorPos width s.buffer.text s.buffer.cursor
        (computeVisualLines width maxWidth s.buffer.text) = some (i % 2 ^ 16, col) :=
  findCursorPos_eq h.boundary (forall_computeVisualLines s.buffer.text)
    (computeVisualLines_ne_nil maxWidth s.buffer.text)

theorem cursorUp_spec (h : Invariant width s) (maxWidth : ℕ) :
    ∃ s', s.cursorUp width maxWidth = some s' ∧ Invariant width s' := by
  obtain ⟨hlines, hbuffer, hcached⟩ := cachedVisualLines_spec h.cached maxWidth
  obtain ⟨i, col, hi, hpos⟩ := exists_cursorPos h maxWidth
  rw [cursorUp]
  split_ifs
  · exact ⟨s, rfl, h⟩
  · dsimp only
    rw [hlines, hbuffer, hpos, Option.bind_some]
    dsimp only
    split_ifs with hzero
    · exact ⟨_, rfl, hbuffer ▸ h.boundary, hcached⟩
    · have hindex : i % 2 ^ 16 - 1 < (computeVisualLines width maxWidth s.buffer.text).length := by
        omega
      rw [List.getElem?_eq_getElem hindex]
      refine moveTo_spec hcached ?_ col
      rw [hbuffer]
      exact forall_computeVisualLines s.buffer.text _ (getElem_mem hindex)

theorem cursorDown_spec (h : Invariant width s) (maxWidth : ℕ) :
    ∃ s', s.cursorDown width maxWidth = some s' ∧ Invariant width s' := by
  obtain ⟨hlines, hbuffer, hcached⟩ := cachedVisualLines_spec h.cached maxWidth
  obtain ⟨i, col, hi, hpos⟩ := exists_cursorPos h maxWidth
  rw [cursorDown]
  split_ifs
  · exact ⟨s, rfl, h⟩
  · dsimp only
    rw [hlines, hbuffer, hpos, Option.bind_some]
    dsimp only
    split_ifs with hlast
    · exact ⟨_, rfl, hbuffer ▸ h.boundary, hcached⟩
    · -- the row is cut to 16 bits, and so is the number of lines that it is compared with
      have hindex : i % 2 ^ 16 + 1 < (computeVisualLines width maxWidth s.buffer.text).length := by
        omega
      rw [List.getElem?_eq_getElem hindex]
      refine moveTo_spec hcached ?_ col
      rw [hbuffer]
      exact forall_computeVisualLines s.buffer.text _ (getElem_mem hindex)

theorem cursorVisualPos_spec (h : Invariant width s) (maxWidth : ℕ) :
    ∃ s', s.cursorVisualPos width maxWidth = some s' ∧ Invariant width s' := by
  obtain ⟨hlines, hbuffer, hcached⟩ := cachedVisualLines_spec h.cached maxWidth
  obtain ⟨i, col, hi, hpos⟩ := exists_cursorPos h maxWidth
  rw [cursorVisualPos]
  split_ifs
  · exact ⟨s, rfl, h⟩
  · dsimp only
    rw [hlines, hbuffer, hpos]
    exact ⟨_, rfl, hbuffer ▸ h.boundary, hcached⟩

theorem ensureCursorVisible_spec (h : Invariant width s)
    (maxWidth visibleHeight : ℕ) :
    ∃ s', s.ensureCursorVisible width maxWidth visibleHeight = some s' ∧ Invariant width s' := by
  obtain ⟨hlines, hbuffer, hcached⟩ := cachedVisualLines_spec h.cached maxWidth
  obtain ⟨i, col, hi, hpos⟩ := exists_cursorPos h maxWidth
  rw [ensureCursorVisible]
  split_ifs
  · exact ⟨_, rfl, h.boundary, h.cached.of_eq rfl rfl rfl⟩
  · dsimp only
    split_ifs
    · exact ⟨_, rfl, hbuffer ▸ h.boundary, hcached.of_eq rfl rfl rfl⟩
    · rw [hlines, hbuffer, hpos]
      exact ⟨_, rfl, hbuffer ▸ h.boundary, hcached.of_eq rfl rfl rfl⟩

theorem click_spec (h : Invariant width s)
    (maxWidth visibleHeight row col : ℕ) :
    ∃ s', s.click seg width maxWidth visibleHeight row col = some s' ∧ Invariant width s' := by
  obtain ⟨hlines, hbuffer, hcached⟩ := cachedVisualLines_spec h.cached maxWidth
  rw [click]
  split_ifs
  · exact ⟨_, rfl, ⟨[], s.buffer.text, rfl, rfl⟩, h.cached.of_eq rfl rfl rfl⟩
  · dsimp only
    rw [hlines, hbuffer]
    split
    · rename_i line hline
      obtain ⟨pre, mid, post, htext, hstart, hstop⟩ :=
        forall_computeVisualLines s.buffer.text line (mem_of_getElem? hline)
      have hslice : slice s.buffer.text line.startByte line.endByte = some mid := by
        rw [hstart, hstop, htext, slice_append]
      rw [hslice]
      refine ⟨_, rfl, ?_, hcached.of_eq rfl rfl rfl⟩
      have hclick : clickPrefix width (min col line.displayWidth) 0 (seg.graphemes mid) <+:
          seg.graphemes mid := clickPrefix_prefix _ _ _
      obtain ⟨later, hlater⟩ := hclick
      have hfront : (clickPrefix width (min col line.displayWidth) 0
          (seg.graphemes mid)).flatten <+: mid :=
        ⟨later.flatten, by rw [← flatten_append, hlater, seg.flatten_graphemes]⟩
      exact onBoundary_slice (hbuffer ▸ htext) hfront (by rw [hstart]; rfl)
    · exact ⟨_, rfl, ⟨s.buffer.text, [], by simp, rfl⟩, hcached.of_eq rfl rfl rfl⟩

/-! ### Keys -/

/-- A key that does not move by a word to behind white space of several bytes does not panic. -/
theorem exists_handleKey {key : Key} {b : InputBuffer} (hb : b.OnBoundary)
    (hkey : ¬ InputBuffer.LandsInside key b) :
    ∃ b', InputBuffer.handleKey seg.graphemes key b = some b' := by
  obtain ⟨p, hp⟩ := hb.exists_splitAt
  have haround : ∀ f, ∃ b', b.around f = some b' := fun f => by
    rw [InputBuffer.around, hp]
    exact ⟨_, rfl⟩
  cases key with
  | insert text | backspace | delete | deleteWordForward =>
    rw [InputBuffer.handleKey]
    split_ifs
    · exact ⟨b, rfl⟩
    · exact haround _
  | left | right | homeLine | endLine | wordRight | deleteToStart =>
    rw [InputBuffer.handleKey]
    exact haround _
  | home | endOfText | clear | place chars => exact ⟨_, rfl⟩
  | wordLeft =>
    rw [InputBuffer.handleKey, hp]
    exact ⟨_, rfl⟩
  | deleteWordBackward =>
    rw [InputBuffer.handleKey]
    split_ifs
    · exact ⟨b, rfl⟩
    · have hspace : ∀ q ∈ InputBuffer.lastSpace p.1, q.2.utf8Size = 1 := by
        intro q hq
        by_contra hne
        exact hkey ⟨.inr rfl, p, hp, q, hq, hne⟩
      obtain ⟨front, rest, hpre, hbound⟩ := InputBuffer.exists_wordLeftBoundary hspace
      rw [hp, Option.bind_some, hbound, hpre, splitAt_size]
      exact ⟨_, rfl⟩

variable {b b' : InputBuffer}

theorem text_of_around {f : List Char → List Char → List Char × List Char}
    (hf : ∀ pre post, (f pre post).1 ++ (f pre post).2 = pre ++ post) (h : b.around f = some b') :
    b'.text = b.text := by
  obtain ⟨p, hp, rfl⟩ := Option.map_eq_some_iff.1 h
  rw [(eq_of_splitAt hp).1]
  exact hf p.1 p.2

theorem text_of_not_bumps {key : Key} (hbumps : bumps key b = false)
    (h : InputBuffer.handleKey seg.graphemes key b = some b') : b'.text = b.text := by
  have hsome : ∀ c : InputBuffer, c.text = b.text → some c = some b' → b'.text = b.text := by
    rintro c hc heq
    cases heq
    exact hc
  cases key with
  | insert text =>
    have htext : text = [] := by simpa [bumps] using hbumps
    rw [InputBuffer.handleKey, if_pos htext] at h
    exact hsome b rfl h
  | backspace | deleteWordBackward =>
    have hcursor : b.cursor = 0 := by simpa [bumps] using hbumps
    rw [InputBuffer.handleKey, if_pos hcursor] at h
    exact hsome b rfl h
  | delete | deleteWordForward =>
    have hend : b.atEnd = true := by simpa [bumps] using hbumps
    rw [InputBuffer.handleKey, if_pos hend] at h
    exact hsome b rfl h
  | deleteToStart | clear => cases hbumps
  | home =>
    rw [InputBuffer.handleKey] at h
    exact hsome { b with cursor := 0 } rfl h
  | endOfText =>
    rw [InputBuffer.handleKey] at h
    exact hsome { b with cursor := Utf8.size b.text } rfl h
  | wordLeft =>
    rw [InputBuffer.handleKey] at h
    obtain ⟨p, -, rfl⟩ := Option.map_eq_some_iff.1 h
    rfl
  | place chars =>
    rw [InputBuffer.handleKey] at h
    exact hsome (InputBuffer.between (b.text.take chars, b.text.drop chars))
      (take_append_drop chars b.text) h
  | left =>
    rw [InputBuffer.handleKey] at h
    exact text_of_around (fun pre post => by simp [← append_assoc]) h
  | right =>
    rw [InputBuffer.handleKey] at h
    exact text_of_around (fun pre post => by simp) h
  | homeLine =>
    rw [InputBuffer.handleKey] at h
    exact text_of_around (fun pre post => by simp [← append_assoc]) h
  | endLine | wordRight =>
    rw [InputBuffer.handleKey] at h
    exact text_of_around (fun pre post => by simp) h

theorem applyKey_spec (h : Invariant width s) {key : Key}
    (hkey : ¬ InputBuffer.LandsInside key s.buffer) :
    ∃ s', s.applyKey seg key = some s' ∧ Invariant width s' := by
  obtain ⟨b', hb'⟩ : ∃ b', InputBuffer.handleKey seg.graphemes key s.buffer = some b' :=
    exists_handleKey h.boundary hkey
  rw [applyKey, hb']
  refine ⟨_, rfl, InputBuffer.onBoundary_of_handleKey seg.graphemes h.boundary hkey hb', ?_⟩
  cases hbumps : bumps key s.buffer with
  | true => exact h.cached.of_lt rfl (by simp)
  | false => exact h.cached.of_eq rfl (by simp) (text_of_not_bumps hbumps hb')

/-! ### Deletions -/

/-- The keys that delete before the cursor. Clearing empties the buffer wherever the cursor is. -/
def deletesBackward : Key → Bool
  | .backspace | .deleteWordBackward | .deleteToStart => true
  | _ => false

/-- The text between the new and the old cursor is removed, and nothing else. -/
def RemovesBackward (b b' : InputBuffer) : Prop :=
  ∃ pre removed post, b.text = pre ++ removed ++ post ∧ b.cursor = Utf8.size (pre ++ removed) ∧
    b'.text = pre ++ post ∧ b'.cursor = Utf8.size pre

/-- A part of the text behind the cursor is removed, and the cursor stays. -/
def RemovesForward (next : List Char → List Char) (b b' : InputBuffer) : Prop :=
  ∃ pre post removed, b.text = pre ++ (removed ++ post) ∧ removed = next (removed ++ post) ∧
    b.cursor = Utf8.size pre ∧ b'.text = pre ++ post ∧ b'.cursor = Utf8.size pre

theorem removesBackward_self {b : InputBuffer} (hb : b.OnBoundary) : RemovesBackward b b := by
  obtain ⟨pre, post, htext, hcursor⟩ := hb
  exact ⟨pre, [], post, by simpa using htext, by simpa using hcursor, htext, hcursor⟩

theorem removesBackward_of_around {n : List Char → ℕ}
    (h : b.around (fun pre post => (pre.take (n pre), post)) = some b') : RemovesBackward b b' := by
  obtain ⟨p, hp, rfl⟩ := Option.map_eq_some_iff.1 h
  obtain ⟨htext, hcursor⟩ := eq_of_splitAt hp
  exact ⟨p.1.take (n p.1), p.1.drop (n p.1), p.2, by rw [take_append_drop, htext],
    by rw [take_append_drop, hcursor], rfl, rfl⟩

theorem removesBackward_of_handleKey {key : Key} (hkey : deletesBackward key = true)
    (hb : b.OnBoundary)
    (h : InputBuffer.handleKey seg.graphemes key b = some b') : RemovesBackward b b' := by
  cases key with
  | backspace =>
    rw [InputBuffer.handleKey] at h
    split_ifs at h
    · cases h
      exact removesBackward_self hb
    · exact removesBackward_of_around h
  | deleteToStart =>
    rw [InputBuffer.handleKey] at h
    exact removesBackward_of_around (n := fun _ => 0) (by simpa using h)
  | deleteWordBackward =>
    rw [InputBuffer.handleKey] at h
    split_ifs at h
    · cases h
      exact removesBackward_self hb
    · obtain ⟨p, hp, hmap⟩ := Option.bind_eq_some_iff.1 h
      obtain ⟨q, hq, rfl⟩ := Option.map_eq_some_iff.1 hmap
      obtain ⟨htext, hcursor⟩ := eq_of_splitAt hp
      obtain ⟨hpre, -⟩ := eq_of_splitAt hq
      exact ⟨q.1, q.2, p.2, by rw [← hpre, htext], by rw [← hpre, hcursor], rfl, rfl⟩
  | _ => cases hkey

theorem firstGrapheme_eq (post : List Char) :
    post.take (InputBuffer.firstGrapheme seg.graphemes post) =
      ((seg.graphemes post).head?).getD [] := by
  have hflat := seg.flatten_graphemes post
  rw [InputBuffer.firstGrapheme]
  cases hgraphemes : seg.graphemes post with
  | nil => rfl
  | cons g rest =>
    rw [hgraphemes, flatten_cons] at hflat
    rw [List.head?_cons, Option.map_some, Option.getD_some, Option.getD_some, ← hflat,
      take_left]

theorem prefix_wordRightPassed (post : List Char) : InputBuffer.wordRightPassed post <+: post := by
  have hword : (post.takeWhile fun c => !isWhitespace c) <+: post := takeWhile_prefix _
  obtain ⟨rest, hrest⟩ := hword
  have hdrop : post.drop (post.takeWhile fun c => !isWhitespace c).length = rest := by
    have h := congrArg (List.drop (post.takeWhile fun c => !isWhitespace c).length) hrest
    rw [drop_left] at h
    exact h.symm
  rw [InputBuffer.wordRightPassed, hdrop]
  obtain ⟨later, hlater⟩ := takeWhile_prefix (l := rest) isWhitespace
  exact ⟨later, by rw [append_assoc, hlater, hrest]⟩

theorem removesForward_self {next : List Char → List Char} (hnext : next [] = [])
    {b : InputBuffer} (hb : b.OnBoundary) (hend : b.atEnd = true) : RemovesForward next b b := by
  obtain ⟨pre, post, htext, hcursor⟩ := hb
  have hpost : post = [] := by
    have hlength := Utf8.length_le_size post
    rw [InputBuffer.atEnd, decide_eq_true_eq, htext, hcursor, Utf8.size_append] at hend
    exact length_eq_zero_iff.1 (by omega)
  subst hpost
  exact ⟨pre, [], [], by simpa using htext, by simp [hnext], hcursor, htext, hcursor⟩

theorem removesForward_of_around {next : List Char → List Char} {n : List Char → ℕ}
    (hnext : ∀ post, post.take (n post) = next post)
    (h : b.around (fun pre post => (pre, post.drop (n post))) = some b') :
    RemovesForward next b b' := by
  obtain ⟨p, hp, rfl⟩ := Option.map_eq_some_iff.1 h
  obtain ⟨htext, hcursor⟩ := eq_of_splitAt hp
  refine ⟨p.1, p.2.drop (n p.2), p.2.take (n p.2), ?_, ?_, hcursor, rfl, rfl⟩
  · rw [take_append_drop, htext]
  · rw [take_append_drop, hnext]

theorem removesForward_delete (hb : b.OnBoundary)
    (h : InputBuffer.handleKey seg.graphemes .delete b = some b') :
    RemovesForward (fun post => ((seg.graphemes post).head?).getD []) b b' := by
  rw [InputBuffer.handleKey] at h
  split_ifs at h with hend
  · cases h
    refine removesForward_self ?_ hb hend
    rw [← firstGrapheme_eq, take_nil]
  · exact removesForward_of_around firstGrapheme_eq h

theorem removesForward_deleteWord (hb : b.OnBoundary)
    (h : InputBuffer.handleKey seg.graphemes .deleteWordForward b = some b') :
    RemovesForward InputBuffer.wordRightPassed b b' := by
  rw [InputBuffer.handleKey] at h
  split_ifs at h with hend
  · cases h
    exact removesForward_self rfl hb hend
  · exact removesForward_of_around (n := fun post => (InputBuffer.wordRightPassed post).length)
      (fun post => (prefix_iff_eq_take.1 (prefix_wordRightPassed post)).symm) h

/-! ### Runs -/

/-- An operation does not move by a word into a character, as it does behind white space of several
bytes. -/
def KeepsBoundary (operation : InputOperation) (s : InputField) : Prop :=
  match operation with
  | .handleKey event => ∀ key ∈ event.toKey, ¬ InputBuffer.LandsInside key s.buffer
  | _ => True

/-- The cursor is between two characters; no operation that keeps it there panics; a deletion
removes the text between the new and the old cursor, the next grapheme or the next word; and the
visual lines used are those of the text. -/
structure Sound (seg : Segmentation) (width : List Char → ℕ) (s : InputField) : Prop where
  boundary : s.buffer.OnBoundary
  total : ∀ operation, KeepsBoundary operation s → (step seg width operation s).isSome = true
  backward : ∀ event key s', event.toKey = some key → deletesBackward key = true →
    step seg width (.handleKey event) s = some s' → RemovesBackward s.buffer s'.buffer
  grapheme : ∀ event s', event.toKey = some .delete →
    step seg width (.handleKey event) s = some s' →
      RemovesForward (fun post => ((seg.graphemes post).head?).getD []) s.buffer s'.buffer
  word : ∀ event s', event.toKey = some .deleteWordForward →
    step seg width (.handleKey event) s = some s' →
      RemovesForward InputBuffer.wordRightPassed s.buffer s'.buffer
  lines : ∀ maxWidth, (s.cachedVisualLines width maxWidth).2 =
    computeVisualLines width maxWidth s.buffer.text

theorem step_spec (h : Invariant width s) {operation : InputOperation}
    (hkeeps : KeepsBoundary operation s) :
    ∃ s', step seg width operation s = some s' ∧ Invariant width s' := by
  cases operation with
  | handleKey event =>
    rw [step]
    cases hkey : event.toKey with
    | none => exact ⟨s, rfl, h⟩
    | some key => exact applyKey_spec h (hkeeps key hkey)
  | insertStr text =>
    refine applyKey_spec h ?_
    rintro ⟨hkey | hkey, -⟩ <;> cases hkey
  | cursorUp maxWidth => exact cursorUp_spec h maxWidth
  | cursorDown maxWidth => exact cursorDown_spec h maxWidth
  | cursorVisualPos maxWidth => exact cursorVisualPos_spec h maxWidth
  | ensureCursorVisible maxWidth visibleHeight =>
    exact ensureCursorVisible_spec h maxWidth visibleHeight
  | click maxWidth visibleHeight row col => exact click_spec h maxWidth visibleHeight row col

theorem Invariant.sound (h : Invariant width s) : Sound seg width s := by
  have hstep : ∀ event key s', event.toKey = some key →
      step seg width (.handleKey event) s = some s' →
        InputBuffer.handleKey seg.graphemes key s.buffer = some s'.buffer := by
    intro event key s' hkey hs'
    rw [step, hkey] at hs'
    obtain ⟨b', hb', rfl⟩ := Option.map_eq_some_iff.1 hs'
    exact hb'
  refine ⟨h.boundary, ?_, ?_, ?_, ?_, ?_⟩
  · intro operation hkeeps
    obtain ⟨s', hs', -⟩ : ∃ s', step seg width operation s = some s' ∧ Invariant width s' :=
      step_spec h hkeeps
    rw [hs']
    rfl
  · intro event key s' hkey hdeletes hs'
    exact removesBackward_of_handleKey hdeletes h.boundary (hstep event key s' hkey hs')
  · intro event s' hkey hs'
    exact removesForward_delete h.boundary (hstep event _ s' hkey hs')
  · intro event s' hkey hs'
    exact removesForward_deleteWord h.boundary (hstep event _ s' hkey hs')
  · exact fun maxWidth => (cachedVisualLines_spec h.cached maxWidth).1

theorem invariant_empty : Invariant width {} :=
  ⟨InputBuffer.onBoundary_empty, by rintro entry hentry; cases hentry⟩

/-- In every run from an empty buffer in which no move by a word goes to behind white space of
several bytes, every state is sound. -/
theorem sound_of_run (seg : Segmentation) (width : List Char → ℕ)
    {operations : List InputOperation} {s : InputField}
    (hrun : StepSystem.run (step seg width) operations {} = some s)
    (hkeeps : StepSystem.Along (step seg width) KeepsBoundary operations {}) : Sound seg width s := by
  have hinv : Invariant width s := by
    refine StepSystem.invariant_of_along (G := KeepsBoundary) ?_ invariant_empty hkeeps hrun
    intro operation s s' hkeeps h hstep
    obtain ⟨s'', hs'', hinv⟩ : ∃ s', step seg width operation s = some s' ∧ Invariant width s' :=
      step_spec h hkeeps
    obtain rfl := Option.some.inj (hs''.symm.trans hstep)
    exact hinv
  exact hinv.sound

def perCharacter : Segmentation where
  graphemes := fun text => text.map fun c => [c]
  flatten_graphemes := fun text => by
    induction text with
    | nil => rfl
    | cons c text ih => rw [map_cons, flatten_cons, ih, singleton_append]

/-- A word, a space and a word, and a move back over the last word. -/
theorem sound_space :
    Sound perCharacter List.length { buffer := ⟨['a', ' ', 'b'], 2⟩, generation := 1 } := by
  have hrun : StepSystem.run (step perCharacter List.length)
      [.insertStr ['a', ' ', 'b'], .handleKey ⟨.left, true, false⟩] {} =
        some { buffer := ⟨['a', ' ', 'b'], 2⟩, generation := 1 } := rfl
  refine sound_of_run perCharacter List.length hrun ⟨trivial, ?_, trivial⟩
  rintro key hkey ⟨-, p, hp, q, hq, hsize⟩
  cases hp
  cases hq
  exact hsize rfl

/-- Behind an ideographic space, which takes three bytes, the cursor moves to its second byte. The
next move to the left panics. -/
theorem not_sound_ideographicSpace : ∃ s, StepSystem.run (step perCharacter List.length)
    [.insertStr ['a', Char.ofNat 0x3000, 'b'], .handleKey ⟨.left, true, false⟩] {} = some s ∧
      s.buffer.cursor = 2 ∧ ¬ s.buffer.OnBoundary ∧
      step perCharacter List.length (.handleKey ⟨.left, false, false⟩) s = none ∧
      ¬ Sound perCharacter List.length s := by
  have hrun : StepSystem.run (step perCharacter List.length)
      [.insertStr ['a', Char.ofNat 0x3000, 'b'], .handleKey ⟨.left, true, false⟩] {} =
        some { buffer := ⟨['a', Char.ofNat 0x3000, 'b'], 2⟩, generation := 1 } := rfl
  have hpanic : step perCharacter List.length (.handleKey ⟨.left, false, false⟩)
      { buffer := ⟨['a', Char.ofNat 0x3000, 'b'], 2⟩, generation := 1 } = none := rfl
  have hboundary : ¬ InputBuffer.OnBoundary ⟨['a', Char.ofNat 0x3000, 'b'], 2⟩ := by
    rintro ⟨pre, post, htext, hcursor⟩
    have hsplit := splitAt_size pre post
    rw [← htext, ← hcursor] at hsplit
    cases hsplit
  exact ⟨_, hrun, rfl, hboundary, hpanic, fun h => hboundary h.boundary⟩

end InputField

end Choreo
