import Choreo.Tools.ReadFile
import Choreo.Tools.Recap

/-!
# The reports of the file-read tools in the transcript

When `read_file` or `read_file_range` stops at its budget, it appends a report of how much it has
shown (`choreo-daemon/src/tools/read_file.rs`, `read_file_range.rs`). The budget is that of the
lines only: the header and the report come on top of it. `record_tool_completion`
(`choreo-daemon/src/requests/tool_execution.rs`) caps the whole at the same number of bytes, and
cuts it at the end, where the report is.
-/

namespace Choreo

open List

section StopsAfter

variable (unicode : FormatCategory)

theorem mapM_cons_eq_ok {α β ε : Type} {f : α → Except ε β} {a : α} {b : β} (ha : f a = .ok b)
    (as : List α) (bs : List β) :
    (a :: as).mapM f = .ok bs ↔ ∃ bs', as.mapM f = .ok bs' ∧ bs = b :: bs' := by
  rw [mapM_cons, ha]
  rcases as.mapM f with error | bs'
  · exact iff_of_false (fun h => by cases h) (by rintro ⟨_, h, -⟩; cases h)
  · constructor
    · rintro h
      exact ⟨bs', rfl, (Except.ok.inj h).symm⟩
    · rintro ⟨_, h, rfl⟩
      obtain rfl := Except.ok.inj h
      rfl

theorem forall_mem_of_mapM_eq_ok {α β ε : Type} {f : α → Except ε β} {P : β → Prop}
    (hP : ∀ a b, f a = .ok b → P b) {as : List α} {bs : List β} (h : as.mapM f = .ok bs) :
    ∀ b ∈ bs, P b := by
  induction as generalizing bs with
  | nil =>
    obtain rfl : [] = bs := Except.ok.inj h
    exact forall_mem_nil P
  | cons a as ih =>
    rcases ha : f a with error | b
    · rw [mapM_cons, ha] at h
      cases h
    · obtain ⟨bs', hbs', rfl⟩ := (mapM_cons_eq_ok ha as bs).1 h
      exact forall_mem_cons.2 ⟨hP a b ha, ih hbs'⟩

/-- The output stops after some lines: they are shown, they fit, and with the next one they do
not. -/
def StopsAfter (path : Text) (numbered : Bool) (room : ℕ) (lines : List StreamedLine)
    (texts : List Text) : Prop :=
  ∃ before line after display, lines = before ++ line :: after ∧
    before.mapM (renderStreamedLine unicode · path numbered) = .ok texts ∧
    renderStreamedLine unicode line path numbered = .ok display ∧
    Utf8.size (body texts) ≤ room ∧ room < Utf8.size (body texts) + (Utf8.size display + 1)

/-- These are the lines that the budget lets through when it does not let through all. -/
theorem shownLines_eq_iff_stopsAfter (path : Text) (numbered : Bool) (room : ℕ)
    (lines : List StreamedLine) (texts : List Text) :
    shownLines unicode path numbered room lines = .ok (texts, true) ↔
      StopsAfter unicode path numbered room lines texts := by
  induction lines generalizing room texts with
  | nil =>
    refine iff_of_false (fun h => by cases h) ?_
    rintro ⟨before, line, after, display, hlines, -⟩
    exact absurd hlines.symm (append_ne_nil_of_right_ne_nil _ (cons_ne_nil _ _))
  | cons first lines ih =>
    rcases hrender : renderStreamedLine unicode first path numbered with error | display
    · refine iff_of_false (fun h => ?_) ?_
      · rw [shownLines, hrender] at h
        cases h
      · rintro ⟨- | ⟨other, before⟩, line, after, display, hlines, hbefore, hline, -⟩
        · obtain ⟨rfl, -⟩ := cons.inj hlines
          rw [hrender] at hline
          cases hline
        · obtain ⟨rfl, -⟩ := cons.inj hlines
          rw [mapM_cons, hrender] at hbefore
          cases hbefore
    · have hmapM (before : List StreamedLine) (texts : List Text) :=
        mapM_cons_eq_ok (f := (renderStreamedLine unicode · path numbered)) hrender before texts
      by_cases hfits : Utf8.size display + 1 ≤ room
      · have hcons : shownLines unicode path numbered room (first :: lines) =
            (shownLines unicode path numbered (room - (Utf8.size display + 1)) lines).map
              fun rest => (display :: rest.1, rest.2) := by
          rw [shownLines, hrender]
          simp only [bind, Except.bind, if_pos hfits]
          rfl
        rw [hcons]
        constructor
        · rintro h
          rcases hrest : shownLines unicode path numbered (room - (Utf8.size display + 1))
              lines with error | ⟨texts', more⟩
          · rw [hrest] at h
            cases h
          · rw [hrest] at h
            obtain ⟨rfl, rfl⟩ := Prod.mk.inj (Except.ok.inj h)
            obtain ⟨before, line, after, next, rfl, hbefore, hline, hle, hlt⟩ := (ih _ _).1 hrest
            refine ⟨first :: before, line, after, next, rfl,
              (hmapM before _).2 ⟨texts', hbefore, rfl⟩, hline, ?_, ?_⟩
            all_goals
              dsimp only
              rw [size_body_cons]
              omega
        · rintro ⟨- | ⟨other, before⟩, line, after, next, hlines, hbefore, hline, hle, hlt⟩
          · obtain ⟨rfl, -⟩ := cons.inj hlines
            obtain rfl : [] = texts := Except.ok.inj hbefore
            rw [hrender] at hline
            obtain rfl := Except.ok.inj hline
            rw [body, flatMap_nil, Utf8.size_nil] at hlt
            omega
          · obtain ⟨rfl, hlines'⟩ := cons.inj hlines
            obtain ⟨texts', hbefore', rfl⟩ := (hmapM before _).1 hbefore
            rw [size_body_cons] at hle hlt
            have hrest := (ih (room - (Utf8.size display + 1)) texts').2
              ⟨before, line, after, next, hlines', hbefore', hline, by omega, by omega⟩
            rw [hrest]
            rfl
      · have hcons : shownLines unicode path numbered room (first :: lines) = .ok ([], true) := by
          rw [shownLines, hrender]
          simp only [bind, Except.bind, if_neg hfits]
        rw [hcons]
        constructor
        · rintro h
          obtain ⟨rfl, -⟩ := Prod.mk.inj (Except.ok.inj h)
          exact ⟨[], first, lines, display, rfl, rfl, hrender, Nat.zero_le _, by
            rw [body, flatMap_nil, Utf8.size_nil]; omega⟩
        · rintro ⟨- | ⟨other, before⟩, line, after, next, hlines, hbefore, hline, hle, -⟩
          · obtain rfl : [] = texts := Except.ok.inj hbefore
            rfl
          · obtain ⟨rfl, -⟩ := cons.inj hlines
            obtain ⟨texts', -, rfl⟩ := (hmapM before _).1 hbefore
            rw [size_body_cons] at hle
            omega

end StopsAfter

/-! ### Escaped lines -/

section Clean

variable {unicode : FormatCategory}

theorem clean_escapeDefault (c : Char) : Clean unicode (escapeDefault c) :=
  clean_of_ascii (escapeDefault_ascii c)

theorem isNonJoinerFormatChar_of_keeps {c : Char} {keepTabs : Bool}
    (h : sanitizeKeeps unicode c keepTabs = true) : isNonJoinerFormatChar unicode c = false := by
  rw [sanitizeKeeps] at h
  split_ifs at h with hascii
  · exact isNonJoinerFormatChar_of_ascii hascii
  · rw [Bool.and_eq_true, isUnsafeUnicode] at h
    simpa using (by simpa using h.2 : _ ∧ _).2

theorem ascii_of_isPlainAscii {text : Text} {keepTabs : Bool}
    (h : isPlainAscii text keepTabs = true) : ∀ c ∈ text, c.toNat < 0x80 := by
  refine ascii_of_all_plain (all_eq_true.2 fun b hb => ?_)
  have hplain := all_eq_true.1 h b hb
  rcases Bool.or_eq_true_iff.1 hplain with htab | hprintable
  · rw [beq_iff_eq.1 (Bool.and_eq_true_iff.1 htab).1]
    decide
  · simp only [Bool.and_eq_true, decide_eq_true_eq] at hprintable
    simp only [isPlainByte, Bool.and_eq_true, Bool.or_eq_true, decide_eq_true_eq]
    exact ⟨by omega, .inl (.inl (.inl hprintable.1))⟩

theorem clean_sanitizeText (text : Text) (keepTabs : Bool) :
    Clean unicode (sanitizeText unicode text keepTabs) := by
  rw [sanitizeText]
  split_ifs with hplain
  · exact clean_of_ascii (ascii_of_isPlainAscii hplain)
  · rintro d hd
    obtain ⟨c, -, hd⟩ := mem_flatMap.1 hd
    split_ifs at hd with hkeeps
    · obtain rfl := mem_singleton.1 hd
      exact isNonJoinerFormatChar_of_keeps hkeeps
    · exact clean_escapeDefault c d hd

theorem clean_sanitizeContent (text : Text) : Clean unicode (sanitizeContent unicode text) :=
  clean_sanitizeText text true

/-- A line that is shown has no format characters. -/
theorem clean_renderStreamedLine {line : StreamedLine} {path display : Text} {numbered : Bool}
    (h : renderStreamedLine unicode line path numbered = .ok display) : Clean unicode display := by
  have hsuffix : Clean unicode lineSuffix := clean_of_ascii (Utf8.ascii_of_all (by decide))
  have hbar : Clean unicode " | ".toList := clean_of_ascii (Utf8.ascii_of_all (by decide))
  rw [renderStreamedLine] at h
  rcases hnul : line.content.findIdx? (· == 0) with - | pos
  · rw [hnul] at h
    rcases htext : lineText line path with error | text
    · rw [htext] at h
      cases h
    · rw [htext] at h
      have hcontent := @clean_sanitizeContent unicode (stripSuffix '\r' (stripSuffix '\n' text))
      obtain rfl := Except.ok.inj h
      have hnumber : Clean unicode (Nat.toDigits 10 line.lineNumber ++ " | ".toList) :=
        clean_append.2 ⟨clean_of_ascii (toDigits_ascii (by decide) _), hbar⟩
      split_ifs
      · exact clean_append.2 ⟨hnumber, hcontent⟩
      · exact hcontent
      · exact clean_append.2 ⟨clean_append.2 ⟨hnumber, hcontent⟩, hsuffix⟩
      · exact clean_append.2 ⟨hcontent, hsuffix⟩
  · rw [hnul] at h
    cases h

theorem clean_body {texts : List Text} (h : ∀ text ∈ texts, Clean unicode text) :
    Clean unicode (body texts) := by
  rintro c hc
  obtain ⟨text, htext, hc⟩ := mem_flatMap.1 hc
  rcases mem_append.1 hc with hc | hc
  · exact h text htext c hc
  · rw [mem_singleton.1 hc]
    exact isNonJoinerFormatChar_of_ascii (by decide)

end Clean

/-! ### The cap -/

variable {unicode : FormatCategory}

/-- A text that ends otherwise than a cut is a suffix of the recorded content exactly if the content
is not cut. -/
theorem suffix_recordedContent_iff {header rest report start : Text}
    {c : Char} (hclean : Clean unicode (rest ++ report)) (hreport : report = start ++ [c, ']'])
    (hc : c ≠ 'd') :
    report <:+ recordedContent unicode (header ++ (rest ++ report)) ↔
      Utf8.size (sanitizeTranscript unicode header) + (Utf8.size rest + Utf8.size report) ≤
        maxToolOutputBytes := by
  have hsuffix : truncationSuffix = "\n...[truncate".toList ++ ['d', ']'] := by decide
  rw [recordedContent, sanitizeTranscript_append, hclean.sanitizeTranscript, truncateToolOutput,
    truncateToolOutputAt, Utf8.size_append, Utf8.size_append]
  by_cases hfits : Utf8.size (sanitizeTranscript unicode header) +
      (Utf8.size rest + Utf8.size report) ≤ maxToolOutputBytes
  · rw [if_pos hfits]
    exact iff_of_true ⟨sanitizeTranscript unicode header ++ rest, append_assoc ..⟩ hfits
  · rw [if_neg hfits]
    refine iff_of_false ?_ hfits
    rintro ⟨before, hbefore⟩
    -- a cut ends with other characters than the report
    rw [hreport, hsuffix, ← append_assoc, ← append_assoc] at hbefore
    obtain ⟨-, hlast⟩ := append_inj' hbefore rfl
    exact hc (cons.inj hlast).1

variable (shownBytes totalBytes totalLines : ℕ)

/-! ### The reports -/

theorem readFileReport_eq :
    ∃ start, readFileReport shownBytes totalBytes totalLines = start ++ ['t', ']'] := by
  have hend : " line(s) — use read_file_range for the rest]".toList =
      " line(s) — use read_file_range for the res".toList ++ ['t', ']'] := by decide +kernel
  delta readFileReport
  rw [hend, ← append_assoc]
  exact ⟨_, rfl⟩

variable (shownBytes headerLen totalBytes linesShown totalLines : ℕ)

theorem readFileRangeReport_eq :
    ∃ start, readFileRangeReport shownBytes headerLen totalBytes linesShown totalLines =
      start ++ ['e', ']'] := by
  have hend : " lines) — use a smaller range]".toList =
      " lines) — use a smaller rang".toList ++ ['e', ']'] := by decide +kernel
  delta readFileRangeReport
  rw [hend, ← append_assoc]
  exact ⟨_, rfl⟩

theorem clean_of_all {text : Text}
    (h : (text.all fun c => !isNonJoinerFormatChar unicode c) = true) : Clean unicode text :=
  fun c hc => by simpa using all_eq_true.1 h c hc

theorem clean_toDigits (n : ℕ) : Clean unicode (Nat.toDigits 10 n) :=
  clean_of_ascii (toDigits_ascii (by decide) n)

theorem clean_readFileReport :
    Clean .listed (readFileReport shownBytes totalBytes totalLines) := by
  have hend : Clean .listed " line(s) — use read_file_range for the rest]".toList :=
    clean_of_all (by decide +kernel)
  delta readFileReport
  simp only [clean_append, clean_toDigits, hend, and_true]
  exact ⟨⟨clean_of_ascii (Utf8.ascii_of_all (by decide)),
    clean_of_ascii (Utf8.ascii_of_all (by decide))⟩,
    clean_of_ascii (Utf8.ascii_of_all (by decide))⟩

theorem clean_readFileRangeReport :
    Clean .listed
      (readFileRangeReport shownBytes headerLen totalBytes linesShown totalLines) := by
  have hend : Clean .listed " lines) — use a smaller range]".toList :=
    clean_of_all (by decide +kernel)
  delta readFileRangeReport
  simp only [clean_append, clean_toDigits, hend, and_true]
  exact ⟨⟨⟨clean_of_ascii (Utf8.ascii_of_all (by decide)),
    clean_of_ascii (Utf8.ascii_of_all (by decide))⟩,
    clean_of_ascii (Utf8.ascii_of_all (by decide))⟩,
    clean_of_ascii (Utf8.ascii_of_all (by decide))⟩

variable {texts : List Text}

theorem StopsAfter.clean {path : Text} {numbered : Bool} {room : ℕ}
    {lines : List StreamedLine}
    (h : StopsAfter unicode path numbered room lines texts) : Clean unicode (body texts) := by
  obtain ⟨before, -, -, -, -, hbefore, -⟩ := h
  exact clean_body (forall_mem_of_mapM_eq_ok (fun _ _ => clean_renderStreamedLine) hbefore)

variable (reader : Reader) (argPath path : Text)

def FileReportKept : Prop :=
  trim (String.ofList argPath) ≠ "" → ¬ BadHead reader →
    ∀ texts, StopsAfter .listed path false maxToolOutputBytes
      (streamedLines 0 0 (fileLines reader.content)) texts →
    ∃ output, executeReadFile .listed argPath path (.ok reader) = .ok output ∧
      readFileReport (Utf8.size (body texts)) reader.content.length
        (fileLines reader.content).length <:+ recordedContent .listed output

def RangeReportKept (start max : ℕ) : Prop :=
  trim (String.ofList argPath) ≠ "" → 0 < start → 0 < max → max ≤ maxReadFileRangeLines →
    ¬ BadHead reader →
    ∀ texts, StopsAfter .listed path true maxToolOutputBytes
      (windowLines start max reader.content) texts →
    ∃ output, executeReadFileRange .listed argPath path start max (.ok reader) = .ok output ∧
      readFileRangeReport (Utf8.size (body texts))
        (Utf8.size (readFileRangeHeader path start max (fileLines reader.content).length
          texts.length true))
        reader.content.length texts.length (fileLines reader.content).length <:+
        recordedContent .listed output

theorem executeReadFile_of_stopsAfter {reader : Reader} {argPath path : Text}
    (hpath : trim (String.ofList argPath) ≠ "") (hhead : ¬ BadHead reader)
    (h : StopsAfter .listed path false maxToolOutputBytes
      (streamedLines 0 0 (fileLines reader.content)) texts) :
    executeReadFile .listed argPath path (.ok reader) =
      .ok (body texts ++ readFileReport (Utf8.size (body texts)) reader.content.length
        (fileLines reader.content).length) := by
  have hopen : openTextReader path (.ok reader) = .ok reader :=
    ((openTextReader_cases path reader).resolve_left (by rintro ⟨_, h, -⟩; exact hhead h)).2
  have hshown := (shownLines_eq_iff_stopsAfter .listed path false maxToolOutputBytes _ texts).2 h
  rw [executeReadFile_eq, if_neg hpath, hopen]
  simp only [Except.bind, fileText, hshown, bind, if_true, length_streamedLines]

theorem executeReadFileRange_of_stopsAfter {reader : Reader} {argPath path : Text} {start max : ℕ}
    (hpath : trim (String.ofList argPath) ≠ "") (hstart : 0 < start) (hmax : 0 < max)
    (hmany : max ≤ maxReadFileRangeLines) (hhead : ¬ BadHead reader)
    (h : StopsAfter .listed path true maxToolOutputBytes
      (windowLines start max reader.content) texts) :
    executeReadFileRange .listed argPath path start max (.ok reader) =
      .ok (readFileRangeHeader path start max (fileLines reader.content).length texts.length true ++
        (body texts ++ readFileRangeReport (Utf8.size (body texts))
          (Utf8.size (readFileRangeHeader path start max (fileLines reader.content).length
            texts.length true))
          reader.content.length texts.length (fileLines reader.content).length)) := by
  have hopen : openTextReader path (.ok reader) = .ok reader :=
    ((openTextReader_cases path reader).resolve_left (by rintro ⟨_, h, -⟩; exact hhead h)).2
  have hshown := (shownLines_eq_iff_stopsAfter .listed path true maxToolOutputBytes _ texts).2 h
  -- the range has a line, so it begins within the file
  have hwithin : ¬ (fileLines reader.content).length < start := by
    intro hpast
    obtain ⟨before, line, after, -, hlines, -⟩ := h
    have hlength := congrArg List.length hlines
    rw [windowLines, length_take, length_drop, length_streamedLines, length_append,
      length_cons] at hlength
    omega
  rw [executeReadFileRange_eq, if_neg hpath, if_neg hstart.ne', if_neg hmax.ne',
    if_neg (Nat.not_lt.2 hmany), hopen]
  simp only [Except.bind, rangeText, hshown, bind, if_neg hwithin, if_true, append_assoc]

theorem fileReportKept_iff :
    FileReportKept reader argPath path ↔
      (trim (String.ofList argPath) ≠ "" → ¬ BadHead reader →
        ∀ texts, StopsAfter .listed path false maxToolOutputBytes
          (streamedLines 0 0 (fileLines reader.content)) texts →
        Utf8.size (body texts) + Utf8.size (readFileReport (Utf8.size (body texts))
          reader.content.length (fileLines reader.content).length) ≤ maxToolOutputBytes) := by
  refine imp_congr_right fun hpath => imp_congr_right fun hhead => forall_congr' fun texts =>
    imp_congr_right fun hstops => ?_
  have houtput := executeReadFile_of_stopsAfter hpath hhead hstops
  obtain ⟨start, hreport⟩ := readFileReport_eq (Utf8.size (body texts)) reader.content.length
    (fileLines reader.content).length
  have hclean := clean_append.2 ⟨hstops.clean, clean_readFileReport (Utf8.size (body texts))
    reader.content.length (fileLines reader.content).length⟩
  have hsuffix := @suffix_recordedContent_iff .listed [] _ _ _ _ hclean hreport (by decide)
  have hempty : Utf8.size (sanitizeTranscript .listed []) = 0 := rfl
  rw [nil_append, hempty, Nat.zero_add] at hsuffix
  rw [← hsuffix, houtput]
  constructor
  · rintro ⟨output, hok, hkept⟩
    obtain rfl := Except.ok.inj hok
    exact hkept
  · rintro hkept
    exact ⟨_, rfl, hkept⟩

theorem rangeReportKept_iff (start max : ℕ) :
    RangeReportKept reader argPath path start max ↔
      (trim (String.ofList argPath) ≠ "" → 0 < start → 0 < max → max ≤ maxReadFileRangeLines →
        ¬ BadHead reader →
        ∀ texts, StopsAfter .listed path true maxToolOutputBytes
          (windowLines start max reader.content) texts →
        Utf8.size (sanitizeTranscript .listed (readFileRangeHeader path start max
            (fileLines reader.content).length texts.length true)) +
          (Utf8.size (body texts) + Utf8.size (readFileRangeReport (Utf8.size (body texts))
            (Utf8.size (readFileRangeHeader path start max (fileLines reader.content).length
              texts.length true))
            reader.content.length texts.length (fileLines reader.content).length)) ≤
          maxToolOutputBytes) := by
  refine imp_congr_right fun hpath => imp_congr_right fun hstart => imp_congr_right fun hmax =>
    imp_congr_right fun hmany => imp_congr_right fun hhead => forall_congr' fun texts =>
    imp_congr_right fun hstops => ?_
  have houtput := executeReadFileRange_of_stopsAfter hpath hstart hmax hmany hhead hstops
  obtain ⟨first, hreport⟩ := readFileRangeReport_eq (Utf8.size (body texts))
    (Utf8.size (readFileRangeHeader path start max (fileLines reader.content).length texts.length
      true)) reader.content.length texts.length (fileLines reader.content).length
  have hclean := clean_append.2 ⟨hstops.clean, clean_readFileRangeReport (Utf8.size (body texts))
    (Utf8.size (readFileRangeHeader path start max (fileLines reader.content).length texts.length
      true)) reader.content.length texts.length (fileLines reader.content).length⟩
  rw [← suffix_recordedContent_iff hclean hreport (by decide), houtput]
  constructor
  · rintro ⟨output, hok, hkept⟩
    obtain rfl := Except.ok.inj hok
    exact hkept
  · rintro hkept
    exact ⟨_, rfl, hkept⟩

/-- The reports of both tools are kept. -/
structure ReportsKept (reader : Reader) (argPath path : Text) (start max : ℕ) : Prop where
  readFile : FileReportKept reader argPath path
  readFileRange : RangeReportKept reader argPath path start max

/-- What the tools show when they stop, with the header and the report, is within the cap. -/
structure ReportsFit (reader : Reader) (argPath path : Text) (start max : ℕ) : Prop where
  /-- The lines and the report of `read_file`. -/
  readFile : trim (String.ofList argPath) ≠ "" → ¬ BadHead reader →
    ∀ texts, StopsAfter .listed path false maxToolOutputBytes
      (streamedLines 0 0 (fileLines reader.content)) texts →
    Utf8.size (body texts) + Utf8.size (readFileReport (Utf8.size (body texts))
      reader.content.length (fileLines reader.content).length) ≤ maxToolOutputBytes
  /-- The header, as it is escaped, the lines and the report of `read_file_range`. -/
  readFileRange : trim (String.ofList argPath) ≠ "" → 0 < start → 0 < max →
    max ≤ maxReadFileRangeLines → ¬ BadHead reader →
    ∀ texts, StopsAfter .listed path true maxToolOutputBytes
      (windowLines start max reader.content) texts →
    Utf8.size (sanitizeTranscript .listed (readFileRangeHeader path start max
        (fileLines reader.content).length texts.length true)) +
      (Utf8.size (body texts) + Utf8.size (readFileRangeReport (Utf8.size (body texts))
        (Utf8.size (readFileRangeHeader path start max (fileLines reader.content).length
          texts.length true))
        reader.content.length texts.length (fileLines reader.content).length)) ≤
      maxToolOutputBytes

/-- The reports are kept exactly if they are within the cap, with what is shown. -/
theorem reportsKept_iff (reader : Reader) (argPath path : Text) (start max : ℕ) :
    ReportsKept reader argPath path start max ↔ ReportsFit reader argPath path start max := by
  have hfile := fileReportKept_iff reader argPath path
  have hrange := rangeReportKept_iff reader argPath path start max
  constructor
  · rintro ⟨hfileKept, hrangeKept⟩
    exact ⟨hfile.1 hfileKept, hrange.1 hrangeKept⟩
  · rintro ⟨hfileFits, hrangeFits⟩
    exact ⟨hfile.2 hfileFits, hrange.2 hrangeFits⟩

theorem shownLines_letters (unicode : FormatCategory) {n room : ℕ}
    (hn : n + 1 ≤ maxLineDisplayBytes) (hroom : n + 1 ≤ room) (number offset : ℕ) (path : Text)
    (lines : List StreamedLine) :
    shownLines unicode path false room (TextStream.lineOf number offset (letters n) :: lines) =
      (shownLines unicode path false (room - (n + 1)) lines).map fun rest =>
        (List.replicate n 'a' :: rest.1, rest.2) := by
  rw [shownLines, renderStreamedLine_letters unicode hn]
  simp only [bind, Except.bind, size_replicate_letter, if_pos hroom]
  rfl

/-- Two lines that fill the cap, and another. -/
def fullFile (n : ℕ) : Bytes := letters n ++ (letters n ++ (letters 0 ++ []))

/-- The report is cut off when the lines fill the cap. -/
theorem not_reportsKept : ¬ ∀ (reader : Reader) (argPath path : Text) (start max : ℕ),
    ReportsKept reader argPath path start max := by
  rintro h
  obtain ⟨n, hn⟩ : ∃ n : ℕ, n = 65535 := ⟨_, rfl⟩
  have hcap : n + 1 ≤ maxLineDisplayBytes := by rw [hn]; decide
  have hbudget : maxToolOutputBytes = n + 1 + (n + 1) := by rw [hn]; rfl
  have hlines : streamedLines 0 0 (fileLines (fullFile n)) =
      [TextStream.lineOf 1 0 (letters n), TextStream.lineOf 2 (n + 1) (letters n),
        TextStream.lineOf 3 (n + 1 + (n + 1)) (letters 0)] := by
    rw [fullFile, fileLines_letters, fileLines_letters, fileLines_letters]
    simp only [fileLines, streamedLines, length_letters, Nat.zero_add]
  have hstops : StopsAfter .listed ['a'] false maxToolOutputBytes
      (streamedLines 0 0 (fileLines (fullFile n)))
      [List.replicate n 'a', List.replicate n 'a'] := by
    rw [← shownLines_eq_iff_stopsAfter, hlines, shownLines_letters .listed hcap (by omega),
      shownLines_letters .listed hcap (by omega), shownLines,
      renderStreamedLine_letters .listed (by decide)]
    have hfull : ¬ Utf8.size (List.replicate 0 'a') + 1 ≤
        maxToolOutputBytes - (n + 1) - (n + 1) := by omega
    simp only [bind, Except.bind, if_neg hfull]
    rfl
  have hhead : ¬ BadHead (bytewise (fullFile n)) := by
    obtain ⟨m, rfl⟩ : ∃ m, n = m + 1 := ⟨n - 1, by omega⟩
    rintro (hnul | ⟨e, he, -⟩)
    · exact absurd (mem_singleton.1 hnul) (by decide)
    · cases he
  have hkept := (h (bytewise (fullFile n)) ['a'] ['a'] 1 1).readFile
  rw [fileReportKept_iff, content_bytewise] at hkept
  have hfits := hkept (by decide) hhead _ hstops
  obtain ⟨first, hreport⟩ := readFileReport_eq
    (Utf8.size (body [List.replicate n 'a', List.replicate n 'a'])) (fullFile n).length
    (fileLines (fullFile n)).length
  have hlast : Utf8.size ['t', ']'] = 2 := rfl
  rw [hreport, Utf8.size_append, hlast, size_body_cons, size_body_cons, size_replicate_letter]
    at hfits
  omega

end Choreo
