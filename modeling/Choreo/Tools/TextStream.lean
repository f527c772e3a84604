import Choreo.Tools.Sanitize

/-!
# Lines of a file that is read in pieces

The file-read tools read a file line by line and never keep more than a capped line of it
(`TextStream` of `choreo-daemon/src/tools/text_stream.rs`). The reader hands out the file in pieces
of any size; a line may begin in one piece and end in another, and a line over the cap is drained.
Whatever the pieces are, the stream yields the lines of the file.
-/

namespace Choreo

open List

/-! ### Readers -/

/-- What is left of a file, in the pieces in which it will be read. An empty piece is the end. -/
structure Reader where
  pieces : List Bytes
  nonempty : ∀ piece ∈ pieces, piece ≠ []

namespace Reader

variable (r : Reader)

/-- What is left of the file. -/
def content : Bytes := r.pieces.flatten

/-- The piece that can be read next. -/
def fillBuf : Bytes := r.pieces.headD []

/-- The pieces without their first bytes. -/
def dropPieces (n : ℕ) : List Bytes → List Bytes
  | [] => []
  | piece :: pieces => if piece.length ≤ n then pieces else piece.drop n :: pieces

theorem dropPieces_nonempty {n : ℕ} {pieces : List Bytes} (h : ∀ piece ∈ pieces, piece ≠ []) :
    ∀ piece ∈ dropPieces n pieces, piece ≠ [] := by
  rcases pieces with - | ⟨piece, pieces⟩
  · exact h
  · rw [dropPieces]
    split_ifs with hall
    · exact fun other hother => h other (mem_cons_of_mem _ hother)
    · refine forall_mem_cons.2
        ⟨?_, fun other hother => h other (mem_cons_of_mem _ hother)⟩
      rw [ne_eq, drop_eq_nil_iff]
      exact hall

/-- The reader after some bytes of its next piece were used. -/
def consume (n : ℕ) : Reader := ⟨dropPieces n r.pieces, dropPieces_nonempty r.nonempty⟩

theorem fillBuf_eq_nil_iff : r.fillBuf = [] ↔ r.content = [] := by
  rcases r with ⟨- | ⟨piece, pieces⟩, h⟩
  · exact Iff.rfl
  · have hne := h piece mem_cons_self
    refine iff_of_false hne fun hnil => hne ?_
    exact (append_eq_nil_iff.1 hnil).1

/-- The next piece comes first. -/
theorem content_eq : ∃ rest, r.content = r.fillBuf ++ rest := by
  rcases r with ⟨- | ⟨piece, pieces⟩, h⟩
  · exact ⟨[], rfl⟩
  · exact ⟨pieces.flatten, rfl⟩

theorem content_consume {n : ℕ} (h : n ≤ r.fillBuf.length) :
    (r.consume n).content = r.content.drop n := by
  rcases r with ⟨- | ⟨piece, pieces⟩, hne⟩
  · exact drop_nil.symm
  · have hn : n ≤ piece.length := h
    have hcontent : (Reader.content ⟨piece :: pieces, hne⟩) = piece ++ pieces.flatten := rfl
    rw [hcontent, drop_append_of_le_length hn, consume, content]
    simp only [dropPieces]
    split_ifs with hall
    · rw [drop_eq_nil_of_le hall, nil_append]
    · rfl

end Reader

/-! ### Lines -/

/-- The byte that ends a line. -/
def newline : UInt8 := 0x0A

def lineLength : Bytes → ℕ
  | [] => 0
  | b :: bytes => if b = newline then 1 else lineLength bytes + 1

/-- The lines of a file, each with its newline; the last one may have none. -/
def fileLines : Bytes → List Bytes
  | [] => []
  | b :: bytes =>
    if b = newline then [b] :: fileLines bytes
    else match fileLines bytes with
      | [] => [[b]]
      | line :: lines => (b :: line) :: lines

variable {bytes : Bytes}

theorem lineLength_append (h : newline ∉ bytes) (rest : Bytes) :
    lineLength (bytes ++ rest) = bytes.length + lineLength rest := by
  induction bytes with
  | nil => rw [nil_append, length_nil, Nat.zero_add]
  | cons b bytes ih =>
    rw [mem_cons, not_or] at h
    rw [cons_append, lineLength, if_neg (Ne.symm h.1), ih h.2, length_cons]
    omega

theorem lineLength_of_newline (h : newline ∉ bytes) (rest : Bytes) :
    lineLength (bytes ++ newline :: rest) = bytes.length + 1 := by
  rw [lineLength_append h, lineLength, if_pos rfl]

theorem lineLength_le (bytes : Bytes) : lineLength bytes ≤ bytes.length := by
  induction bytes with
  | nil => exact le_rfl
  | cons b bytes ih =>
    rw [lineLength, length_cons]
    split_ifs
    all_goals omega

theorem lineLength_pos (h : bytes ≠ []) : 0 < lineLength bytes := by
  rcases bytes with - | ⟨b, bytes⟩
  · exact absurd rfl h
  · rw [lineLength]
    split_ifs
    all_goals omega

theorem lineLength_drop {n : ℕ} (h : n < lineLength bytes) :
    lineLength (bytes.drop n) = lineLength bytes - n := by
  induction bytes generalizing n with
  | nil => exact absurd h (Nat.not_lt_zero n)
  | cons b bytes ih =>
    rcases n with - | n
    · rfl
    · rw [lineLength] at h ⊢
      split_ifs at h ⊢ with hb
      · omega
      · rw [drop_succ_cons, ih (by omega)]
        omega

theorem fileLines_eq (h : bytes ≠ []) :
    fileLines bytes =
      bytes.take (lineLength bytes) :: fileLines (bytes.drop (lineLength bytes)) := by
  induction bytes with
  | nil => exact absurd rfl h
  | cons b bytes ih =>
    rw [fileLines, lineLength]
    by_cases hb : b = newline
    · rw [if_pos hb, if_pos hb]
      rfl
    · rw [if_neg hb, if_neg hb, take_succ_cons, drop_succ_cons]
      by_cases hbytes : bytes = []
      · rw [hbytes]
        rfl
      · rw [ih hbytes]

theorem flatten_fileLines (bytes : Bytes) : (fileLines bytes).flatten = bytes := by
  induction bytes with
  | nil => rfl
  | cons b bytes ih =>
    rw [fileLines]
    split_ifs
    · rw [flatten_cons, ih, singleton_append]
    · rcases hlines : fileLines bytes with - | ⟨line, lines⟩
      · rw [← ih, hlines]
        rfl
      · rw [← ih, hlines]
        rfl

/-- Every line has at most one newline, at its end. -/
theorem fileLines_shape (bytes : Bytes) :
    ∀ line ∈ fileLines bytes, line ≠ [] ∧ newline ∉ line.dropLast := by
  induction bytes with
  | nil => exact fun line hline => absurd hline not_mem_nil
  | cons b bytes ih =>
    rw [fileLines]
    split_ifs with hb
    · refine forall_mem_cons.2 ⟨⟨cons_ne_nil _ _, not_mem_nil⟩, ih⟩
    · rcases hlines : fileLines bytes with - | ⟨first, lines⟩
      · exact forall_mem_singleton.2 ⟨cons_ne_nil _ _, not_mem_nil⟩
      · rw [hlines, forall_mem_cons] at ih
        refine forall_mem_cons.2 ⟨⟨cons_ne_nil _ _, ?_⟩, ih.2⟩
        rw [dropLast_cons_of_ne_nil ih.1.1, mem_cons, not_or]
        exact ⟨Ne.symm hb, ih.1.2⟩

/-- Every line but the last ends with a newline. -/
theorem getLast?_fileLines (bytes : Bytes) :
    ∀ line ∈ (fileLines bytes).dropLast, line.getLast? = some newline := by
  induction bytes with
  | nil => exact fun line hline => absurd hline not_mem_nil
  | cons b bytes ih =>
    rw [fileLines]
    rcases hlines : fileLines bytes with - | ⟨first, lines⟩
    · split_ifs
      all_goals exact fun line hline => absurd hline not_mem_nil
    · rw [hlines] at ih
      split_ifs with hb
      · rw [dropLast_cons_of_ne_nil (cons_ne_nil _ _)]
        exact forall_mem_cons.2 ⟨congrArg some hb, ih⟩
      · rcases lines with - | ⟨second, lines⟩
        · exact fun line hline => absurd hline not_mem_nil
        · rw [dropLast_cons_of_ne_nil (cons_ne_nil _ _), forall_mem_cons] at ih ⊢
          refine ⟨?_, ih.2⟩
          rcases first with - | ⟨c, first⟩
          · cases ih.1
          · exact ih.1

/-! ### Reading a line -/

/-- The most bytes of a line that are kept. -/
def maxLineDisplayBytes : ℕ := 64 * 1024

theorem length_content_consume_lt (r : Reader) {n : ℕ} (hpos : 0 < n) (hle : n ≤ r.fillBuf.length) :
    (r.consume n).content.length < r.content.length := by
  obtain ⟨rest, hcontent⟩ := r.content_eq
  rw [r.content_consume hle, hcontent, length_drop, length_append]
  omega

/-- Reads a line into a buffer, up to a number of bytes: whether the line is complete, the buffer
and the reader after it. -/
def readLineCapped (cap : ℕ) (reader : Reader) (buf : Bytes) : Bool × Bytes × Reader :=
  let available := reader.fillBuf
  if _hend : available = [] then (true, buf, reader)
  else
    let remaining := cap - buf.length
    if _hfull : remaining = 0 then (false, buf, reader)
    else
      let take := min available.length remaining
      match (available.take take).findIdx? (· == newline) with
      | some idx => (true, buf ++ available.take (idx + 1), reader.consume (idx + 1))
      | none => readLineCapped cap (reader.consume take) (buf ++ available.take take)
termination_by reader.content.length
decreasing_by
  exact length_content_consume_lt reader (Nat.lt_min.2
    ⟨length_pos_of_ne_nil ‹_›, Nat.pos_of_ne_zero ‹_›⟩) (min_le_left _ _)

/-- Drops the rest of a line: the number of bytes, and the reader after it. -/
def drainRestOfLine (reader : Reader) : ℕ × Reader :=
  let available := reader.fillBuf
  if _hend : available = [] then (0, reader)
  else
    match available.findIdx? (· == newline) with
    | some idx => (idx + 1, reader.consume (idx + 1))
    | none =>
      let rest := drainRestOfLine (reader.consume available.length)
      (available.length + rest.1, rest.2)
termination_by reader.content.length
decreasing_by exact length_content_consume_lt reader (length_pos_of_ne_nil ‹_›) le_rfl

theorem exists_newline {idx : ℕ}
    (h : bytes.findIdx? (· == newline) = some idx) :
    ∃ before after, bytes = before ++ newline :: after ∧ before.length = idx ∧
      newline ∉ before := by
  obtain ⟨hlt, hidx, hbefore⟩ := List.findIdx?_eq_some_iff_getElem.1 h
  refine ⟨bytes.take idx, bytes.drop (idx + 1), ?_, length_take_of_le hlt.le, fun hmem => ?_⟩
  · rw [← eq_of_beq hidx, ← drop_eq_getElem_cons hlt, take_append_drop]
  · obtain ⟨j, hj, hget⟩ := mem_iff_getElem.1 hmem
    rw [length_take, Nat.lt_min] at hj
    rw [getElem_take] at hget
    exact hbefore j hj.1 (beq_iff_eq.2 hget)

/-- Reading a line: it is complete if it fits, and what is kept and used are its first bytes. -/
theorem readLineCapped_eq (cap : ℕ) (reader : Reader) (buf : Bytes) (hbuf : buf.length ≤ cap) :
    ∃ after : Reader,
      readLineCapped cap reader buf =
        (decide (buf.length + lineLength reader.content ≤ cap),
          buf ++ reader.content.take (min (lineLength reader.content) (cap - buf.length)), after) ∧
      after.content =
        reader.content.drop (min (lineLength reader.content) (cap - buf.length)) := by
  induction hlength : reader.content.length using Nat.strong_induction_on
    generalizing reader buf with
  | _ length ih =>
    obtain ⟨rest, hcontent⟩ := reader.content_eq
    rw [readLineCapped]
    by_cases hend : reader.fillBuf = []
    · have hnil := reader.fillBuf_eq_nil_iff.1 hend
      exact ⟨reader, by simp [hend, hnil, lineLength, hbuf], by simp [hnil, lineLength]⟩
    · have hne : reader.content ≠ [] := mt reader.fillBuf_eq_nil_iff.2 hend
      by_cases hfull : cap - buf.length = 0
      · have hpos := lineLength_pos hne
        refine ⟨reader, ?_, by rw [hfull, Nat.min_zero, drop_zero]⟩
        rw [dif_neg hend, dif_pos hfull, hfull, Nat.min_zero, take_zero, append_nil,
          decide_eq_false (by omega)]
      · rw [dif_neg hend, dif_neg hfull]
        dsimp only
        have hpos : 0 < reader.fillBuf.length := length_pos_of_ne_nil hend
        generalize htake : min reader.fillBuf.length (cap - buf.length) = n
        have hsplit : reader.content.take n = reader.fillBuf.take n := by
          rw [hcontent, take_append_of_le_length (by omega)]
        rcases hidx : (reader.fillBuf.take n).findIdx? (· == newline) with - | idx
        · have hnone : newline ∉ reader.content.take n := fun hmem => by
            rw [hsplit] at hmem
            have hfound := List.findIdx?_eq_none_iff.1 hidx _ hmem
            simp at hfound
          have hlen : (reader.content.take n).length = n := by
            rw [hsplit, length_take]
            omega
          have hline : lineLength reader.content = n + lineLength (reader.content.drop n) := by
            conv_lhs => rw [← take_append_drop n reader.content]
            rw [lineLength_append hnone, hlen]
          have hconsume := reader.content_consume (n := n) (by omega)
          have hlen' : (buf ++ reader.fillBuf.take n).length = buf.length + n := by
            rw [length_append, ← hsplit, hlen]
          obtain ⟨after, hread, hafter⟩ := ih _ (hlength ▸ length_content_consume_lt reader
            (n := n) (by omega) (by omega)) (reader.consume n) (buf ++ reader.fillBuf.take n)
              (by omega) rfl
          have hmin : min (lineLength reader.content) (cap - buf.length) =
              n + min (lineLength (reader.content.drop n)) (cap - (buf.length + n)) := by
            omega
          refine ⟨after, ?_, ?_⟩
          · rw [hread, hconsume, hlen', hmin, take_add, hsplit, append_assoc, hline,
              Nat.add_assoc]
          · rw [hafter, hconsume, hlen', hmin, List.drop_drop]
        · obtain ⟨before, behind, hbefore, hidx', hnone⟩ := exists_newline hidx
          have hline : lineLength reader.content = idx + 1 := by
            rw [← take_append_drop n reader.content, hsplit, hbefore, append_assoc,
              cons_append, lineLength_of_newline hnone, hidx']
          have hlt : idx + 1 ≤ n := by
            have hlen := congrArg List.length hbefore
            rw [length_append, length_cons, length_take] at hlen
            omega
          have hmin : min (lineLength reader.content) (cap - buf.length) = idx + 1 := by omega
          refine ⟨reader.consume (idx + 1), ?_, ?_⟩
          · rw [hmin, hcontent, take_append_of_le_length (by omega), ← hcontent, hline,
              decide_eq_true (by omega)]
          · rw [hmin]
            exact reader.content_consume (by omega)

theorem drainRestOfLine_eq (reader : Reader) :
    (drainRestOfLine reader).1 = lineLength reader.content ∧
      (drainRestOfLine reader).2.content = reader.content.drop (lineLength reader.content) := by
  induction hlength : reader.content.length using Nat.strong_induction_on generalizing reader with
  | _ length ih =>
    obtain ⟨rest, hcontent⟩ := reader.content_eq
    rw [drainRestOfLine]
    by_cases hend : reader.fillBuf = []
    · have hnil := reader.fillBuf_eq_nil_iff.1 hend
      simp [hend, hnil, lineLength]
    · rw [dif_neg hend]
      rcases hidx : reader.fillBuf.findIdx? (· == newline) with - | idx
      · have hnone : newline ∉ reader.fillBuf := fun hmem => by
          have hfound := List.findIdx?_eq_none_iff.1 hidx _ hmem
          simp at hfound
        have hconsume : (reader.consume reader.fillBuf.length).content = rest := by
          rw [reader.content_consume le_rfl, hcontent, drop_left]
        obtain ⟨hdrained, hafter⟩ := ih _ (hlength ▸ length_content_consume_lt reader
          (length_pos_of_ne_nil hend) le_rfl) (reader.consume reader.fillBuf.length) rfl
        rw [hconsume] at hdrained hafter
        dsimp only
        rw [hdrained, hafter, hcontent, lineLength_append hnone, drop_append]
        simp
      · obtain ⟨before, behind, hbefore, hidx', hnone⟩ := exists_newline hidx
        have hline : lineLength reader.content = idx + 1 := by
          rw [hcontent, hbefore, append_assoc, cons_append, lineLength_of_newline hnone,
            hidx']
        refine ⟨hline.symm, ?_⟩
        rw [hline]
        refine reader.content_consume ?_
        rw [hbefore, length_append, length_cons]
        omega

/-! ### The stream -/

/-- A line of the stream: its number, its first bytes, whether these are all of it, and where it
begins in the file. -/
structure StreamedLine where
  lineNumber : ℕ
  content : Bytes
  complete : Bool
  startOffset : ℕ
deriving DecidableEq, Repr

/-- The lines of a file as they are read, with their number and their bytes so far. -/
structure TextStream where
  reader : Reader
  linesRead : ℕ := 0
  totalBytes : ℕ := 0
  finished : Bool := false

namespace TextStream

def next (s : TextStream) : Option StreamedLine × TextStream :=
  if s.finished then (none, s)
  else
    let (complete, lineBuf, reader) := readLineCapped maxLineDisplayBytes s.reader []
    if lineBuf.isEmpty then (none, { s with reader := reader, finished := true })
    else
      let (drained, reader) := if complete then (0, reader) else drainRestOfLine reader
      (some {
        lineNumber := s.linesRead + 1
        content := lineBuf
        complete := complete
        startOffset := s.totalBytes },
      { s with
        reader := reader
        linesRead := s.linesRead + 1
        totalBytes := s.totalBytes + (lineBuf.length + drained) })

/-- The line that the stream should yield for a line of the file. -/
def lineOf (number offset : ℕ) (line : Bytes) : StreamedLine where
  lineNumber := number
  content := line.take maxLineDisplayBytes
  complete := line.length ≤ maxLineDisplayBytes
  startOffset := offset

theorem next_eq (s : TextStream) (h : s.finished = false) (hne : s.reader.content ≠ []) :
    ∃ reader : Reader, s.next =
        (some (lineOf (s.linesRead + 1) s.totalBytes
          (s.reader.content.take (lineLength s.reader.content))),
        { reader := reader, linesRead := s.linesRead + 1,
          totalBytes := s.totalBytes + lineLength s.reader.content, finished := false }) ∧
      reader.content = s.reader.content.drop (lineLength s.reader.content) := by
  obtain ⟨after, hread, hafter⟩ :=
    readLineCapped_eq maxLineDisplayBytes s.reader [] (Nat.zero_le _)
  rw [length_nil, Nat.zero_add, Nat.sub_zero, nil_append] at hread
  rw [length_nil, Nat.sub_zero] at hafter
  have hpos := lineLength_pos hne
  have hle := lineLength_le s.reader.content
  have hcap : 0 < maxLineDisplayBytes := by decide
  have hkept : (s.reader.content.take
      (min (lineLength s.reader.content) maxLineDisplayBytes)).length =
        min (lineLength s.reader.content) maxLineDisplayBytes :=
    length_take_of_le (by omega)
  have hsome : (s.reader.content.take
      (min (lineLength s.reader.content) maxLineDisplayBytes)).isEmpty = false := by
    rw [isEmpty_eq_false_iff, ← length_pos_iff, hkept]
    omega
  have hline : lineOf (s.linesRead + 1) s.totalBytes
      (s.reader.content.take (lineLength s.reader.content)) =
        { lineNumber := s.linesRead + 1
          content := s.reader.content.take
            (min (lineLength s.reader.content) maxLineDisplayBytes)
          complete := decide (lineLength s.reader.content ≤ maxLineDisplayBytes)
          startOffset := s.totalBytes } := by
    rw [lineOf, take_take, length_take_of_le hle, Nat.min_comm]
  rw [hline, next, h, hread]
  by_cases hfits : lineLength s.reader.content ≤ maxLineDisplayBytes
  · have hmin : min (lineLength s.reader.content) maxLineDisplayBytes =
        lineLength s.reader.content := min_eq_left hfits
    refine ⟨after, ?_, by rw [hafter, hmin]⟩
    rw [hmin] at hkept hsome
    simp only [hsome, hkept, hfits, hmin, decide_true, Bool.false_eq_true, if_false, if_true,
      Nat.add_zero]
  · have hmin : min (lineLength s.reader.content) maxLineDisplayBytes = maxLineDisplayBytes :=
      min_eq_right (by omega)
    obtain ⟨hdrained, hrest⟩ := drainRestOfLine_eq after
    rw [hafter, hmin, lineLength_drop (by omega)] at hdrained hrest
    refine ⟨(drainRestOfLine after).2, ?_, ?_⟩
    · simp only [hsome, hkept, hfits, hdrained, decide_false, Bool.false_eq_true, if_false]
      rw [hmin, Nat.add_sub_cancel' (by omega)]
    · rw [hrest, List.drop_drop, Nat.add_sub_cancel' (by omega)]

theorem next_nil (s : TextStream) (h : s.finished = false) (hnil : s.reader.content = []) :
    ∃ reader : Reader, s.next = (none, { s with reader := reader, finished := true }) := by
  obtain ⟨after, hread, -⟩ := readLineCapped_eq maxLineDisplayBytes s.reader [] (Nat.zero_le _)
  rw [hnil, take_nil, append_nil] at hread
  rw [next, h, hread]
  exact ⟨after, rfl⟩

theorem length_content_next_lt {s s' : TextStream} {line : StreamedLine}
    (h : s.next = (some line, s')) : s'.reader.content.length < s.reader.content.length := by
  rcases hfinished : s.finished with - | -
  · by_cases hnil : s.reader.content = []
    · obtain ⟨reader, hnext⟩ := s.next_nil hfinished hnil
      rw [hnext] at h
      cases h
    · obtain ⟨reader, hnext, hcontent⟩ := s.next_eq hfinished hnil
      rw [hnext] at h
      obtain rfl := (Prod.mk.inj h).2
      have hpos := lineLength_pos hnil
      have hle := lineLength_le s.reader.content
      rw [hcontent, length_drop]
      omega
  · rw [next, hfinished] at h
    cases h

def collect (s : TextStream) : List StreamedLine × TextStream :=
  match _h : s.next with
  | (none, s') => ([], s')
  | (some line, s') =>
    let rest := s'.collect
    (line :: rest.1, rest.2)
termination_by s.reader.content.length
decreasing_by exact length_content_next_lt ‹_›

end TextStream

/-- What the stream should yield for lines of a file, after some lines and bytes: every line with
its number, its first bytes and its place. -/
def streamedLines (number offset : ℕ) : List Bytes → List StreamedLine
  | [] => []
  | line :: lines =>
    TextStream.lineOf (number + 1) offset line ::
      streamedLines (number + 1) (offset + line.length) lines

theorem TextStream.collect_eq (s : TextStream) (h : s.finished = false) :
    s.collect.1 = streamedLines s.linesRead s.totalBytes (fileLines s.reader.content) ∧
      s.collect.2.linesRead = s.linesRead + (fileLines s.reader.content).length ∧
      s.collect.2.totalBytes = s.totalBytes + s.reader.content.length := by
  induction hlength : s.reader.content.length using Nat.strong_induction_on generalizing s with
  | _ length ih =>
    rw [collect]
    by_cases hnil : s.reader.content = []
    · obtain ⟨reader, hnext⟩ := s.next_nil h hnil
      rw [hnext, hnil]
      exact ⟨rfl, rfl, by rw [← hlength, hnil]; rfl⟩
    · obtain ⟨reader, hnext, hcontent⟩ := s.next_eq h hnil
      have hlt := length_content_next_lt hnext
      obtain ⟨hlines, hcount, hbytes⟩ := ih _ (hlength ▸ hlt) _ rfl rfl
      have hle := lineLength_le s.reader.content
      rw [hnext, fileLines_eq hnil]
      dsimp only at hlines hcount hbytes ⊢
      rw [hlines, hcount, hbytes, hcontent, streamedLines, length_take_of_le hle,
        length_cons, length_drop]
      exact ⟨rfl, by omega, by omega⟩

end Choreo
