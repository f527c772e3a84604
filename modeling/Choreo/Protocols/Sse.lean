import Choreo.Text

/-!
# Reading server-sent events

`SseReader` of `choreo-ai-protocols/src/openai/sse.rs`: a resumable reader that is called for one
event at a time. It keeps the bytes of an unfinished line, the lines of an unfinished event and a
flag that says the stream is finished, and it pulls bytes through a buffered reader. The grammar it
targets is stated apart from it, on the whole byte stream: lines end with LF, without one CR before
it; event blocks end with a blank line; the payload of a block is what its `data:` lines hold, and
the payload `[DONE]` ends the stream.
-/

namespace Choreo

open List Option

/-! ### The buffered reader -/

/-- What one read of the source returns before its end: the buffer takes 8 KiB. -/
abbrev Chunk := {bytes : Bytes // bytes ≠ [] ∧ bytes.length ≤ 8192}

def chunkBytes (chunks : List Chunk) : Bytes := (chunks.map Subtype.val).flatten

/-- A buffered reader: the bytes it holds, what its source is going to return, and how often it has
read from the source. -/
structure BufReader where
  buffer : Bytes := []
  source : List Chunk
  reads : ℕ := 0

namespace BufReader

/-- The bytes to come. -/
def bytes (reader : BufReader) : Bytes := reader.buffer ++ chunkBytes reader.source

/-- Reads at most 4096 bytes; the source is read when the buffer is empty. -/
def read (reader : BufReader) : Bytes × BufReader :=
  match reader.buffer, reader.source with
  | [], [] => ([], { reader with reads := reader.reads + 1 })
  | [], chunk :: source =>
    (chunk.val.take 4096,
      { buffer := chunk.val.drop 4096, source := source, reads := reader.reads + 1 })
  | buffer, _ => (buffer.take 4096, { reader with buffer := buffer.drop 4096 })

end BufReader

/-! ### The reader -/

/-- The reader fails on a line that is no valid text. -/
inductive ReadError
  | invalidData
deriving DecidableEq, Repr

structure SseReader where
  reader : BufReader
  pending : Bytes := []
  eventLines : List String := []
  finished : Bool := false

/-- The payload of an event: what its `data:` lines hold, without the white space after the colon.
-/
def buildSseEvent (eventLines : List String) : Option String :=
  if eventLines = [] then none
  else
    let data := "\n".intercalate ((eventLines.filterMap (stripPrefix "data:")).map trimStart)
    if data = "" then none else some data

/-- Removes one CR from the end of a line. -/
def popCr (line : Bytes) : Bytes := if line.getLast? = some 13 then line.dropLast else line

/-- The bytes before the first LF and those after it. -/
def splitLine (pending : Bytes) : Option (Bytes × Bytes) :=
  match pending.dropWhile (· != 10) with
  | [] => none
  | _ :: rest => some (pending.takeWhile (· != 10), rest)

namespace SseReader

/-- A fresh reader. -/
def fromReader (chunks : List Chunk) : SseReader := { reader := { source := chunks } }

/-- The loop over the complete lines of `pending`. -/
def drainLines : ℕ → SseReader → SseReader × Except ReadError (Option String)
  | 0, r => (r, .ok none)
  | fuel + 1, r =>
    match splitLine r.pending with
    | none => (r, .ok none)
    | some (line, rest) =>
      if popCr line = [] then
        match buildSseEvent r.eventLines with
        | some event =>
          if event = "[DONE]" then
            ({ r with pending := rest, eventLines := [], finished := true }, .ok none)
          else ({ r with pending := rest, eventLines := [] }, .ok (some event))
        | none => drainLines fuel { r with pending := rest, eventLines := [] }
      else
        match fromUtf8 (popCr line) with
        | none => ({ r with pending := rest }, .error .invalidData)
        | some text => drainLines fuel { r with pending := rest, eventLines := r.eventLines ++ [text] }

variable (r : SseReader)

/-- Looks for a complete event; every round of the loop removes a byte from `pending`. -/
def drainCompleteEvent : SseReader × Except ReadError (Option String) :=
  drainLines (r.pending.length + 1) r

/-- The event that the end of the stream completes. -/
def finishEvent : SseReader × Except ReadError (Option String) :=
  match buildSseEvent r.eventLines with
  | none => ({ r with eventLines := [] }, .ok none)
  | some event =>
    ({ r with eventLines := [] }, .ok (if event = "[DONE]" then none else some event))

/-- The end of the source: what is left of the last line joins the event. -/
def finish : SseReader × Except ReadError (Option String) :=
  if r.pending = [] then finishEvent { r with finished := true }
  else
    match fromUtf8 r.pending with
    | none => ({ r with pending := [], finished := true }, .error .invalidData)
    | some line =>
      finishEvent { r with
        pending := []
        eventLines := r.eventLines ++ [trimEndMatches '\r' line]
        finished := true }

/-- The loop of `nextEvent`: drain, then read. -/
def readLoop : ℕ → SseReader → SseReader × Except ReadError (Option String)
  | 0, r => (r, .ok none)
  | fuel + 1, r =>
    match r.drainCompleteEvent with
    | (r, .error error) => (r, .error error)
    | (r, .ok (some event)) => (r, .ok (some event))
    | (r, .ok none) =>
      match r.reader.read with
      | ([], reader) => finish { r with reader := reader }
      | (bytes, reader) => readLoop fuel { r with reader := reader, pending := r.pending ++ bytes }

/-- One call: the next event, or `none` at the end. Every read but the last yields a byte. -/
def nextEvent : SseReader × Except ReadError (Option String) :=
  if r.finished then (r, .ok none) else readLoop (r.reader.bytes.length + 1) r

/-- The reader after a number of calls. -/
def after (chunks : List Chunk) : ℕ → SseReader
  | 0 => fromReader chunks
  | n + 1 => (after chunks n).nextEvent.1

/-- What a call returns; the calls are counted from 0. -/
def answer (chunks : List Chunk) (n : ℕ) : Except ReadError (Option String) :=
  (after chunks n).nextEvent.2

end SseReader

/-! ### The grammar -/

/-- How a stream ends: at its end, with a terminated `[DONE]` event, or with a line that is no valid
text. -/
inductive SseEnding
  | eof
  | done
  | invalid
deriving DecidableEq, Repr

/-- The payloads of a stream and how it ends. -/
structure SseTrace where
  events : List String
  ending : SseEnding
deriving DecidableEq, Repr

namespace SseTrace

/-- One more event before all others. -/
def cons (event : String) (trace : SseTrace) : SseTrace :=
  { trace with events := event :: trace.events }

/-- What is left after a number of events. -/
def drop (trace : SseTrace) (n : ℕ) : SseTrace := { trace with events := trace.events.drop n }

/-- What the calls of a reader have to return: the events, then `none`, or an error where the stream
is no text. -/
def answer (trace : SseTrace) (n : ℕ) : Except ReadError (Option String) :=
  match trace.events[n]?, trace.ending with
  | some event, _ => .ok (some event)
  | none, .invalid => .error .invalidData
  | none, _ => .ok none

end SseTrace

variable (bytes : Bytes)

/-- The lines of a stream: those that end with LF, without one CR before it, and what follows the
last LF. -/
def sseLines : List Bytes × Bytes :=
  let pieces := bytes.splitOnP (· == 10)
  (pieces.dropLast.map popCr, pieces.getLast?.getD [])

/-- The blocks of a stream: those that end with a blank line, and the lines after the last one. -/
def sseBlocks (lines : List Bytes) : List (List Bytes) × List Bytes :=
  let pieces := lines.splitOnP List.isEmpty
  (pieces.dropLast, pieces.getLast?.getD [])

/-- The final block: the lines after the last blank line, with what follows the last LF. -/
def finalLines (lines : List Bytes) (rest : Bytes) : Option (List String) :=
  match lines.mapM fromUtf8 with
  | none => none
  | some texts =>
    if rest = [] then some texts
    else (fromUtf8 rest).map fun text => texts ++ [trimEndMatches '\r' text]

def finalTrace (eventLines : Option (List String)) : SseTrace :=
  match eventLines.map buildSseEvent with
  | none => ⟨[], .invalid⟩
  | some none => ⟨[], .eof⟩
  | some (some event) => ⟨if event = "[DONE]" then [] else [event], .eof⟩

/-- The trace of blocks before a final one. -/
def blocksTrace (last : SseTrace) : List (List Bytes) → SseTrace
  | [] => last
  | block :: blocks =>
    match (block.mapM fromUtf8).map buildSseEvent with
    | none => ⟨[], .invalid⟩
    | some none => blocksTrace last blocks
    | some (some event) =>
      if event = "[DONE]" then ⟨[], .done⟩ else (blocksTrace last blocks).cons event

def sseTrace : SseTrace :=
  let lines := sseLines bytes
  let blocks := sseBlocks lines.1
  blocksTrace (finalTrace (finalLines blocks.2 lines.2)) blocks.1

namespace SseReader

/-- The calls return what the grammar says, up to the first error, and no read of the source is made
when what has been read so far holds a complete `[DONE]` event. -/
def Correct (chunks : List Chunk) : Prop :=
  (∀ n, (∀ m < n, ∃ result, answer chunks m = .ok result) →
    answer chunks n = (sseTrace (chunkBytes chunks)).answer n) ∧
  ∀ n, ∀ j < (after chunks n).reader.reads, (sseTrace (chunkBytes (chunks.take j))).ending ≠ .done

end SseReader

variable {line : Bytes}

/-! ### Lines -/

theorem splitLine_append_cons (hline : 10 ∉ line) (rest : Bytes) :
    splitLine (line ++ 10 :: rest) = some (line, rest) := by
  have hpos : ∀ byte ∈ line, (byte != 10) = true := fun byte hb =>
    bne_iff_ne.2 (ne_of_mem_of_not_mem hb hline)
  rw [splitLine, dropWhile_append_of_pos hpos, takeWhile_append_of_pos hpos]
  simp

theorem splitLine_of_not_mem {pending : Bytes} (h : 10 ∉ pending) : splitLine pending = none := by
  have hpos : ∀ byte ∈ pending, (byte != 10) = true := fun byte hb =>
    bne_iff_ne.2 (ne_of_mem_of_not_mem hb h)
  have hnil : (pending ++ []).dropWhile (· != 10) = [] := dropWhile_append_of_pos hpos
  rw [append_nil] at hnil
  rw [splitLine, hnil]

theorem line_cases :
    10 ∉ bytes ∨ ∃ line rest, 10 ∉ line ∧ bytes = line ++ 10 :: rest := by
  by_cases h : 10 ∈ bytes
  · obtain ⟨line, rest, hbytes, hline⟩ := eq_append_cons_of_mem h
    exact Or.inr ⟨line, rest, hline, hbytes⟩
  · exact Or.inl h

theorem splitOnP_of_not_mem {bytes : Bytes} (h : 10 ∉ bytes) :
    bytes.splitOnP (· == 10) = [bytes] :=
  splitOnP_eq_singleton fun _ hb => beq_false_of_ne (ne_of_mem_of_not_mem hb h)

theorem splitOnP_line (h : 10 ∉ line) (rest : Bytes) :
    (line ++ 10 :: rest).splitOnP (· == 10) = line :: rest.splitOnP (· == 10) :=
  splitOnP_append_cons_of_forall_mem
    (fun _ hb => beq_false_of_ne (ne_of_mem_of_not_mem hb h)) 10 rfl rest

/-! ### The trace, line by line -/

/-- The trace of an event's earlier lines with the last piece of a stream. -/
def restTrace (eventLines : List String) (rest : Bytes) : SseTrace :=
  finalTrace (if rest = [] then some eventLines
    else (fromUtf8 rest).map fun text => eventLines ++ [trimEndMatches '\r' text])

/-- The trace of pieces that follow an event's earlier lines. -/
def piecesTrace (eventLines : List String) : List Bytes → SseTrace
  | [] => restTrace eventLines []
  | [rest] => restTrace eventLines rest
  | line :: lines =>
    if popCr line = [] then
      match buildSseEvent eventLines with
      | none => piecesTrace [] lines
      | some event => if event = "[DONE]" then ⟨[], .done⟩ else (piecesTrace [] lines).cons event
    else
      match fromUtf8 (popCr line) with
      | none => ⟨[], .invalid⟩
      | some text => piecesTrace (eventLines ++ [text]) lines

/-- The trace of bytes that follow an event's earlier lines. -/
def bytesTrace (eventLines : List String) (bytes : Bytes) : SseTrace :=
  piecesTrace eventLines (bytes.splitOnP (· == 10))

theorem bytesTrace_of_not_mem (eventLines : List String) {rest : Bytes} (h : 10 ∉ rest) :
    bytesTrace eventLines rest = restTrace eventLines rest := by
  rw [bytesTrace, splitOnP_of_not_mem h, piecesTrace]

/-- The trace after a complete line. -/
theorem bytesTrace_line (eventLines : List String) (h : 10 ∉ line) (rest : Bytes) :
    bytesTrace eventLines (line ++ 10 :: rest) =
      if popCr line = [] then
        match buildSseEvent eventLines with
        | none => bytesTrace [] rest
        | some event => if event = "[DONE]" then ⟨[], .done⟩ else (bytesTrace [] rest).cons event
      else
        match fromUtf8 (popCr line) with
        | none => ⟨[], .invalid⟩
        | some text => bytesTrace (eventLines ++ [text]) rest := by
  rw [bytesTrace, splitOnP_line h]
  obtain ⟨piece, pieces, hrest⟩ :=
    exists_cons_of_ne_nil (splitOnP_ne_nil (· == 10) rest)
  rw [hrest, piecesTrace]
  · simp only [bytesTrace, hrest]
  · simp

theorem sseBlocks_of_not_mem {block : List Bytes} (h : [] ∉ block) :
    sseBlocks block = ([], block) := by
  have hsplit : block.splitOnP List.isEmpty = [block] :=
    splitOnP_eq_singleton fun line hl =>
      isEmpty_eq_false_iff.2 (ne_of_mem_of_not_mem hl h)
  simp [sseBlocks, hsplit]

theorem sseBlocks_blank {block : List Bytes} (h : [] ∉ block) (lines : List Bytes) :
    sseBlocks (block ++ [] :: lines) = (block :: (sseBlocks lines).1, (sseBlocks lines).2) := by
  have hsplit : (block ++ [] :: lines).splitOnP List.isEmpty =
      block :: lines.splitOnP List.isEmpty :=
    splitOnP_append_cons_of_forall_mem
      (fun line hl => isEmpty_eq_false_iff.2 (ne_of_mem_of_not_mem hl h)) [] rfl lines
  obtain ⟨piece, pieces, hpieces⟩ :=
    exists_cons_of_ne_nil (splitOnP_ne_nil List.isEmpty lines)
  simp [sseBlocks, hsplit, hpieces]

theorem mapM_fromUtf8_of_mem {lines : List Bytes} (hline : line ∈ lines)
    (hnone : fromUtf8 line = none) : lines.mapM fromUtf8 = none := by
  obtain ⟨before, later, rfl⟩ := append_of_mem hline
  cases hb : before.mapM fromUtf8 <;> simp [mapM_append, hb, hnone]

def linesTrace (rest : Bytes) (lines : List Bytes) : SseTrace :=
  blocksTrace (finalTrace (finalLines (sseBlocks lines).2 rest)) (sseBlocks lines).1

/-- A line of the first block that is no text ends the stream. -/
theorem linesTrace_of_none (rest : Bytes) (hnone : fromUtf8 line = none)
    (lines : List Bytes) : ∀ block : List Bytes, [] ∉ block → line ∈ block →
      linesTrace rest (block ++ lines) = ⟨[], .invalid⟩ := by
  induction lines with
  | nil =>
    intro block hne hline
    rw [append_nil, linesTrace, sseBlocks_of_not_mem hne]
    simp [blocksTrace, finalLines, finalTrace, mapM_fromUtf8_of_mem hline hnone]
  | cons next lines ih =>
    intro block hne hline
    by_cases hnext : next = []
    · rw [hnext, linesTrace, sseBlocks_blank hne]
      simp [blocksTrace, mapM_fromUtf8_of_mem hline hnone]
    · have hne' : [] ∉ block ++ [next] := by simpa [hne] using Ne.symm hnext
      simpa using ih (block ++ [next]) hne' (mem_append_left _ hline)

theorem piecesTrace_eq (rest : Bytes) (lines : List Bytes) :
    ∀ (block : List Bytes) (eventLines : List String), [] ∉ block →
      block.mapM fromUtf8 = some eventLines →
      piecesTrace eventLines (lines ++ [rest]) = linesTrace rest (block ++ lines.map popCr) := by
  induction lines with
  | nil =>
    intro block eventLines hne hdec
    rw [map_nil, append_nil, linesTrace, sseBlocks_of_not_mem hne]
    simp [blocksTrace, piecesTrace, restTrace, finalLines, hdec]
  | cons line lines ih =>
    intro block eventLines hne hdec
    rw [cons_append, piecesTrace, map_cons]
    · by_cases hcr : popCr line = []
      · have hnil := ih [] [] not_mem_nil rfl
        rw [nil_append, linesTrace] at hnil
        rw [if_pos hcr, hcr, linesTrace, sseBlocks_blank hne, blocksTrace, hdec, hnil]
        simp only [map_some]
        cases buildSseEvent eventLines <;> rfl
      · have hne' : [] ∉ block ++ [popCr line] := by simpa [hne] using Ne.symm hcr
        rw [if_neg hcr, append_cons block]
        cases htext : fromUtf8 (popCr line) with
        | none =>
          exact (linesTrace_of_none rest htext _ _ hne' (mem_append_right _ (by simp))).symm
        | some text =>
          have hdec' : (block ++ [popCr line]).mapM fromUtf8 = some (eventLines ++ [text]) := by
            simp [mapM_append, hdec, htext]
          exact ih _ _ hne' hdec'
    · simp

theorem bytesTrace_nil : bytesTrace [] bytes = sseTrace bytes := by
  have hpieces := dropLast_append_getLast (splitOnP_ne_nil (· == 10) bytes)
  have hlast := List.getLast?_eq_some_getLast (splitOnP_ne_nil (· == 10) bytes)
  rw [bytesTrace, ← hpieces, piecesTrace_eq _ _ [] [] not_mem_nil rfl, nil_append]
  simp only [sseTrace, sseLines, linesTrace, hlast, getD_some]

theorem ending_bytesTrace_append (bytes later : Bytes) : ∀ eventLines : List String,
    (bytesTrace eventLines bytes).ending = .done →
      (bytesTrace eventLines (bytes ++ later)).ending = .done := by
  induction hn : bytes.length using Nat.strong_induction_on generalizing bytes with
  | _ n ih =>
    intro eventLines hdone
    obtain hbytes | ⟨line, rest, hline, rfl⟩ := line_cases bytes
    · rw [bytesTrace_of_not_mem _ hbytes, restTrace, finalTrace] at hdone
      split at hdone <;> cases hdone
    · have hlt : rest.length < n := by
        rw [← hn, length_append, length_cons]
        omega
      have hrest := ih rest.length hlt rest rfl
      rw [bytesTrace_line _ hline] at hdone
      rw [append_assoc, cons_append, bytesTrace_line _ hline]
      split_ifs at hdone ⊢ with hcr
      · cases hevent : buildSseEvent eventLines with
        | none =>
          simp only [hevent] at hdone ⊢
          exact hrest [] hdone
        | some event =>
          simp only [hevent] at hdone ⊢
          split_ifs at hdone ⊢
          · rfl
          · exact hrest [] hdone
      · cases htext : fromUtf8 (popCr line) with
        | none => simp [htext] at hdone
        | some text =>
          simp only [htext] at hdone ⊢
          exact hrest _ hdone

/-! ### The buffered reader -/

namespace BufReader

theorem read_of_bytes_nil {reader : BufReader} (h : reader.bytes = []) :
    reader.read = ([], { reader with reads := reader.reads + 1 }) ∧ reader.source = [] := by
  obtain ⟨buffer, source, reads⟩ := reader
  obtain ⟨rfl, hsource⟩ := append_eq_nil_iff.1 h
  cases source with
  | nil => exact ⟨rfl, rfl⟩
  | cons chunk source => exact absurd (append_eq_nil_iff.1 hsource).1 chunk.property.1

theorem take_ne_nil {bytes : Bytes} (h : bytes ≠ []) : bytes.take 4096 ≠ [] := by
  simpa [take_eq_nil_iff] using h

/-- A read before the end yields bytes and keeps those that follow. -/
theorem read_of_bytes_ne_nil {reader : BufReader} (h : reader.bytes ≠ []) :
    reader.read.1 ≠ [] ∧ reader.read.1 ++ reader.read.2.bytes = reader.bytes ∧
      reader.read.2.reads + reader.read.2.source.length = reader.reads + reader.source.length := by
  obtain ⟨buffer, source, reads⟩ := reader
  cases buffer with
  | nil =>
    cases source with
    | nil => exact absurd rfl h
    | cons chunk source =>
      refine ⟨take_ne_nil chunk.property.1, ?_, ?_⟩
      · simp [read, bytes, chunkBytes, ← append_assoc]
      · simp only [read, length_cons]
        omega
  | cons byte buffer =>
    refine ⟨take_ne_nil (cons_ne_nil byte buffer), ?_, rfl⟩
    simp only [read, bytes, ← append_assoc, take_append_drop]

end BufReader

/-! ### One call -/

namespace SseReader

/-- What draining the pending lines can do: find an event, find `[DONE]`, run out of complete lines,
or meet a line that is no text. -/
inductive Drained (r : SseReader) : SseReader × Except ReadError (Option String) → Prop
  | event (r' : SseReader) (event : String) (hreader : r'.reader = r.reader)
      (hfinished : r'.finished = r.finished)
      (htrace : ∀ later, bytesTrace r.eventLines (r.pending ++ later) =
        (bytesTrace r'.eventLines (r'.pending ++ later)).cons event) :
      Drained r (r', .ok (some event))
  | done (r' : SseReader) (hreader : r'.reader = r.reader)
      (htrace : ∀ later, bytesTrace r.eventLines (r.pending ++ later) = ⟨[], .done⟩) :
      Drained r (r', .ok none)
  | more (r' : SseReader) (hreader : r'.reader = r.reader) (hfinished : r'.finished = r.finished)
      (hpending : 10 ∉ r'.pending)
      (htrace : ∀ later, bytesTrace r.eventLines (r.pending ++ later) =
        bytesTrace r'.eventLines (r'.pending ++ later)) :
      Drained r (r', .ok none)
  | invalid (r' : SseReader)
      (htrace : ∀ later, bytesTrace r.eventLines (r.pending ++ later) = ⟨[], .invalid⟩) :
      Drained r (r', .error .invalidData)

theorem Drained.of_line {r r₁ : SseReader} {result : SseReader × Except ReadError (Option String)}
    (h : Drained r₁ result) (hreader : r₁.reader = r.reader) (hfinished : r₁.finished = r.finished)
    (htrace : ∀ later, bytesTrace r.eventLines (r.pending ++ later) =
      bytesTrace r₁.eventLines (r₁.pending ++ later)) : Drained r result := by
  cases h with
  | event r' event hr hf ht =>
    exact .event r' event (hr.trans hreader) (hf.trans hfinished) fun later =>
      (htrace later).trans (ht later)
  | done r' hr ht => exact .done r' (hr.trans hreader) fun later => (htrace later).trans (ht later)
  | more r' hr hf hp ht =>
    exact .more r' (hr.trans hreader) (hf.trans hfinished) hp fun later =>
      (htrace later).trans (ht later)
  | invalid r' ht => exact .invalid r' fun later => (htrace later).trans (ht later)

variable (fuel : ℕ)

theorem drainLines_drained :
    ∀ r : SseReader, r.pending.length < fuel → Drained r (drainLines fuel r) := by
  induction fuel with
  | zero => exact fun r h => absurd h (Nat.not_lt_zero _)
  | succ fuel ih =>
    intro r hfuel
    obtain hpending | ⟨line, rest, hline, hpending⟩ := line_cases r.pending
    · rw [drainLines, splitLine_of_not_mem hpending]
      exact .more r rfl rfl hpending fun _ => rfl
    · have hlt : rest.length < fuel := by
        rw [hpending, length_append, length_cons] at hfuel
        omega
      have htrace : ∀ later, bytesTrace r.eventLines (r.pending ++ later) =
          bytesTrace r.eventLines (line ++ 10 :: (rest ++ later)) := fun later => by
        rw [hpending, append_assoc, cons_append]
      rw [drainLines, hpending, splitLine_append_cons hline]
      simp only [bytesTrace_line _ hline] at htrace
      by_cases hcr : popCr line = []
      · simp only [if_pos hcr] at htrace ⊢
        cases hevent : buildSseEvent r.eventLines with
        | none =>
          simp only [hevent] at htrace
          exact (ih { r with pending := rest, eventLines := [] } hlt).of_line rfl rfl htrace
        | some event =>
          simp only [hevent] at htrace ⊢
          split_ifs at htrace ⊢ with hdone
          · exact .done _ rfl htrace
          · exact .event _ event rfl rfl htrace
      · simp only [if_neg hcr] at htrace ⊢
        cases htext : fromUtf8 (popCr line) with
        | none =>
          simp only [htext] at htrace
          exact .invalid _ htrace
        | some text =>
          simp only [htext] at htrace
          exact (ih { r with pending := rest, eventLines := r.eventLines ++ [text] } hlt).of_line
            rfl rfl htrace

theorem drained (r : SseReader) : Drained r r.drainCompleteEvent :=
  drainLines_drained _ r (Nat.lt_succ_self _)

/-- The end of the source yields the event of the final block. -/
theorem finish_spec (r : SseReader) :
    r.finish.2 = (restTrace r.eventLines r.pending).answer 0 ∧
      (∀ result, r.finish.2 = .ok result →
        r.finish.1.finished = true ∧ (restTrace r.eventLines r.pending).drop 1 = ⟨[], .eof⟩) ∧
      r.finish.1.reader = r.reader := by
  have hfinal : ∀ r' : SseReader,
      r'.finishEvent.2 = (finalTrace (some r'.eventLines)).answer 0 ∧
        (finalTrace (some r'.eventLines)).drop 1 = ⟨[], .eof⟩ ∧
        r'.finishEvent.1.finished = r'.finished ∧ r'.finishEvent.1.reader = r'.reader := by
    intro r'
    rw [finishEvent, finalTrace, map_some]
    cases buildSseEvent r'.eventLines with
    | none => exact ⟨rfl, rfl, rfl, rfl⟩
    | some event =>
      by_cases hdone : event = "[DONE]"
      · simp [SseTrace.answer, SseTrace.drop, hdone]
      · simp [SseTrace.answer, SseTrace.drop, hdone]
  by_cases hpending : r.pending = []
  · obtain ⟨hanswer, htail, hfinished, hreader⟩ := hfinal { r with finished := true }
    rw [finish, if_pos hpending, restTrace, if_pos hpending]
    exact ⟨hanswer, fun _ _ => ⟨hfinished, htail⟩, hreader⟩
  · rw [finish, if_neg hpending, restTrace, if_neg hpending]
    cases fromUtf8 r.pending with
    | none => exact ⟨rfl, by simp, rfl⟩
    | some line =>
      obtain ⟨hanswer, htail, hfinished, hreader⟩ := hfinal { r with
        pending := []
        eventLines := r.eventLines ++ [trimEndMatches '\r' line]
        finished := true }
      exact ⟨hanswer, fun _ _ => ⟨hfinished, htail⟩, hreader⟩

/-- What is left of the stream for a reader that has made all but `count` reads of its source: the
trace of the bytes it holds and of those to come, or nothing once it is finished. -/
def Left (r : SseReader) (count : ℕ) (trace : SseTrace) : Prop :=
  (r.finished = false ∧ bytesTrace r.eventLines (r.pending ++ r.reader.bytes) = trace ∧
    r.reader.reads + r.reader.source.length = count) ∨
  (r.finished = true ∧ trace = ⟨[], .eof⟩)

theorem readLoop_of_bytes_nil {r r' : SseReader}
    (h : r.drainCompleteEvent = (r', .ok none)) (hbytes : r'.reader.bytes = []) :
    readLoop (fuel + 1) r =
      finish { r' with reader := { r'.reader with reads := r'.reader.reads + 1 } } := by
  rw [readLoop, h]
  simp only [(BufReader.read_of_bytes_nil hbytes).1]

theorem readLoop_of_bytes_ne_nil {r r' : SseReader}
    (h : r.drainCompleteEvent = (r', .ok none)) (hbytes : r'.reader.bytes ≠ []) :
    readLoop (fuel + 1) r = readLoop fuel
      { r' with reader := r'.reader.read.2, pending := r'.pending ++ r'.reader.read.1 } := by
  have hne := (BufReader.read_of_bytes_ne_nil hbytes).1
  rw [readLoop, h]
  generalize hout : r'.reader.read = out at hne
  obtain ⟨bytes, reader⟩ := out
  cases bytes with
  | nil => exact absurd rfl hne
  | cons byte bytes => simp only [hout]

theorem length_read_lt {reader : BufReader} {fuel : ℕ} (hbytes : reader.bytes ≠ [])
    (h : reader.bytes.length < fuel + 1) : reader.read.2.bytes.length < fuel := by
  obtain ⟨hne, happ, -⟩ := BufReader.read_of_bytes_ne_nil hbytes
  have hpos := length_pos_iff.2 hne
  rw [← happ, length_append] at h
  omega

/-- A call that finds nothing has reached the end of the source. -/
theorem reads_readLoop : ∀ r : SseReader, r.reader.bytes.length < fuel →
    (readLoop fuel r).2 = .ok none →
      (readLoop fuel r).1.reader.reads = r.reader.reads + r.reader.source.length + 1 := by
  induction fuel with
  | zero => exact fun r h => absurd h (Nat.not_lt_zero _)
  | succ fuel ih =>
    intro r hfuel hnone
    have hnext : ∀ r' : SseReader, r.drainCompleteEvent = (r', .ok none) →
        r'.reader = r.reader → (readLoop (fuel + 1) r).1.reader.reads =
          r.reader.reads + r.reader.source.length + 1 := by
      intro r' hr' hreader
      rw [← hreader] at hfuel ⊢
      by_cases hbytes : r'.reader.bytes = []
      · rw [readLoop_of_bytes_nil fuel hr' hbytes, (finish_spec _).2.2,
          (BufReader.read_of_bytes_nil hbytes).2]
        rfl
      · rw [readLoop_of_bytes_ne_nil fuel hr' hbytes] at hnone ⊢
        rw [ih _ (length_read_lt hbytes hfuel) hnone]
        exact congrArg (· + 1) (BufReader.read_of_bytes_ne_nil hbytes).2.2
    have hdrained := r.drained
    generalize hresult : r.drainCompleteEvent = result at hdrained
    cases hdrained with
    | event r' event =>
      rw [readLoop, hresult] at hnone
      cases hnone
    | done r' hreader | more r' hreader => exact hnext r' hresult hreader
    | invalid r' =>
      rw [readLoop, hresult] at hnone
      cases hnone

variable (trace : SseTrace)

/-- The loop of one call, against what is left of the stream; a `[DONE]` that comes next is not
covered. -/
theorem readLoop_spec (hdone : trace ≠ ⟨[], .done⟩) (count : ℕ) :
    ∀ r : SseReader, r.reader.bytes.length < fuel → r.finished = false →
      bytesTrace r.eventLines (r.pending ++ r.reader.bytes) = trace →
      r.reader.reads + r.reader.source.length = count →
      (readLoop fuel r).2 = trace.answer 0 ∧
        ∀ result, (readLoop fuel r).2 = .ok result → (readLoop fuel r).1.Left count (trace.drop 1) := by
  induction fuel with
  | zero => exact fun r h => absurd h (Nat.not_lt_zero _)
  | succ fuel ih =>
    intro r hfuel hfinished htrace hcount
    have hdrained := r.drained
    generalize hresult : r.drainCompleteEvent = result at hdrained
    cases hdrained with
    | event r' event hreader hfin ht =>
      rw [ht] at htrace
      rw [readLoop, hresult, ← htrace]
      refine ⟨rfl, fun _ _ => Or.inl ⟨hfin.trans hfinished, ?_, ?_⟩⟩
      · rw [hreader]
        rfl
      · rw [hreader, hcount]
    | done r' hreader ht => exact absurd (htrace.symm.trans (ht _)) hdone
    | more r' hreader hfin hpending ht =>
      rw [ht, ← hreader] at htrace
      rw [← hreader] at hfuel hcount
      by_cases hbytes : r'.reader.bytes = []
      · rw [hbytes, append_nil, bytesTrace_of_not_mem _ hpending] at htrace
        rw [readLoop_of_bytes_nil fuel hresult hbytes, ← htrace]
        obtain ⟨hanswer, hend, -⟩ := finish_spec
          { r' with reader := { r'.reader with reads := r'.reader.reads + 1 } }
        exact ⟨hanswer, fun result hok => Or.inr (hend result hok)⟩
      · obtain ⟨-, happ, hreads⟩ := BufReader.read_of_bytes_ne_nil hbytes
        rw [readLoop_of_bytes_ne_nil fuel hresult hbytes]
        refine ih _ (length_read_lt hbytes hfuel) (hfin.trans hfinished) ?_ (hreads.trans hcount)
        rw [← htrace, ← happ, append_assoc]
    | invalid r' ht =>
      rw [readLoop, hresult, ← htrace, ht]
      exact ⟨rfl, by simp⟩

theorem nextEvent_spec {r : SseReader} {count : ℕ} {trace : SseTrace} (h : r.Left count trace)
    (hdone : trace ≠ ⟨[], .done⟩) :
    r.nextEvent.2 = trace.answer 0 ∧
      ∀ result, r.nextEvent.2 = .ok result → r.nextEvent.1.Left count (trace.drop 1) := by
  obtain ⟨hfinished, htrace, hcount⟩ | ⟨hfinished, rfl⟩ := h
  · rw [nextEvent, if_neg (by simp [hfinished])]
    exact readLoop_spec _ trace hdone count r (Nat.lt_succ_self _) hfinished htrace hcount
  · rw [nextEvent, if_pos hfinished]
    exact ⟨rfl, fun _ _ => Or.inr ⟨hfinished, rfl⟩⟩

/-! ### All calls -/

theorem answer_drop (n : ℕ) : (trace.drop n).answer 0 = trace.answer n := by
  simp [SseTrace.answer, SseTrace.drop]

theorem drop_drop (n : ℕ) : (trace.drop n).drop 1 = trace.drop (n + 1) := by
  simp [SseTrace.drop]

theorem left_fromReader (chunks : List Chunk) :
    (fromReader chunks).Left chunks.length (sseTrace (chunkBytes chunks)) :=
  Or.inl ⟨rfl, bytesTrace_nil _, Nat.zero_add _⟩

/-- The calls follow the trace of the stream up to the first error or a `[DONE]`. -/
theorem left_after (chunks : List Chunk) (n : ℕ)
    (hok : ∀ m < n, ∃ result, answer chunks m = .ok result)
    (hdone : (sseTrace (chunkBytes chunks)).ending = .done →
      n ≤ (sseTrace (chunkBytes chunks)).events.length) :
    (after chunks n).Left chunks.length ((sseTrace (chunkBytes chunks)).drop n) := by
  induction n with
  | zero => exact left_fromReader chunks
  | succ n ih =>
    have hleft := ih (fun m hm => hok m (Nat.lt_succ_of_lt hm)) fun h => Nat.le_of_succ_le (hdone h)
    have hne : (sseTrace (chunkBytes chunks)).drop n ≠ ⟨[], .done⟩ := by
      intro h
      have hevents := drop_eq_nil_iff.1 (congrArg SseTrace.events h)
      have := hdone (congrArg SseTrace.ending h)
      omega
    obtain ⟨result, hresult⟩ := hok n (Nat.lt_succ_self n)
    have hnext := (nextEvent_spec hleft hne).2 result hresult
    rwa [drop_drop] at hnext

/-- The reader is correct exactly when no terminated `[DONE]` event comes before the end of the
stream or before its first line that is no text: after such an event it goes on reading. -/
theorem correct_iff (chunks : List Chunk) :
    Correct chunks ↔ (sseTrace (chunkBytes chunks)).ending ≠ .done := by
  set trace := sseTrace (chunkBytes chunks) with htrace
  constructor
  · rintro ⟨hanswers, hreads⟩ hdone
    have hok : ∀ n ≤ trace.events.length, ∀ m < n, ∃ result, answer chunks m = .ok result := by
      intro n
      induction n with
      | zero => exact fun _ m hm => absurd hm (Nat.not_lt_zero m)
      | succ n ih =>
        intro hn m hm
        have hm' : m < trace.events.length := by omega
        refine ⟨some trace.events[m], ?_⟩
        rw [hanswers m fun k hk => ih (Nat.le_of_succ_le hn) k (by omega), SseTrace.answer,
          List.getElem?_eq_getElem hm']
    have hleft := left_after chunks _ (hok _ le_rfl) fun _ => le_rfl
    have hnone : answer chunks trace.events.length = .ok none := by
      rw [hanswers _ (hok _ le_rfl), SseTrace.answer, List.getElem?_eq_none le_rfl, hdone]
    obtain ⟨hfinished, -, hcount⟩ | ⟨-, heof⟩ := hleft
    · have hlast : (after chunks (trace.events.length + 1)).reader.reads = chunks.length + 1 := by
        rw [answer, nextEvent, if_neg (by simp [hfinished])] at hnone
        rw [after, nextEvent, if_neg (by simp [hfinished]),
          reads_readLoop _ _ (Nat.lt_succ_self _) hnone, hcount]
      refine hreads (trace.events.length + 1) chunks.length (by omega) ?_
      rw [take_length]
      exact hdone
    · have heof' : trace.ending = .eof := congrArg SseTrace.ending heof
      rw [hdone] at heof'
      cases heof'
  · intro hdone
    refine ⟨fun n hok => ?_, fun n j _ hpre => hdone ?_⟩
    · have hleft := left_after chunks n hok fun h => absurd h hdone
      have hne : trace.drop n ≠ ⟨[], .done⟩ := fun h => hdone (congrArg SseTrace.ending h)
      rw [answer, (nextEvent_spec hleft hne).1, answer_drop]
    · rw [← bytesTrace_nil] at hpre
      have happ : chunkBytes (chunks.take j) ++ chunkBytes (chunks.drop j) = chunkBytes chunks := by
        rw [chunkBytes, chunkBytes, chunkBytes, ← flatten_append, ← map_append,
          take_append_drop]
      have hall := ending_bytesTrace_append _ (chunkBytes (chunks.drop j)) [] hpre
      rwa [happ, bytesTrace_nil] at hall

/-- A `[DONE]` event, and an event that comes with the next read. -/
def doneThenEvent : List Chunk :=
  [⟨"data: [DONE]\n\n".toUTF8.toList, by decide +kernel⟩,
    ⟨"data: x\n\n".toUTF8.toList, by decide +kernel⟩]

/-- An event behind `[DONE]` is delivered. -/
theorem not_correct_doneThenEvent : ¬ Correct doneThenEvent := by
  rintro ⟨hanswers, -⟩
  have hfirst := hanswers 0 fun m hm => absurd hm (Nat.not_lt_zero m)
  have hcode : answer doneThenEvent 0 = .ok (some "x") := by decide +kernel
  have hspec : (sseTrace (chunkBytes doneThenEvent)).answer 0 = .ok none := by decide +kernel
  rw [hcode, hspec] at hfirst
  cases hfirst

end SseReader

end Choreo
