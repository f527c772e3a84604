import Choreo.Protocols.Sse
import Mathlib.Data.List.DropRight

/-!
# The event readers of Anthropic and Gemini

`AnthropicSseReader` (`choreo-ai-protocols/src/anthropic/requests.rs`) and `GeminiSseReader`
(`choreo-ai-protocols/src/google/requests.rs`) are two copies of one resumable reader. A call drains
the complete lines of the bytes read so far, and reads on when they complete no event. The two
differ in what they keep of an event block and in what they do at a `[DONE]` line. What follows the
last line feed is never looked at.
-/

namespace Choreo.SseBlocks

open List Option

/-! ### The readers -/

/-- What one read returns before the end of the source: the buffer of a call takes 4 KiB. -/
abbrev Read := {bytes : Bytes // bytes ≠ [] ∧ bytes.length ≤ 4096}

def readBytes (reads : List Read) : Bytes := (reads.map Subtype.val).flatten

/-- What a complete line makes of the loop that drains the lines: it goes on, it returns an event,
it ends the stream with or without a last event, or it fails. -/
inductive Taken (Event : Type)
  | next
  | event (event : Event)
  | done (event : Option Event)
  | invalid
deriving DecidableEq

/-- A reader between two calls: the bytes of an unfinished line, what is kept of an unfinished
block, and the flag that the stream is finished. -/
structure Reader (Acc : Type) where
  pending : Bytes := []
  acc : Acc
  finished : Bool := false

/-- Removes line feeds and carriage returns from the end of a line. -/
def stripEol (line : Bytes) : Bytes := line.rdropWhile fun byte => byte == 10 || byte == 13

section Calls

variable {Acc Event : Type} (takeLine : Acc → Bytes → Acc × Taken Event)
  (flush : Acc → Acc × Option Event)

/-- The loop over the complete lines of `pending`. -/
def drainLines : ℕ → Reader Acc → Reader Acc × Except ReadError (Option Event)
  | 0, r => (r, .ok none)
  | fuel + 1, r =>
    match splitLine r.pending with
    | none => (r, .ok none)
    | some (line, rest) =>
      match takeLine r.acc (stripEol line) with
      | (acc, .next) => drainLines fuel { r with pending := rest, acc := acc }
      | (acc, .event event) => ({ r with pending := rest, acc := acc }, .ok (some event))
      | (acc, .done event) => ({ pending := rest, acc := acc, finished := true }, .ok event)
      | (acc, .invalid) => ({ r with pending := rest, acc := acc }, .error .invalidData)

/-- Every round of the loop removes a byte from `pending`. -/
def drainEvent (r : Reader Acc) : Reader Acc × Except ReadError (Option Event) :=
  drainLines takeLine (r.pending.length + 1) r

/-- The loop of a call: drain, then read. After a `[DONE]` line without an event it still reads once
more before it looks at the flag. -/
def nextLoop : List Read → Reader Acc →
    (List Read × Reader Acc) × Except ReadError (Option Event)
  | [], r =>
    match drainEvent takeLine r with
    | (r, .ok none) =>
      (([], { r with acc := (flush r.acc).1, finished := true }), .ok (flush r.acc).2)
    | (r, result) => (([], r), result)
  | bytes :: reads, r =>
    match drainEvent takeLine r with
    | (r, .ok none) =>
      if r.finished then ((reads, { r with pending := r.pending ++ bytes.val }), .ok none)
      else nextLoop reads { r with pending := r.pending ++ bytes.val }
    | (r, result) => ((bytes :: reads, r), result)

def nextEvent (s : List Read × Reader Acc) :
    (List Read × Reader Acc) × Except ReadError (Option Event) :=
  if s.2.finished then (s, .ok none) else nextLoop takeLine flush s.1 s.2

/-- A reader after a number of calls. -/
def after (acc : Acc) (reads : List Read) : ℕ → List Read × Reader Acc
  | 0 => (reads, { acc := acc })
  | n + 1 => (nextEvent takeLine flush (after acc reads n)).1

/-- What a call returns; the calls are counted from 0. -/
def answer (acc : Acc) (reads : List Read) (n : ℕ) : Except ReadError (Option Event) :=
  (nextEvent takeLine flush (after takeLine flush acc reads n)).2

end Calls

/-- What the Anthropic reader keeps of a block. -/
structure AnthropicBlock where
  currentEvent : Option String := none
  currentData : List String := []

namespace AnthropicSseReader

def takeLine (s : AnthropicBlock) (line : Bytes) : AnthropicBlock × Taken (String × String) :=
  if line = [] then
    if s.currentData ≠ [] then
      ({ currentEvent := none, currentData := [] },
        .event (s.currentEvent.getD "", "\n".intercalate s.currentData))
    else ({ s with currentEvent := none }, .next)
  else
    match fromUtf8 line with
    | none => (s, .invalid)
    | some text =>
      match stripPrefix "event:" text with
      | some value => ({ s with currentEvent := some (trim value) }, .next)
      | none =>
        match stripPrefix "data:" text with
        | some value =>
          if trimStart value = "[DONE]" then (s, .done none)
          else ({ s with currentData := s.currentData ++ [trimStart value] }, .next)
        | none => (s, .next)

/-- The event that the end of the stream completes. -/
def finishEvent (s : AnthropicBlock) : AnthropicBlock × Option (String × String) :=
  if s.currentData = [] then (s, none)
  else
    ({ currentEvent := none, currentData := [] },
      some (s.currentEvent.getD "", "\n".intercalate s.currentData))

/-- What the calls on a fresh reader return. -/
def answer (reads : List Read) (n : ℕ) : Except ReadError (Option (String × String)) :=
  SseBlocks.answer takeLine finishEvent {} reads n

end AnthropicSseReader

namespace GeminiSseReader

/-- What the Gemini reader keeps of a block are its data lines. -/
def takeLine (lines : List String) (line : Bytes) : List String × Taken String :=
  if line = [] then
    if lines ≠ [] then ([], .event ("\n".intercalate lines)) else (lines, .next)
  else
    match fromUtf8 line with
    | none => (lines, .invalid)
    | some text =>
      match stripPrefix "data:" text with
      | some value =>
        if trimStart value = "[DONE]" then
          if lines ≠ [] then ([], .done (some ("\n".intercalate lines))) else (lines, .done none)
        else (lines ++ [trimStart value], .next)
      | none => (lines, .next)

/-- The event that the end of the stream completes. -/
def flushLines (lines : List String) : List String × Option String :=
  if lines = [] then (lines, none) else ([], some ("\n".intercalate lines))

/-- What the calls on a fresh reader return. -/
def answer (reads : List Read) (n : ℕ) : Except ReadError (Option String) :=
  SseBlocks.answer takeLine flushLines [] reads n

end GeminiSseReader

/-! ### The grammar -/

inductive SseLine
  | blank
  | event (name : String)
  | data (value : String)
  | done
  | ignored
  | invalid
deriving DecidableEq, Repr

namespace SseLine

/-- What a line is. The white space around an event name and before a value does not count. -/
def ofBytes (line : Bytes) : SseLine :=
  if line = [] then .blank
  else
    match fromUtf8 line with
    | none => .invalid
    | some text =>
      match stripPrefix "event:" text with
      | some value => .event (trim value)
      | none =>
        match stripPrefix "data:" text with
        | some value => if trimStart value = "[DONE]" then .done else .data (trimStart value)
        | none => .ignored

def data? : SseLine → Option String
  | data value => some value
  | _ => none

def event? : SseLine → Option String
  | event name => some name
  | _ => none

/-- The lines that end a stream. -/
def stops : SseLine → Bool
  | done => true
  | invalid => true
  | _ => false

end SseLine

/-- What a protocol makes of a block: an event from its type and its data, and whether a `[DONE]`
line hands out the block that it stands in. -/
structure Dialect (Event : Type) where
  make : Option String → String → Event
  make_injective : ∀ {name name' value value'}, make name value = make name' value' →
    value = value'
  flushesAtDone : Bool

/-- Anthropic events carry the type of their block. -/
def anthropic : Dialect (String × String) where
  make name value := (name.getD "", value)
  make_injective h := (Prod.mk.inj h).2
  flushesAtDone := false

/-- Gemini events are their data. -/
def gemini : Dialect String where
  make _ value := value
  make_injective h := h
  flushesAtDone := true

def dataOf (block : List SseLine) : List String := block.filterMap SseLine.data?

def typeOf (block : List SseLine) : Option String := (block.filterMap SseLine.event?).getLast?

variable {Event : Type} (dialect : Dialect Event)

def eventOf (block : List SseLine) : Option Event :=
  if dataOf block = [] then none
  else some (dialect.make (typeOf block) ("\n".intercalate (dataOf block)))

/-- The events of a stream and how it ends. -/
structure Trace (Event : Type) where
  events : List Event
  ending : SseEnding

/-- What the calls of a reader have to return: the events, then `none`, or an error where the stream
is no text. -/
def Trace.answer (trace : Trace Event) (n : ℕ) : Except ReadError (Option Event) :=
  match trace.events[n]?, trace.ending with
  | some event, _ => .ok (some event)
  | none, .invalid => .error .invalidData
  | none, _ => .ok none

variable (bytes : Bytes)

/-- The complete lines of a stream, and what follows the last line feed. -/
def lines : List SseLine × Bytes :=
  let pieces := bytes.splitOnP (· == 10)
  (pieces.dropLast.map fun line => .ofBytes (stripEol line), pieces.getLast?.getD [])

/-- All lines of a stream: the last one may end with the stream. -/
def allLines : List SseLine :=
  (lines bytes).1 ++ if (lines bytes).2 = [] then [] else [.ofBytes (stripEol (lines bytes).2)]

/-- The events of the blank-line-delimited blocks before the first line that ends the stream. At the
end of the stream the last block counts as well. -/
def specTrace : Trace Event :=
  let before := (allLines bytes).takeWhile fun line => !line.stops
  let blocks := before.splitOnP (· == .blank)
  match (allLines bytes).find? SseLine.stops with
  | none => ⟨blocks.filterMap (eventOf dialect), .eof⟩
  | some .done => ⟨blocks.dropLast.filterMap (eventOf dialect), .done⟩
  | some _ => ⟨blocks.dropLast.filterMap (eventOf dialect), .invalid⟩

/-- The calls return the events of the stream, up to the first error. -/
def Correct (answer : List Read → ℕ → Except ReadError (Option Event)) (reads : List Read) : Prop :=
  ∀ n, (∀ m < n, ∃ result, answer reads m = .ok result) →
    answer reads n = (specTrace dialect (readBytes reads)).answer n

/-! ### The blocks, line by line -/

/-- The events of complete lines, how they end, and the event of the block that a `[DONE]` line
stands in. -/
structure BlockTrace (Event : Type) where
  events : List Event
  ending : SseEnding
  unfinished : Option Event

/-- One more event before all others, if there is one. -/
def BlockTrace.cons (event : Option Event) (trace : BlockTrace Event) : BlockTrace Event :=
  { trace with events := event.toList ++ trace.events }

def blockTrace : List SseLine → List SseLine → BlockTrace Event
  | block, [] => ⟨(eventOf dialect block).toList, .eof, none⟩
  | block, .blank :: lines => (blockTrace [] lines).cons (eventOf dialect block)
  | block, .done :: _ => ⟨[], .done, eventOf dialect block⟩
  | _, .invalid :: _ => ⟨[], .invalid, none⟩
  | block, line :: lines => blockTrace (block ++ [line]) lines

/-- The trace of the complete lines of bytes that follow the lines of an open block. -/
def bytesTrace (block : List SseLine) (bytes : Bytes) : BlockTrace Event :=
  blockTrace dialect block (lines bytes).1

theorem lines_of_not_mem {bytes : Bytes} (h : 10 ∉ bytes) : lines bytes = ([], bytes) := by
  simp [lines, splitOnP_of_not_mem h]

theorem lines_line {line : Bytes} (h : 10 ∉ line) (rest : Bytes) :
    lines (line ++ 10 :: rest) = (.ofBytes (stripEol line) :: (lines rest).1, (lines rest).2) := by
  obtain ⟨piece, pieces, hpieces⟩ :=
    exists_cons_of_ne_nil (splitOnP_ne_nil (· == 10) rest)
  simp [lines, splitOnP_line h, hpieces]

theorem bytesTrace_of_not_mem (block : List SseLine) {bytes : Bytes} (h : 10 ∉ bytes) :
    bytesTrace dialect block bytes = ⟨(eventOf dialect block).toList, .eof, none⟩ := by
  rw [bytesTrace, lines_of_not_mem h, blockTrace]

theorem bytesTrace_line (block : List SseLine) {line : Bytes} (h : 10 ∉ line) (rest : Bytes) :
    bytesTrace dialect block (line ++ 10 :: rest) =
      match SseLine.ofBytes (stripEol line) with
      | .blank => (bytesTrace dialect [] rest).cons (eventOf dialect block)
      | .done => ⟨[], .done, eventOf dialect block⟩
      | .invalid => ⟨[], .invalid, none⟩
      | line => bytesTrace dialect (block ++ [line]) rest := by
  rw [bytesTrace, lines_line h]
  cases SseLine.ofBytes (stripEol line) <;> rfl

/-- The block that is open after lines none of which ends the stream. -/
def openBlock : List SseLine → List SseLine → List SseLine
  | block, [] => block
  | _, .blank :: lines => openBlock [] lines
  | block, line :: lines => openBlock (block ++ [line]) lines

variable {block : List SseLine}

/-! ### The grammar, line by line -/

theorem splitOnP_blank (h : .blank ∉ block) (lines : List SseLine) :
    (block ++ .blank :: lines).splitOnP (· == .blank) = block :: lines.splitOnP (· == .blank) :=
  splitOnP_append_cons_of_forall_mem
    (fun _ hb => beq_false_of_ne (ne_of_mem_of_not_mem hb h)) .blank rfl lines

theorem splitOnP_block (h : .blank ∉ block) :
    block.splitOnP (· == .blank) = [block] :=
  splitOnP_eq_singleton fun _ hb => beq_false_of_ne (ne_of_mem_of_not_mem hb h)

/-- The trace that the grammar gives lines after those of an open block. -/
def specLines (block lines : List SseLine) : Trace Event :=
  let blocks := (block ++ lines.takeWhile fun line => !line.stops).splitOnP (· == .blank)
  match lines.find? SseLine.stops with
  | none => ⟨blocks.filterMap (eventOf dialect), .eof⟩
  | some .done => ⟨blocks.dropLast.filterMap (eventOf dialect), .done⟩
  | some _ => ⟨blocks.dropLast.filterMap (eventOf dialect), .invalid⟩

theorem specTrace_eq :
    specTrace dialect bytes = specLines dialect [] (allLines bytes) := rfl

theorem specLines_blank (h : .blank ∉ block) (lines : List SseLine) :
    specLines dialect block (.blank :: lines) =
      ⟨(eventOf dialect block).toList ++ (specLines dialect [] lines).events,
        (specLines dialect [] lines).ending⟩ := by
  have htake : (SseLine.blank :: lines).takeWhile (fun line => !line.stops) =
      .blank :: lines.takeWhile (fun line => !line.stops) := rfl
  have hfind : (SseLine.blank :: lines).find? SseLine.stops = lines.find? SseLine.stops := rfl
  rw [specLines, specLines, htake, hfind, splitOnP_blank h, nil_append]
  obtain ⟨piece, pieces, hpieces⟩ := exists_cons_of_ne_nil (splitOnP_ne_nil (· == .blank)
    (lines.takeWhile fun line => !line.stops))
  rw [hpieces]
  have hfirst : ∀ rest : List (List SseLine), (block :: rest).filterMap (eventOf dialect) =
      (eventOf dialect block).toList ++ rest.filterMap (eventOf dialect) := by
    intro rest
    rw [filterMap_cons]
    cases eventOf dialect block <;> rfl
  cases lines.find? SseLine.stops with
  | none => simp only [hfirst]
  | some line => cases line <;> simp only [hfirst, dropLast_cons_cons]

theorem blockTrace_eq (lines : List SseLine) : ∀ block : List SseLine, .blank ∉ block →
    specLines dialect block lines =
      ⟨(blockTrace dialect block lines).events, (blockTrace dialect block lines).ending⟩ := by
  induction lines with
  | nil =>
    intro block hblock
    simp only [specLines, takeWhile_nil, append_nil, splitOnP_block hblock,
      List.find?_nil, blockTrace, filterMap_cons, filterMap_nil]
    cases eventOf dialect block <;> rfl
  | cons line lines ih =>
    intro block hblock
    have hkept : ∀ kept : SseLine, kept.stops = false →
        specLines dialect block (kept :: lines) = specLines dialect (block ++ [kept]) lines := by
      intro kept hstops
      simp only [specLines, takeWhile_cons, List.find?_cons, hstops, Bool.not_false, if_true,
        append_assoc, singleton_append]
    have hlast : ([block] : List (List SseLine)).dropLast.filterMap (eventOf dialect) = [] := rfl
    cases line with
    | blank =>
      rw [specLines_blank dialect hblock, ih [] not_mem_nil]
      rfl
    | done =>
      have hfind : (SseLine.done :: lines).find? SseLine.stops = some .done := rfl
      simp [specLines, hfind, SseLine.stops, splitOnP_block hblock, blockTrace]
    | invalid =>
      have hfind : (SseLine.invalid :: lines).find? SseLine.stops = some .invalid := rfl
      simp [specLines, hfind, SseLine.stops, splitOnP_block hblock, blockTrace]
    | event name =>
      rw [hkept _ rfl, ih (block ++ [SseLine.event name]) (by simpa using hblock)]
      rfl
    | data value =>
      rw [hkept _ rfl, ih (block ++ [SseLine.data value]) (by simpa using hblock)]
      rfl
    | ignored =>
      rw [hkept _ rfl, ih (block ++ [SseLine.ignored]) (by simpa using hblock)]
      rfl

/-! ### The readers, line by line -/

/-- A reader keeps what its protocol needs of the lines of an open block. -/
structure Keeps {Acc : Type} (takeLine : Acc → Bytes → Acc × Taken Event)
    (flush : Acc → Acc × Option Event) (Holds : Acc → List SseLine → Prop) : Prop where
  blank : ∀ {acc block line}, Holds acc block → SseLine.ofBytes line = .blank →
    ∃ acc', takeLine acc line = (acc', (eventOf dialect block).elim .next .event) ∧ Holds acc' []
  done : ∀ {acc block line}, Holds acc block → SseLine.ofBytes line = .done →
    ∃ acc', takeLine acc line =
        (acc', .done (if dialect.flushesAtDone then eventOf dialect block else none)) ∧
      (flush acc').2 = if dialect.flushesAtDone then none else eventOf dialect block
  invalid : ∀ {acc block line}, Holds acc block → SseLine.ofBytes line = .invalid →
    ∃ acc', takeLine acc line = (acc', .invalid)
  kept : ∀ {acc block line kind}, Holds acc block → SseLine.ofBytes line = kind →
    kind ≠ .blank → kind.stops = false →
    ∃ acc', takeLine acc line = (acc', .next) ∧ Holds acc' (block ++ [kind])
  flush : ∀ {acc block}, Holds acc block → (flush acc).2 = eventOf dialect block

theorem dataOf_append (block block' : List SseLine) :
    dataOf (block ++ block') = dataOf block ++ dataOf block' := filterMap_append

theorem typeOf_concat (block : List SseLine) (line : SseLine) :
    typeOf (block ++ [line]) = line.event?.or (typeOf block) := by
  rw [typeOf, filterMap_append, typeOf]
  cases line <;> simp [SseLine.event?]

/-- A text does not begin with both kinds of prefix. -/
theorem stripPrefix_data_of_event {text value : String}
    (h : stripPrefix "event:" text = some value) : stripPrefix "data:" text = none := by
  rw [stripPrefix] at h ⊢
  split_ifs at h with hevent
  rw [if_neg]
  intro hdata
  obtain ⟨l, hl⟩ := isPrefixOf_iff_prefix.1 hevent
  obtain ⟨l', hl'⟩ := isPrefixOf_iff_prefix.1 hdata
  rw [← hl] at hl'
  exact absurd (cons.inj hl').1 (by decide)

/-- What a line is, by what the readers find out about it. -/
inductive SseLine.View (line : Bytes) : SseLine → Prop
  | blank (hline : line = []) : View line .blank
  | invalid (hline : line ≠ []) (htext : fromUtf8 line = none) : View line .invalid
  | event (text value : String) (hline : line ≠ []) (htext : fromUtf8 line = some text)
      (hevent : stripPrefix "event:" text = some value)
      (hdata : stripPrefix "data:" text = none) : View line (.event (trim value))
  | done (text value : String) (hline : line ≠ []) (htext : fromUtf8 line = some text)
      (hevent : stripPrefix "event:" text = none)
      (hdata : stripPrefix "data:" text = some value) (hdone : trimStart value = "[DONE]") :
      View line .done
  | data (text value : String) (hline : line ≠ []) (htext : fromUtf8 line = some text)
      (hevent : stripPrefix "event:" text = none)
      (hdata : stripPrefix "data:" text = some value) (hdone : trimStart value ≠ "[DONE]") :
      View line (.data (trimStart value))
  | ignored (text : String) (hline : line ≠ []) (htext : fromUtf8 line = some text)
      (hevent : stripPrefix "event:" text = none)
      (hdata : stripPrefix "data:" text = none) : View line .ignored

theorem SseLine.view (line : Bytes) : SseLine.View line (.ofBytes line) := by
  rw [ofBytes]
  split_ifs with hline
  · exact .blank hline
  · cases htext : fromUtf8 line with
    | none => exact .invalid hline htext
    | some text =>
      dsimp only
      cases hevent : stripPrefix "event:" text with
      | some value => exact .event text value hline htext hevent (stripPrefix_data_of_event hevent)
      | none =>
        dsimp only
        cases hdata : stripPrefix "data:" text with
        | none => exact .ignored text hline htext hevent hdata
        | some value =>
          dsimp only
          split_ifs with hdone
          · exact .done text value hline htext hevent hdata hdone
          · exact .data text value hline htext hevent hdata hdone

theorem AnthropicSseReader.keeps : Keeps anthropic AnthropicSseReader.takeLine
    AnthropicSseReader.finishEvent
    fun s block => s.currentData = dataOf block ∧ s.currentEvent = typeOf block where
  blank := by
    rintro s block line ⟨hdata, hevent⟩ hline
    have hview := SseLine.view line
    rw [hline] at hview
    cases hview with
    | blank hnil =>
      rw [AnthropicSseReader.takeLine, if_pos hnil, eventOf, hdata, hevent]
      by_cases h : dataOf block = []
      · rw [if_neg (not_not.2 h), if_pos h]
        exact ⟨_, rfl, h, rfl⟩
      · rw [if_pos h, if_neg h]
        exact ⟨_, rfl, rfl, rfl⟩
  done := by
    rintro s block line ⟨hdata, hevent⟩ hline
    have hview := SseLine.view line
    rw [hline] at hview
    cases hview with
    | done text value hnil htext hnone hsome hdone =>
      refine ⟨s, ?_, ?_⟩
      · simp [AnthropicSseReader.takeLine, hnil, htext, hnone, hsome, hdone, anthropic]
      · rw [AnthropicSseReader.finishEvent, eventOf, hdata, hevent]
        split_ifs <;> first | rfl | contradiction
  invalid := by
    rintro s block line ⟨hdata, hevent⟩ hline
    have hview := SseLine.view line
    rw [hline] at hview
    cases hview with
    | invalid hnil htext => exact ⟨s, by simp [AnthropicSseReader.takeLine, hnil, htext]⟩
  kept := by
    rintro s block line kind ⟨hdata, hevent⟩ hline hblank hstops
    have hview := SseLine.view line
    rw [hline] at hview
    cases hview with
    | blank => exact absurd rfl hblank
    | invalid | done => cases hstops
    | event text value hnil htext hsome hnone =>
      refine ⟨_, by simp [AnthropicSseReader.takeLine, hnil, htext, hsome]; rfl, ?_, ?_⟩
      · rw [dataOf_append, hdata]
        exact (append_nil _).symm
      · rw [typeOf_concat]
        rfl
    | data text value hnil htext hnone hsome hdone =>
      refine ⟨_, by simp [AnthropicSseReader.takeLine, hnil, htext, hnone, hsome, hdone]; rfl,
        ?_, ?_⟩
      · rw [dataOf_append, ← hdata]
        rfl
      · rw [typeOf_concat, ← hevent]
        rfl
    | ignored text hnil htext hnone hnone' =>
      refine ⟨s, by simp [AnthropicSseReader.takeLine, hnil, htext, hnone, hnone'], ?_, ?_⟩
      · rw [dataOf_append, hdata]
        exact (append_nil _).symm
      · rw [typeOf_concat, hevent]
        rfl
  flush := by
    rintro s block ⟨hdata, hevent⟩
    rw [AnthropicSseReader.finishEvent, eventOf, hdata, hevent]
    split_ifs <;> rfl

theorem GeminiSseReader.keeps : Keeps gemini GeminiSseReader.takeLine GeminiSseReader.flushLines
    fun lines block => lines = dataOf block where
  blank := by
    rintro lines block line rfl hline
    have hview := SseLine.view line
    rw [hline] at hview
    cases hview with
    | blank hnil =>
      rw [GeminiSseReader.takeLine, if_pos hnil, eventOf]
      by_cases h : dataOf block = []
      · rw [if_neg (not_not.2 h), if_pos h]
        exact ⟨_, rfl, h⟩
      · rw [if_pos h, if_neg h]
        exact ⟨_, rfl, rfl⟩
  done := by
    rintro lines block line rfl hline
    have hview := SseLine.view line
    rw [hline] at hview
    cases hview with
    | done text value hnil htext hnone hsome hdone =>
      by_cases h : dataOf block = []
      · refine ⟨dataOf block, ?_, ?_⟩
        · simp [GeminiSseReader.takeLine, hnil, htext, hsome, hdone, eventOf, h]
        · simp [GeminiSseReader.flushLines, h, eventOf]
      · refine ⟨[], ?_, ?_⟩
        · simp [GeminiSseReader.takeLine, hnil, htext, hsome, hdone, eventOf, h, gemini]
        · simp [GeminiSseReader.flushLines, gemini]
  invalid := by
    rintro lines block line rfl hline
    have hview := SseLine.view line
    rw [hline] at hview
    cases hview with
    | invalid hnil htext => exact ⟨_, by simp [GeminiSseReader.takeLine, hnil, htext]; rfl⟩
  kept := by
    rintro lines block line kind rfl hline hblank hstops
    have hview := SseLine.view line
    rw [hline] at hview
    cases hview with
    | blank => exact absurd rfl hblank
    | invalid | done => cases hstops
    | event text value hnil htext hsome hnone =>
      refine ⟨dataOf block, by simp [GeminiSseReader.takeLine, hnil, htext, hnone], ?_⟩
      rw [dataOf_append]
      exact (append_nil _).symm
    | data text value hnil htext hnone hsome hdone =>
      refine ⟨dataOf block ++ [trimStart value],
        by simp [GeminiSseReader.takeLine, hnil, htext, hsome, hdone], ?_⟩
      rw [dataOf_append]
      rfl
    | ignored text hnil htext hnone hnone' =>
      refine ⟨dataOf block, by simp [GeminiSseReader.takeLine, hnil, htext, hnone'], ?_⟩
      rw [dataOf_append]
      exact (append_nil _).symm
  flush := by
    rintro lines block rfl
    rw [GeminiSseReader.flushLines, eventOf]
    split_ifs <;> rfl

/-! ### One call -/

section Calls

variable {Acc : Type} {takeLine : Acc → Bytes → Acc × Taken Event}
  {flush : Acc → Acc × Option Event} {Holds : Acc → List SseLine → Prop} {dialect}

/-- What draining the pending lines can do: find an event, find `[DONE]`, run out of complete lines,
or meet a line that is no text. The lines of the open block are `block` before. -/
inductive Drained (dialect : Dialect Event) (flush : Acc → Acc × Option Event)
    (Holds : Acc → List SseLine → Prop) (r : Reader Acc) (block : List SseLine) :
    Reader Acc × Except ReadError (Option Event) → Prop
  | event (r' : Reader Acc) (event : Event) (block' : List SseLine)
      (hfinished : r'.finished = r.finished) (hholds : Holds r'.acc block')
      (htrace : ∀ later, bytesTrace dialect block (r.pending ++ later) =
        (bytesTrace dialect block' (r'.pending ++ later)).cons (some event)) :
      Drained dialect flush Holds r block (r', .ok (some event))
  | done (r' : Reader Acc) (unfinished : Option Event) (hfinished : r'.finished = true)
      (hflush : (flush r'.acc).2 = if dialect.flushesAtDone then none else unfinished)
      (htrace : ∀ later, bytesTrace dialect block (r.pending ++ later) =
        ⟨[], .done, unfinished⟩) :
      Drained dialect flush Holds r block
        (r', .ok (if dialect.flushesAtDone then unfinished else none))
  | more (r' : Reader Acc) (block' : List SseLine) (hfinished : r'.finished = r.finished)
      (hholds : Holds r'.acc block') (hpending : 10 ∉ r'.pending)
      (htrace : ∀ later, bytesTrace dialect block (r.pending ++ later) =
        bytesTrace dialect block' (r'.pending ++ later)) :
      Drained dialect flush Holds r block (r', .ok none)
  | invalid (r' : Reader Acc)
      (htrace : ∀ later, bytesTrace dialect block (r.pending ++ later) = ⟨[], .invalid, none⟩) :
      Drained dialect flush Holds r block (r', .error .invalidData)

/-- A line that completes no event leaves the rest to the next round. -/
theorem Drained.of_line {r r₁ : Reader Acc} {block block₁ : List SseLine}
    {result : Reader Acc × Except ReadError (Option Event)}
    (h : Drained dialect flush Holds r₁ block₁ result) (hfinished : r₁.finished = r.finished)
    (htrace : ∀ later, bytesTrace dialect block (r.pending ++ later) =
      bytesTrace dialect block₁ (r₁.pending ++ later)) :
    Drained dialect flush Holds r block result := by
  cases h with
  | event r' event block' hf hh ht =>
    exact .event r' event block' (hf.trans hfinished) hh fun later =>
      (htrace later).trans (ht later)
  | done r' unfinished hf hfl ht =>
    exact .done r' unfinished hf hfl fun later => (htrace later).trans (ht later)
  | more r' block' hf hh hp ht =>
    exact .more r' block' (hf.trans hfinished) hh hp fun later => (htrace later).trans (ht later)
  | invalid r' ht => exact .invalid r' fun later => (htrace later).trans (ht later)

theorem drainLines_drained (hkeeps : Keeps dialect takeLine flush Holds) (fuel : ℕ) :
    ∀ (r : Reader Acc) (block : List SseLine), r.pending.length < fuel → Holds r.acc block →
      Drained dialect flush Holds r block (drainLines takeLine fuel r) := by
  induction fuel with
  | zero => intro r block hfuel; exact absurd hfuel (Nat.not_lt_zero _)
  | succ fuel ih =>
    intro r block hfuel hholds
    rcases line_cases r.pending with hnone | ⟨line, rest, hline, hpending⟩
    · rw [drainLines, splitLine_of_not_mem hnone]
      exact .more r block rfl hholds hnone fun later => rfl
    · have htrace : ∀ later, bytesTrace dialect block (r.pending ++ later) =
          match SseLine.ofBytes (stripEol line) with
          | .blank => (bytesTrace dialect [] (rest ++ later)).cons (eventOf dialect block)
          | .done => ⟨[], .done, eventOf dialect block⟩
          | .invalid => ⟨[], .invalid, none⟩
          | kept => bytesTrace dialect (block ++ [kept]) (rest ++ later) := by
        intro later
        rw [hpending, append_assoc, cons_append, bytesTrace_line dialect block hline]
      have hrest : rest.length < fuel := by
        rw [hpending] at hfuel
        simp only [length_append, length_cons] at hfuel
        omega
      rw [drainLines, hpending, splitLine_append_cons hline]
      dsimp only
      cases hkind : SseLine.ofBytes (stripEol line) with
      | blank =>
        obtain ⟨acc', htake, hholds'⟩ := hkeeps.blank hholds hkind
        simp only [hkind] at htrace
        rw [htake]
        cases hevent : eventOf dialect block with
        | none =>
          refine (ih { r with pending := rest, acc := acc' } [] hrest hholds').of_line rfl ?_
          intro later
          rw [htrace, hevent]
          rfl
        | some event =>
          refine .event { r with pending := rest, acc := acc' } event [] rfl hholds' ?_
          intro later
          rw [htrace, hevent]
      | done =>
        obtain ⟨acc', htake, hflush⟩ := hkeeps.done hholds hkind
        simp only [hkind] at htrace
        rw [htake]
        exact .done _ (eventOf dialect block) rfl hflush htrace
      | invalid =>
        obtain ⟨acc', htake⟩ := hkeeps.invalid hholds hkind
        simp only [hkind] at htrace
        rw [htake]
        exact .invalid _ htrace
      | event name | data value | ignored =>
        obtain ⟨acc', htake, hholds'⟩ := hkeeps.kept hholds hkind (by simp) rfl
        simp only [hkind] at htrace
        rw [htake]
        exact (ih { r with pending := rest, acc := acc' } _ hrest hholds').of_line rfl htrace

theorem drained (hkeeps : Keeps dialect takeLine flush Holds) {r : Reader Acc}
    {block : List SseLine} (hholds : Holds r.acc block) :
    Drained dialect flush Holds r block (drainEvent takeLine r) :=
  drainLines_drained hkeeps _ r block (Nat.lt_succ_self _) hholds

end Calls

/-- The reads before the last one already complete a `[DONE]` line, so that the read that follows it
returns bytes. -/
def readsOn (block : List SseLine) (pending : Bytes) (reads : List Read) : Bool :=
  !reads.isEmpty &&
    (bytesTrace dialect block (pending ++ readBytes reads.dropLast)).ending = .done

/-- What the calls return of the complete lines to come: the events, and at a `[DONE]` line the
event of its block, if the protocol hands it out there or if the read that follows finds the end of
the stream. -/
def outcome (on : Bool) (trace : BlockTrace Event) : Trace Event :=
  ⟨trace.events ++ (if dialect.flushesAtDone || !on then trace.unfinished else none).toList,
    trace.ending⟩

/-- What is left after the first event. -/
def Trace.tail (trace : Trace Event) : Trace Event := { trace with events := trace.events.tail }

section Calls

variable {Acc : Type} {takeLine : Acc → Bytes → Acc × Taken Event}
  {flush : Acc → Acc × Option Event} {Holds : Acc → List SseLine → Prop} {dialect}

/-- What the calls on a reader have still to return. -/
def Left (dialect : Dialect Event) (Holds : Acc → List SseLine → Prop)
    (s : List Read × Reader Acc) (trace : Trace Event) : Prop :=
  if s.2.finished then trace.events = [] ∧ trace.ending ≠ .invalid
  else
    ∃ block, Holds s.2.acc block ∧
      trace = outcome dialect (readsOn dialect block s.2.pending s.1)
        (bytesTrace dialect block (s.2.pending ++ readBytes s.1))

variable {ending : SseEnding}

theorem answer_nil (h : ending ≠ .invalid) :
    (Trace.mk ([] : List Event) ending).answer 0 = .ok none := by
  cases ending <;> first | rfl | exact absurd rfl h

theorem answer_toList (event : Option Event) (h : ending ≠ .invalid) :
    (Trace.mk event.toList ending).answer 0 = .ok event := by
  cases event with
  | none => exact answer_nil h
  | some event => rfl

theorem readsOn_congr {block block' : List SseLine} {pending pending' : Bytes}
    (h : ∀ later, (bytesTrace dialect block (pending ++ later)).ending =
      (bytesTrace dialect block' (pending' ++ later)).ending) (reads : List Read) :
    readsOn dialect block pending reads = readsOn dialect block' pending' reads := by
  rw [readsOn, readsOn, h]

theorem readsOn_read {block : List SseLine} {pending : Bytes} (hpending : 10 ∉ pending)
    (bytes : Read) (reads : List Read) :
    readsOn dialect block pending (bytes :: reads) =
      readsOn dialect block (pending ++ bytes.val) reads := by
  cases reads with
  | nil =>
    have hend : (bytesTrace dialect block pending).ending = .eof := by
      rw [bytesTrace_of_not_mem dialect block hpending]
    simp [readsOn, readBytes, hend]
  | cons next reads =>
    rw [readsOn, readsOn, dropLast_cons_cons]
    simp [readBytes, append_assoc]

/-- What is left when draining found an event. -/
theorem left_of_event (reads : List Read) {block block' : List SseLine} {r r' : Reader Acc}
    {event : Event} (hfinished : r'.finished = false) (hholds : Holds r'.acc block')
    (htrace : ∀ later, bytesTrace dialect block (r.pending ++ later) =
      (bytesTrace dialect block' (r'.pending ++ later)).cons (some event)) :
    (outcome dialect (readsOn dialect block r.pending reads)
        (bytesTrace dialect block (r.pending ++ readBytes reads))).answer 0 = .ok (some event) ∧
      Left dialect Holds (reads, r') (outcome dialect (readsOn dialect block r.pending reads)
        (bytesTrace dialect block (r.pending ++ readBytes reads))).tail := by
  have hon : readsOn dialect block r.pending reads = readsOn dialect block' r'.pending reads := by
    refine readsOn_congr (fun later => ?_) reads
    rw [htrace]
    rfl
  rw [hon, htrace]
  refine ⟨rfl, ?_⟩
  rw [Left, if_neg (by simp [hfinished])]
  exact ⟨block', hholds, rfl⟩

/-- What is left when draining found a `[DONE]` line. -/
theorem outcome_done {block : List SseLine} {pending : Bytes} {unfinished : Option Event}
    (htrace : ∀ later, bytesTrace dialect block (pending ++ later) = ⟨[], .done, unfinished⟩)
    (reads : List Read) :
    outcome dialect (readsOn dialect block pending reads)
        (bytesTrace dialect block (pending ++ readBytes reads)) =
      ⟨(if dialect.flushesAtDone || reads.isEmpty then unfinished else none).toList, .done⟩ := by
  rw [outcome, readsOn, htrace, htrace]
  simp

theorem left_of_finished {reads : List Read} {r : Reader Acc} (hfinished : r.finished = true)
    (event : Option Event) (h : ending ≠ .invalid) :
    Left dialect Holds (reads, r) (Trace.mk event.toList ending).tail := by
  rw [Left, if_pos hfinished]
  exact ⟨by cases event <;> rfl, h⟩

/-- One call returns the first of what is left, and leaves the rest. -/
theorem nextLoop_spec (hkeeps : Keeps dialect takeLine flush Holds) (reads : List Read) :
    ∀ (r : Reader Acc) (block : List SseLine), r.finished = false → Holds r.acc block →
      ∀ trace, trace = outcome dialect (readsOn dialect block r.pending reads)
          (bytesTrace dialect block (r.pending ++ readBytes reads)) →
        (nextLoop takeLine flush reads r).2 = trace.answer 0 ∧
          ∀ result, (nextLoop takeLine flush reads r).2 = .ok result →
            Left dialect Holds (nextLoop takeLine flush reads r).1 trace.tail := by
  induction reads with
  | nil =>
    intro r block hfinished hholds trace htrace
    have hdrained := drained hkeeps hholds
    rw [nextLoop]
    generalize drainEvent takeLine r = drain at hdrained
    cases hdrained with
    | event r' event block' hf hh ht =>
      obtain ⟨hanswer, hleft⟩ := left_of_event [] (hf.trans hfinished) hh ht
      rw [htrace]
      exact ⟨hanswer.symm, fun _ _ => hleft⟩
    | done r' unfinished hf hfl ht =>
      rw [outcome_done ht, isEmpty_nil, Bool.or_true, if_pos rfl] at htrace
      subst htrace
      rw [answer_toList unfinished (by simp)]
      split_ifs at hfl ⊢ with hflushes
      · cases unfinished with
        | none =>
          exact ⟨congrArg Except.ok hfl, fun _ _ => left_of_finished rfl none (by simp)⟩
        | some event => exact ⟨rfl, fun _ _ => left_of_finished hf (some event) (by simp)⟩
      · exact ⟨congrArg Except.ok hfl, fun _ _ => left_of_finished rfl unfinished (by simp)⟩
    | more r' block' hf hh hp ht =>
      have hend := bytesTrace_of_not_mem dialect block' hp
      have hbytes : bytesTrace dialect block (r.pending ++ readBytes []) =
          ⟨(eventOf dialect block').toList, .eof, none⟩ := by
        rw [ht, readBytes, map_nil, flatten_nil, append_nil, hend]
      rw [hbytes, outcome, ite_self, toList_none, append_nil] at htrace
      subst htrace
      rw [answer_toList _ (by simp)]
      exact ⟨congrArg Except.ok (hkeeps.flush hh), fun _ _ => left_of_finished rfl _ (by simp)⟩
    | invalid r' ht =>
      rw [ht] at htrace
      subst htrace
      refine ⟨by simp [outcome, Trace.answer], ?_⟩
      rintro result h
      cases h
  | cons bytes reads ih =>
    intro r block hfinished hholds trace htrace
    have hdrained := drained hkeeps hholds
    rw [nextLoop]
    generalize drainEvent takeLine r = drain at hdrained
    cases hdrained with
    | event r' event block' hf hh ht =>
      obtain ⟨hanswer, hleft⟩ := left_of_event (bytes :: reads) (hf.trans hfinished) hh ht
      rw [htrace]
      exact ⟨hanswer.symm, fun _ _ => hleft⟩
    | done r' unfinished hf hfl ht =>
      have hdone : SseEnding.done ≠ .invalid := by decide
      rw [outcome_done ht, isEmpty_cons, Bool.or_false] at htrace
      subst htrace
      rw [answer_toList _ (by simp)]
      split_ifs with hflushes
      · cases unfinished with
        | none =>
          simp only [hf, if_true]
          exact ⟨trivial, fun _ _ => left_of_finished rfl none hdone⟩
        | some event => exact ⟨rfl, fun _ _ => left_of_finished hf (some event) (by simp)⟩
      · simp only [hf, if_true]
        exact ⟨trivial, fun _ _ => left_of_finished rfl none hdone⟩
    | more r' block' hf hh hp ht =>
      have hf' : r'.finished = false := hf.trans hfinished
      simp only [hf', Bool.false_eq_true, if_false]
      refine ih { pending := r'.pending ++ bytes.val, acc := r'.acc } block' rfl hh trace ?_
      have hending : ∀ later, (bytesTrace dialect block (r.pending ++ later)).ending =
          (bytesTrace dialect block' (r'.pending ++ later)).ending := fun later => by rw [ht]
      rw [htrace, ht, readsOn_congr hending, readsOn_read hp]
      simp [readBytes, append_assoc]
    | invalid r' ht =>
      rw [ht] at htrace
      subst htrace
      refine ⟨by simp [outcome, Trace.answer], ?_⟩
      rintro result h
      cases h

theorem nextEvent_spec (hkeeps : Keeps dialect takeLine flush Holds)
    {s : List Read × Reader Acc} {trace : Trace Event} (h : Left dialect Holds s trace) :
    (nextEvent takeLine flush s).2 = trace.answer 0 ∧
      ∀ result, (nextEvent takeLine flush s).2 = .ok result →
        Left dialect Holds (nextEvent takeLine flush s).1 trace.tail := by
  rw [nextEvent]
  by_cases hfinished : s.2.finished = true
  · rw [if_pos hfinished]
    rw [Left, if_pos hfinished] at h
    obtain ⟨events, ending⟩ := trace
    obtain ⟨rfl, hending⟩ := h
    refine ⟨(answer_nil hending).symm, fun _ _ => ?_⟩
    rw [Left, if_pos hfinished]
    exact ⟨rfl, hending⟩
  · rw [if_neg hfinished]
    rw [Left, if_neg hfinished] at h
    obtain ⟨block, hholds, htrace⟩ := h
    exact nextLoop_spec hkeeps s.1 s.2 block (by simpa using hfinished) hholds trace htrace

theorem answer_tail (trace : Trace Event) (n : ℕ) : trace.tail.answer n = trace.answer (n + 1) := by
  rw [Trace.answer, Trace.answer, Trace.tail, List.getElem?_tail]

/-- What is left after a number of calls, none of which failed. -/
theorem left_after (hkeeps : Keeps dialect takeLine flush Holds) {acc : Acc} (hacc : Holds acc [])
    (reads : List Read) (n : ℕ)
    (h : ∀ m < n, ∃ result, answer takeLine flush acc reads m = .ok result) :
    Left dialect Holds (after takeLine flush acc reads n)
      (Trace.tail^[n] (outcome dialect (readsOn dialect [] [] reads)
        (bytesTrace dialect [] (readBytes reads)))) := by
  induction n with
  | zero =>
    rw [Left, if_neg (by simp [after])]
    exact ⟨[], hacc, rfl⟩
  | succ n ih =>
    have hleft := ih fun m hm => h m (Nat.lt_succ_of_lt hm)
    obtain ⟨result, hresult⟩ := h n (Nat.lt_succ_self n)
    rw [Function.iterate_succ_apply']
    exact (nextEvent_spec hkeeps hleft).2 result hresult

theorem answer_iterate_tail (trace : Trace Event) (n : ℕ) :
    (Trace.tail^[n] trace).answer 0 = trace.answer n := by
  induction n generalizing trace with
  | zero => rfl
  | succ n ih => rw [Function.iterate_succ_apply, ih, answer_tail]

theorem answer_eq (hkeeps : Keeps dialect takeLine flush Holds) {acc : Acc} (hacc : Holds acc [])
    (reads : List Read) (n : ℕ)
    (h : ∀ m < n, ∃ result, answer takeLine flush acc reads m = .ok result) :
    answer takeLine flush acc reads n =
      (outcome dialect (readsOn dialect [] [] reads)
        (bytesTrace dialect [] (readBytes reads))).answer n := by
  rw [← answer_iterate_tail]
  exact (nextEvent_spec hkeeps (left_after hkeeps hacc reads n h)).1

end Calls

/-! ### What is returned and what should be -/

/-- Two traces that a caller cannot tell apart. -/
def Trace.Same (trace trace' : Trace Event) : Prop :=
  trace.events = trace'.events ∧ (trace.ending = .invalid ↔ trace'.ending = .invalid)

variable {trace : Trace Event}

theorem Trace.answer_eq_ok_iff {n : ℕ} :
    (∃ result, trace.answer n = .ok result) ↔
      n < trace.events.length ∨ trace.ending ≠ .invalid := by
  rw [answer]
  by_cases hn : n < trace.events.length
  · simp [hn]
  · rw [List.getElem?_eq_none (Nat.le_of_not_lt hn)]
    cases trace.ending <;> simp [hn]

theorem Trace.answer_eq_some_iff {n : ℕ} {event : Event} :
    trace.answer n = .ok (some event) ↔ trace.events[n]? = some event := by
  rw [answer]
  cases trace.events[n]? with
  | none => cases trace.ending <;> simp
  | some e => simp

theorem Trace.answer_of_none {n : ℕ} (h : trace.events[n]? = none) :
    trace.answer n = if trace.ending = .invalid then .error .invalidData else .ok none := by
  rw [answer, h]
  cases trace.ending <;> rfl

theorem same_iff_forall_answer (trace trace' : Trace Event) :
    trace.Same trace' ↔
      ∀ n, (∀ m < n, ∃ result, trace.answer m = .ok result) → trace.answer n = trace'.answer n := by
  constructor
  · rintro ⟨hevents, hending⟩ n -
    cases hn : trace.events[n]? with
    | none =>
      rw [Trace.answer_of_none hn, Trace.answer_of_none (hevents ▸ hn)]
      simp only [hending]
    | some event =>
      rw [Trace.answer_eq_some_iff.2 hn, Trace.answer_eq_some_iff.2 (hevents ▸ hn)]
  · intro h
    have hagree : ∀ n ≤ trace.events.length, trace.answer n = trace'.answer n := fun n hn =>
      h n fun m hm => Trace.answer_eq_ok_iff.2 (.inl (hm.trans_le hn))
    have hlast := hagree _ le_rfl
    have hnone : trace.events[trace.events.length]? = none := List.getElem?_eq_none le_rfl
    have hnone' : trace'.events[trace.events.length]? = none := by
      cases hsome : trace'.events[trace.events.length]? with
      | none => rfl
      | some event =>
        rw [Trace.answer_eq_some_iff.2 hsome, Trace.answer_eq_some_iff, hnone] at hlast
        cases hlast
    refine ⟨ext_getElem? fun n => ?_, ?_⟩
    · by_cases hn : n < trace.events.length
      · have hsome := List.getElem?_eq_getElem hn
        have hanswer := hagree n hn.le
        rw [Trace.answer_eq_some_iff.2 hsome] at hanswer
        rw [hsome, Trace.answer_eq_some_iff.1 hanswer.symm]
      · have hle := Nat.le_of_not_lt hn
        rw [List.getElem?_eq_none hle,
          List.getElem?_eq_none ((List.getElem?_eq_none_iff.1 hnone').trans hle)]
    · rw [Trace.answer_of_none hnone, Trace.answer_of_none hnone'] at hlast
      split_ifs at hlast with h₁ h₂ h₂ <;> simp [h₁, h₂]

/-- The calls return the events of the stream if and only if what the complete lines give is the
trace of the stream. -/
theorem correct_iff_same {Acc : Type} {takeLine : Acc → Bytes → Acc × Taken Event}
    {flush : Acc → Acc × Option Event} {Holds : Acc → List SseLine → Prop}
    (hkeeps : Keeps dialect takeLine flush Holds) {acc : Acc} (hacc : Holds acc [])
    (reads : List Read) :
    Correct dialect (answer takeLine flush acc) reads ↔
      (outcome dialect (readsOn dialect [] [] reads)
        (bytesTrace dialect [] (readBytes reads))).Same (specTrace dialect (readBytes reads)) := by
  rw [same_iff_forall_answer, Correct]
  have hanswer : ∀ n, (∀ m < n, ∃ result, answer takeLine flush acc reads m = .ok result) ↔
      ∀ m < n, ∃ result, (outcome dialect (readsOn dialect [] [] reads)
        (bytesTrace dialect [] (readBytes reads))).answer m = .ok result := by
    intro n
    induction n with
    | zero => simp
    | succ n ih =>
      rw [Nat.forall_lt_succ_right, Nat.forall_lt_succ_right, ih]
      refine and_congr_right fun hbefore => ?_
      rw [answer_eq hkeeps hacc reads n (ih.2 hbefore)]
  refine forall_congr' fun n => ?_
  rw [hanswer n]
  refine forall_congr' fun hbefore => ?_
  rw [answer_eq hkeeps hacc reads n ((hanswer n).2 hbefore)]

/-! ### The line that nothing ends -/

/-- A last line without its line feed changes nothing about the event of the open block: there is
none, or it is no line of the block, or it is an event name that the block has already or does not
need, or a `[DONE]` line after a block without data. -/
def Inert (block : List SseLine) : List SseLine → Prop
  | [] => True
  | .blank :: _ => True
  | .ignored :: _ => True
  | .event name :: _ =>
    dataOf block = [] ∨ dialect.make (some name) ("\n".intercalate (dataOf block)) =
      dialect.make (typeOf block) ("\n".intercalate (dataOf block))
  | .data _ :: _ => False
  | .done :: _ => dataOf block = []
  | .invalid :: _ => False

/-- The last line of a stream, if nothing ends it. -/
def lastLine : List SseLine :=
  if (lines bytes).2 = [] then [] else [.ofBytes (stripEol (lines bytes).2)]

/-- The lines of the block in which a stream ends or has its `[DONE]` line. -/
def lastBlock : List SseLine :=
  openBlock [] ((lines bytes).1.takeWhile fun line => !line.stops)

/-- Nothing is lost or handed out that should not be. A stream that is not ended has nothing after
its last line feed that matters. Before a `[DONE]` line its block has no data; or the protocol does
not hand it out and the reads before the last one already hold the line. -/
def Intact (reads : List Read) : Prop :=
  match (lines (readBytes reads)).1.find? SseLine.stops with
  | none => Inert dialect (lastBlock (readBytes reads)) (lastLine (readBytes reads))
  | some .done =>
    dataOf (lastBlock (readBytes reads)) = [] ∨
      (dialect.flushesAtDone = false ∧ reads ≠ [] ∧
        (lines (readBytes reads.dropLast)).1.find? SseLine.stops = some .done)
  | some _ => True

theorem allLines_eq : allLines bytes = (lines bytes).1 ++ lastLine bytes := rfl

theorem ending_blockTrace (lines : List SseLine) : ∀ block : List SseLine,
    (blockTrace dialect block lines).ending =
      match lines.find? SseLine.stops with
      | none => .eof
      | some .done => .done
      | some _ => .invalid := by
  induction lines with
  | nil => intro block; rfl
  | cons line lines ih =>
    intro block
    cases line with
    | blank => exact ih []
    | done | invalid => rfl
    | event name | data value | ignored => exact ih _

theorem unfinished_blockTrace (lines : List SseLine) : ∀ block : List SseLine,
    (blockTrace dialect block lines).unfinished =
      if lines.find? SseLine.stops = some .done then
        eventOf dialect (openBlock block (lines.takeWhile fun line => !line.stops))
      else none := by
  induction lines with
  | nil => intro block; rfl
  | cons line lines ih =>
    intro block
    cases line with
    | blank => exact ih []
    | done | invalid => rfl
    | event name | data value | ignored => exact ih _

theorem eventOf_eq_none_iff :
    eventOf dialect block = none ↔ dataOf block = [] := by
  rw [eventOf]
  split_ifs with h <;> simp [h]

variable {lines : List SseLine}

/-- Lines that do not end the stream leave an open block for those that follow. -/
theorem blockTrace_append (h : lines.find? SseLine.stops = none) :
    ∀ block : List SseLine, ∃ events : List Event,
      blockTrace dialect block lines =
          ⟨events ++ (eventOf dialect (openBlock block lines)).toList, .eof, none⟩ ∧
        ∀ later, blockTrace dialect block (lines ++ later) =
          ⟨events ++ (blockTrace dialect (openBlock block lines) later).events,
            (blockTrace dialect (openBlock block lines) later).ending,
            (blockTrace dialect (openBlock block lines) later).unfinished⟩ := by
  induction lines with
  | nil => exact fun block => ⟨[], rfl, fun later => rfl⟩
  | cons line lines ih =>
    intro block
    rw [List.find?_cons] at h
    cases line with
    | blank =>
      obtain ⟨events, hlines, hlater⟩ := ih h []
      refine ⟨(eventOf dialect block).toList ++ events, ?_, fun later => ?_⟩
      · simp only [blockTrace, hlines, BlockTrace.cons, openBlock, append_assoc]
      · simp only [cons_append, blockTrace, hlater, BlockTrace.cons, openBlock,
          append_assoc]
    | done | invalid => cases h
    | event name | data value | ignored => exact ih h _

/-- What follows the line that ends a stream does not count. -/
theorem blockTrace_of_stops (h : lines.find? SseLine.stops ≠ none)
    (later : List SseLine) : ∀ block : List SseLine,
      blockTrace dialect block (lines ++ later) = blockTrace dialect block lines := by
  induction lines with
  | nil => exact absurd rfl h
  | cons line lines ih =>
    intro block
    rw [List.find?_cons] at h
    cases line with
    | blank =>
      rw [cons_append, blockTrace, blockTrace, ih h []]
    | done | invalid => rfl
    | event name | data value | ignored => exact ih h _

theorem toList_eq_toList_iff {event event' : Option Event} :
    event.toList = event'.toList ↔ event = event' := by
  cases event <;> cases event' <;> simp

theorem length_intercalate_concat (value next : String) (values : List String) :
    ("\n".intercalate (value :: values)).length <
      ("\n".intercalate (value :: (values ++ [next]))).length := by
  induction values generalizing value with
  | nil =>
    have hsep : "\n".length = 1 := rfl
    rw [nil_append, String.intercalate_singleton, String.intercalate_cons_cons,
      String.intercalate_singleton, String.length_append, String.length_append]
    omega
  | cons second values ih =>
    have htail := ih second
    rw [cons_append, String.intercalate_cons_cons, String.intercalate_cons_cons,
      String.length_append, String.length_append, String.length_append, String.length_append]
    omega

/-- A data line more makes another event. -/
theorem eventOf_data_ne (block : List SseLine) (value : String) :
    eventOf dialect (block ++ [.data value]) ≠ eventOf dialect block := by
  intro h
  have hdata : dataOf (block ++ [.data value]) = dataOf block ++ [value] := dataOf_append _ _
  rw [eventOf, hdata, if_neg (by simp), eventOf] at h
  split_ifs at h with hnil
  have hjoined := dialect.make_injective (some.inj h)
  obtain ⟨first, values, hvalues⟩ := exists_cons_of_ne_nil hnil
  have hlength := length_intercalate_concat first value values
  rw [hvalues, cons_append] at hjoined
  rw [hjoined] at hlength
  exact lt_irrefl _ hlength

theorem eventOf_ignored (block : List SseLine) :
    eventOf dialect (block ++ [.ignored]) = eventOf dialect block := by
  have hdata : dataOf (block ++ [.ignored]) = dataOf block :=
    (dataOf_append _ _).trans (append_nil _)
  rw [eventOf, eventOf, hdata, typeOf_concat]
  rfl

theorem eventOf_event_iff (block : List SseLine) (name : String) :
    eventOf dialect block = eventOf dialect (block ++ [.event name]) ↔
      dataOf block = [] ∨ dialect.make (some name) ("\n".intercalate (dataOf block)) =
        dialect.make (typeOf block) ("\n".intercalate (dataOf block)) := by
  have hdata : dataOf (block ++ [.event name]) = dataOf block :=
    (dataOf_append _ _).trans (append_nil _)
  have htype : typeOf (block ++ [.event name]) = some name := typeOf_concat block (.event name)
  rw [eventOf, eventOf, hdata, htype]
  split_ifs with h
  · simp [h]
  · rw [some_inj, or_iff_right h, eq_comm]

/-- A last line without its line feed gives the event of the open block exactly if it is inert. -/
theorem inert_iff (block : List SseLine) {last : List SseLine} (h : last.length ≤ 1) :
    ((eventOf dialect block).toList = (blockTrace dialect block last).events ∧
        (blockTrace dialect block last).ending ≠ .invalid) ↔ Inert dialect block last := by
  have heof : SseEnding.eof ≠ .invalid := by decide
  cases last with
  | nil => exact iff_of_true ⟨rfl, heof⟩ trivial
  | cons line later =>
    obtain rfl : later = [] := length_eq_zero_iff.1 (by simpa using h)
    cases line with
    | blank =>
      have hempty : eventOf dialect [] = none := rfl
      refine iff_of_true ⟨?_, heof⟩ trivial
      simp [blockTrace, BlockTrace.cons, hempty]
    | event name =>
      rw [Inert, ← eventOf_event_iff]
      exact (and_iff_left heof).trans toList_eq_toList_iff
    | data value =>
      rw [Inert, iff_false]
      rintro ⟨hevent, -⟩
      exact eventOf_data_ne dialect block value (toList_eq_toList_iff.1 hevent).symm
    | done =>
      rw [Inert, ← eventOf_eq_none_iff dialect, blockTrace, toList_eq_nil_iff]
      have hdone : SseEnding.done ≠ .invalid := by decide
      exact and_iff_left hdone
    | ignored =>
      refine iff_of_true ⟨?_, heof⟩ trivial
      exact congrArg Option.toList (eventOf_ignored dialect block).symm
    | invalid =>
      rw [Inert, iff_false]
      rintro ⟨-, hending⟩
      exact hending rfl

theorem takeWhile_of_find?_eq_none (h : lines.find? SseLine.stops = none) :
    (lines.takeWhile fun line => !line.stops) = lines := by
  rw [takeWhile_eq_self_iff]
  intro line hline
  simpa using List.find?_eq_none.1 h line hline

/-- What the complete lines give is the trace of the stream if and only if the stream is intact. -/
theorem same_iff_intact (reads : List Read) :
    (outcome dialect (readsOn dialect [] [] reads)
        (bytesTrace dialect [] (readBytes reads))).Same (specTrace dialect (readBytes reads)) ↔
      Intact dialect reads := by
  have hlast : (lastLine (readBytes reads)).length ≤ 1 := by
    rw [lastLine]
    split_ifs <;> simp
  rw [specTrace_eq, blockTrace_eq dialect _ [] not_mem_nil, allLines_eq, bytesTrace, Intact,
    lastBlock]
  cases hfind : (lines (readBytes reads)).1.find? SseLine.stops with
  | none =>
    obtain ⟨events, hlines, hlater⟩ := blockTrace_append dialect hfind []
    rw [hlines, hlater, takeWhile_of_find?_eq_none hfind, ← inert_iff dialect _ hlast]
    simp [outcome, Trace.Same]
  | some stop =>
    have hstops : (lines (readBytes reads)).1.find? SseLine.stops ≠ none := by simp [hfind]
    rw [blockTrace_of_stops dialect hstops]
    have hending := ending_blockTrace dialect (lines (readBytes reads)).1 []
    have hunfinished := unfinished_blockTrace dialect (lines (readBytes reads)).1 []
    rw [hfind] at hending hunfinished
    by_cases hdone : stop = .done
    · subst hdone
      rw [if_pos rfl] at hunfinished
      have hon : readsOn dialect [] [] reads = true ↔ reads ≠ [] ∧
          (lines (readBytes reads.dropLast)).1.find? SseLine.stops = some .done := by
        rw [readsOn, bytesTrace, ending_blockTrace, nil_append]
        cases (lines (readBytes reads.dropLast)).1.find? SseLine.stops with
        | none => simp
        | some line => cases line <;> simp
      dsimp only
      rw [← hon, ← eventOf_eq_none_iff dialect, ← hunfinished]
      simp only [outcome, Trace.Same]
      cases dialect.flushesAtDone <;> cases readsOn dialect [] [] reads <;> simp
    · have hnot : ¬ some stop = some SseLine.done := fun h => hdone (some.inj h)
      rw [if_neg hnot] at hunfinished
      have hintact : (match (some stop : Option SseLine) with
          | none => Inert dialect (openBlock [] ((lines (readBytes reads)).1.takeWhile
              fun line => !line.stops)) (lastLine (readBytes reads))
          | some .done =>
            dataOf (openBlock [] ((lines (readBytes reads)).1.takeWhile
                fun line => !line.stops)) = [] ∨
              (dialect.flushesAtDone = false ∧ reads ≠ [] ∧
                (lines (readBytes reads.dropLast)).1.find? SseLine.stops = some .done)
          | some _ => True) ↔ True := by
        cases stop <;> first | rfl | exact absurd rfl hdone
      rw [hintact, iff_true]
      simp [outcome, Trace.Same, hunfinished]

/-- The two readers return exactly the events of a stream, however it is split into reads, if and
only if the stream is intact. -/
theorem readers_correct_iff_intact (reads : List Read) :
    (Correct anthropic AnthropicSseReader.answer reads ↔ Intact anthropic reads) ∧
      (Correct gemini GeminiSseReader.answer reads ↔ Intact gemini reads) :=
  ⟨(correct_iff_same anthropic AnthropicSseReader.keeps ⟨rfl, rfl⟩ reads).trans
      (same_iff_intact anthropic reads),
    (correct_iff_same gemini GeminiSseReader.keeps rfl reads).trans (same_iff_intact gemini reads)⟩

/-- A stream of one data line without its line feed. -/
def unendedLine : List Read := [⟨"data: x".toUTF8.toList, by decide +kernel⟩]

/-- Neither reader returns the event. -/
theorem not_correct_unendedLine :
    ¬ Correct anthropic AnthropicSseReader.answer unendedLine ∧
      ¬ Correct gemini GeminiSseReader.answer unendedLine := by
  constructor
  · intro h
    have hfirst := h 0 fun m hm => absurd hm (Nat.not_lt_zero m)
    have hcode : AnthropicSseReader.answer unendedLine 0 = .ok none := by decide +kernel
    have hspec : (specTrace anthropic (readBytes unendedLine)).answer 0 =
        .ok (some ("", "x")) := by decide +kernel
    rw [hcode, hspec] at hfirst
    cases hfirst
  · intro h
    have hfirst := h 0 fun m hm => absurd hm (Nat.not_lt_zero m)
    have hcode : GeminiSseReader.answer unendedLine 0 = .ok none := by decide +kernel
    have hspec : (specTrace gemini (readBytes unendedLine)).answer 0 = .ok (some "x") := by
      decide +kernel
    rw [hcode, hspec] at hfirst
    cases hfirst

end Choreo.SseBlocks
