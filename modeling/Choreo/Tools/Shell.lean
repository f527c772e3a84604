import Choreo.Tools.Sanitize

/-!
# Streaming shell output

A shell tool reads the standard output and the standard error of a child through two drains. Each
drain cuts its stream into lines; one merger takes the lines of both in the order of arrival,
escapes them, forwards them to the client within a budget and keeps a copy of what it forwarded.
The copy becomes the body of the recorded result, between a header with the command and a footer
with the exit code. The budget leaves room for the header, the longest footer and two markers.

The reads of a pipe are a list of chunks, the arrivals an interleaving, and the client is a
function that says which sends it takes: a send fails only when the client is gone, because no
child here is killed. The waits that end a run whose threads hang are not part of the model.
-/

namespace Choreo

open List

/-! ### Lines -/

/-- The most bytes of an unfinished line that a drain keeps. -/
def maxPendingLineBytes : ℕ := 16 * 1024

/-- A byte inside a character of several bytes. -/
def isContinuation (b : UInt8) : Bool := 0x80 ≤ b.toNat && b.toNat ≤ 0xBF

/-- The continuation bytes a first byte asks for. -/
def expectedContinuations (lead : UInt8) : ℕ :=
  if 0xC0 ≤ lead.toNat ∧ lead.toNat ≤ 0xDF then 1
  else if 0xE0 ≤ lead.toNat ∧ lead.toNat ≤ 0xEF then 2
  else if 0xF0 ≤ lead.toNat ∧ lead.toNat ≤ 0xF7 then 3
  else 0

/-- The bytes at the end of an unfinished line that a flush holds back: an unfinished character
and a carriage return. -/
def partialTailLen (pending : Bytes) : ℕ :=
  let cr := if pending.getLast? = some 0x0D then 1 else 0
  let back := (pending.take (pending.length - cr)).reverse
  let continuations := (back.takeWhile isContinuation).length
  match back.drop continuations with
  | [] => cr
  | lead :: _ =>
    if continuations < expectedContinuations lead then continuations + 1 + cr else cr

/-- A drain: the unfinished line, and the lines it emitted. -/
structure LineDrain where
  pending : Bytes := []
  lines : List Bytes := []
deriving Repr, DecidableEq

namespace LineDrain

/-- Emits the unfinished line without its tail. -/
def flushPartialLine (d : LineDrain) : LineDrain :=
  let split := d.pending.length - partialTailLen d.pending
  { pending := d.pending.drop split, lines := d.lines ++ [d.pending.take split] }

def forwardByte (d : LineDrain) (b : UInt8) : LineDrain :=
  let folded := if b = 0x0A ∧ d.pending.getLast? = some 0x0D then d.pending.dropLast else d.pending
  let pending := folded ++ [b]
  if b = 0x0A then { pending := [], lines := d.lines ++ [pending] }
  else if maxPendingLineBytes ≤ pending.length then
    flushPartialLine { d with pending := pending }
  else { d with pending := pending }

/-- Reads a chunk. -/
def forwardCompleteLines (d : LineDrain) (chunk : Bytes) : LineDrain := chunk.foldl forwardByte d

end LineDrain

/-- The lines a drain emits for the chunks it reads, the last unfinished one included. -/
def drainLines (chunks : List Bytes) : List Bytes :=
  let d := chunks.foldl LineDrain.forwardCompleteLines {}
  if d.pending.isEmpty then d.lines else d.lines ++ [d.pending]

/-- A list that takes the elements of two lists, each in its order. -/
inductive Interleaving {α : Type} : List α → List α → List α → Prop
  | nil : Interleaving [] [] []
  | left {x : α} {xs ys zs : List α} : Interleaving xs ys zs →
      Interleaving (x :: xs) ys (x :: zs)
  | right {y : α} {xs ys zs : List α} : Interleaving xs ys zs →
      Interleaving xs (y :: ys) (y :: zs)

/-! ### The merger -/

/-- The stream to the client: its budget, and the chunks the client took. -/
structure StreamByteCap where
  budget : ByteBudget
  sent : List Bytes := []
deriving Repr, DecidableEq

namespace StreamByteCap

/-- Sends bytes. The client takes the `n`-th send or is gone. -/
def forward (accepts : ℕ → Bool) (cap : StreamByteCap) (bytes : Bytes) : Bool × StreamByteCap :=
  if accepts cap.sent.length then (true, { cap with sent := cap.sent ++ [bytes] })
  else (false, cap)

/-- Forwards what fits of a chunk and then the marker, and appends each to the body once it is
sent. The answer is whether to go on. -/
def push (accepts : ℕ → Bool) (cap : StreamByteCap) (chunk out : Bytes) :
    Bool × StreamByteCap × Bytes :=
  let (n, budget) := cap.budget.fit chunk.length
  let cap := { cap with budget := budget }
  let (sent, cap) := if 0 < n then cap.forward accepts (chunk.take n) else (true, cap)
  if sent then
    let out := if 0 < n then out ++ chunk.take n else out
    let (marker, budget) := cap.budget.takeMarker
    let cap := { cap with budget := budget }
    match marker with
    | none => (true, cap, out)
    | some marker =>
      let (sent, cap) := cap.forward accepts (Utf8.encode marker)
      if sent then (true, cap, out ++ Utf8.encode marker) else (false, cap, out)
  else (false, cap, out)

def escapedLine (unicode : FormatCategory) (line : Bytes) : Text :=
  sanitizeTranscript unicode (Utf8.decodeLossy line)

/-- The loop of the merger over the lines that arrive. -/
def merge (unicode : FormatCategory) (accepts : ℕ → Bool) :
    List Bytes → StreamByteCap → Bytes → StreamByteCap × Bytes
  | [], cap, full => (cap, full)
  | line :: lines, cap, full =>
    match cap.push accepts (Utf8.encode (escapedLine unicode line)) full with
    | (true, cap, full) => merge unicode accepts lines cap full
    | (false, cap, full) => (cap, full)

end StreamByteCap

/-! ### The record -/

/-- The header of a record, before it is escaped. -/
def shellHeader (displayCmd : Text) : Text := '$' :: ' ' :: displayCmd ++ ['\n']

variable (unicode : FormatCategory)

/-- The bytes of a record around its body. -/
def shellOutputFramingReservation (displayCmd : Text) : ℕ :=
  Utf8.size (sanitizeTranscript unicode (shellHeader displayCmd)) +
    Utf8.size "\n\nExit code: -2147483648".toList + 2 * Utf8.size truncationSuffix

/-- What a child left: its output and the exit code, which a child ended by a signal lacks. -/
structure ShellOutput where
  stdout : Bytes
  stderr : Bytes := []
  code : Option Int32
deriving DecidableEq

variable (code : Option Int32)

def exitCodeText : Text := (toString (code.getD (-1)).toInt).toList

/-- The record of a run. -/
def formatShellOutput (displayCmd : Text) (output : ShellOutput)
    (timeoutMs : ℕ) (wasKilled : Bool) : Text :=
  if wasKilled then
    finishToolOutputSanitized unicode ('$' :: ' ' :: displayCmd)
      (some ("\n[command timed out after ".toList ++ (toString timeoutMs).toList ++
        "ms]\n\nExit code: -1".toList))
  else
    let combined := if output.stderr.isEmpty then output.stdout else output.stdout ++ output.stderr
    finishToolOutputSanitized unicode (shellHeader displayCmd ++ Utf8.decodeLossy combined)
      (some ("\nExit code: ".toList ++ exitCodeText output.code))

/-- The bytes a stream may have: what the record's framing leaves. -/
def streamLimit (displayCmd : Text) : ℕ :=
  maxToolOutputBytes - shellOutputFramingReservation unicode displayCmd

/-- Runs a shell command whose lines arrive in the given order: the record, and the chunks the
client took. -/
def runShellStreaming (accepts : ℕ → Bool) (displayCmd : Text)
    (arrivals : List Bytes) (timeoutMs : ℕ) (code : Option Int32) : Text × List Bytes :=
  let cap : StreamByteCap := { budget := { limit := streamLimit unicode displayCmd } }
  let (cap, body) := cap.merge unicode accepts arrivals []
  (formatShellOutput unicode displayCmd { stdout := body, code := code } timeoutMs false,
    cap.sent)

/-! ### Every line has a byte -/

theorem partialTailLen_le (pending : Bytes) : partialTailLen pending ≤ 4 := by
  have hexpected (lead : UInt8) : expectedContinuations lead ≤ 3 := by
    rw [expectedContinuations]
    split_ifs <;> omega
  rw [partialTailLen]
  set cr := if pending.getLast? = some 0x0D then 1 else 0 with hcr
  have hcr' : cr ≤ 1 := by
    rw [hcr]
    split_ifs <;> omega
  split
  · omega
  · rename_i lead _ _
    have hlead := hexpected lead
    split_ifs <;> omega

namespace LineDrain

/-- A drain that emitted no empty line. -/
def Full (d : LineDrain) : Prop := ∀ line ∈ d.lines, line ≠ []

variable {d : LineDrain}

theorem full_append (h : d.Full) {line : Bytes} (hline : line ≠ []) (pending) :
    Full { pending := pending, lines := d.lines ++ [line] } := by
  intro l hl
  rcases mem_append.1 hl with hl | hl
  · exact h l hl
  · rw [mem_singleton.1 hl]
    exact hline

theorem Full.forwardByte (h : d.Full) (b : UInt8) : (d.forwardByte b).Full := by
  rw [LineDrain.forwardByte]
  set folded := if b = 0x0A ∧ d.pending.getLast? = some 0x0D then d.pending.dropLast else d.pending
  split_ifs with hnewline hlong
  · exact full_append h (by simp) _
  · rw [flushPartialLine]
    refine full_append h ?_ _
    have htail := partialTailLen_le (folded ++ [b])
    have hmax : maxPendingLineBytes = 16384 := rfl
    rw [← length_pos_iff, length_take]
    dsimp only
    omega
  · exact h

theorem Full.forwardCompleteLines (h : d.Full) (chunk : Bytes) :
    (d.forwardCompleteLines chunk).Full := by
  rw [LineDrain.forwardCompleteLines]
  induction chunk generalizing d with
  | nil => exact h
  | cons b chunk ih => exact ih (h.forwardByte b)

theorem Full.foldl (h : d.Full) (chunks : List Bytes) :
    (chunks.foldl LineDrain.forwardCompleteLines d).Full := by
  induction chunks generalizing d with
  | nil => exact h
  | cons chunk chunks ih => exact ih (h.forwardCompleteLines chunk)

end LineDrain

/-- A drain emits no empty line. -/
theorem drainLines_ne_nil (chunks : List Bytes) : ∀ line ∈ drainLines chunks, line ≠ [] := by
  have hfull : LineDrain.Full (chunks.foldl LineDrain.forwardCompleteLines {}) :=
    LineDrain.Full.foldl (by simp [LineDrain.Full]) chunks
  rw [drainLines]
  split_ifs with hpending
  · exact hfull
  · exact LineDrain.full_append hfull (by simpa using hpending) []

theorem Interleaving.mem {α : Type} {xs ys zs : List α} (h : Interleaving xs ys zs) {z : α}
    (hz : z ∈ zs) : z ∈ xs ∨ z ∈ ys := by
  induction h with
  | nil => simp at hz
  | left _ ih =>
    rcases mem_cons.1 hz with rfl | hz
    · exact .inl mem_cons_self
    · exact (ih hz).imp_left (mem_cons_of_mem _)
  | right _ ih =>
    rcases mem_cons.1 hz with rfl | hz
    · exact .inr mem_cons_self
    · exact (ih hz).imp_right (mem_cons_of_mem _)

/-! ### What the merger forwards -/

/-- The sends a stream needs until its budget is used up, one for each line that begins within
it. -/
def sendsWithin : ℕ → List Text → ℕ
  | _, [] => 0
  | remaining, text :: texts =>
    if remaining = 0 then 0 else sendsWithin (remaining - Utf8.size text) texts + 1

@[simp] theorem sendsWithin_zero (texts : List Text) : sendsWithin 0 texts = 0 := by
  cases texts <;> rfl

/-- What the merger adds to the body, from a state with some sends behind it and some bytes
remaining: the first bytes and the marker, or some first bytes only. -/
inductive Forwarded (accepts : ℕ → Bool) (sends remaining : ℕ) (texts : List Text) :
    Bytes → Prop
  | marked (hcross : remaining < Utf8.size texts.flatten)
      (htaken : ∀ n ≤ sendsWithin remaining texts, accepts (sends + n) = true) :
      Forwarded accepts sends remaining texts
        ((Utf8.encode texts.flatten).take remaining ++ Utf8.encode truncationSuffix)
  | unmarked (m : ℕ) (hm : m ≤ remaining) (hsize : m ≤ Utf8.size texts.flatten)
      (hgone : remaining < Utf8.size texts.flatten →
        ∃ n ≤ sendsWithin remaining texts, accepts (sends + n) = false)
      (hall : (∀ n, accepts n = true) → m = Utf8.size texts.flatten) :
      Forwarded accepts sends remaining texts ((Utf8.encode texts.flatten).take m)

namespace Forwarded

variable {accepts : ℕ → Bool} {sends remaining : ℕ} {text : Text} {texts : List Text}
  {added : Bytes}

/-- Nothing is added when the first send fails. -/
theorem none (hfail : accepts sends = false) : Forwarded accepts sends remaining texts [] := by
  have h : Forwarded accepts sends remaining texts ((Utf8.encode texts.flatten).take 0) :=
    .unmarked 0 (Nat.zero_le _) (Nat.zero_le _) (fun _ => ⟨0, Nat.zero_le _, hfail⟩)
      fun hall => absurd (hall sends) (by rw [hfail]; exact Bool.false_ne_true)
  simpa using h

/-- A line that fits is added whole. -/
theorem cons (h : Forwarded accepts (sends + 1) (remaining - Utf8.size text) texts added)
    (hpos : remaining ≠ 0) (hfit : Utf8.size text ≤ remaining) (haccepts : accepts sends = true) :
    Forwarded accepts sends remaining (text :: texts) (Utf8.encode text ++ added) := by
  have hsize : Utf8.size (text :: texts).flatten =
      Utf8.size text + Utf8.size texts.flatten := by simp
  have hsends : sendsWithin remaining (text :: texts) =
      sendsWithin (remaining - Utf8.size text) texts + 1 := by rw [sendsWithin, if_neg hpos]
  have htake (m : ℕ) : Utf8.encode text ++ (Utf8.encode texts.flatten).take m =
      (Utf8.encode (text :: texts).flatten).take (Utf8.size text + m) := by
    rw [flatten_cons, Utf8.encode_append, ← Utf8.length_encode,
      take_length_add_append]
  have hshift (n : ℕ) : sends + (n + 1) = sends + 1 + n := by omega
  cases h with
  | marked hcross htaken =>
    rw [← append_assoc, htake, Nat.add_sub_cancel' hfit]
    refine .marked (by omega) fun n hn => ?_
    rcases n with - | n
    · exact haccepts
    · rw [hshift]
      exact htaken n (by omega)
  | unmarked m hm hm' hgone hall =>
    rw [htake]
    refine .unmarked _ (by omega) (by omega) (fun hcross => ?_) fun h => ?_
    · obtain ⟨n, hn, hfail⟩ := hgone (by omega)
      refine ⟨n + 1, by omega, ?_⟩
      rwa [hshift]
    · rw [hall h, hsize]

end Forwarded

namespace StreamByteCap

variable {accepts : ℕ → Bool} {cap : StreamByteCap} {chunk out : Bytes}

/-- A stream whose budget was not crossed. -/
structure Open (cap : StreamByteCap) : Prop where
  used : cap.budget.used ≤ cap.budget.limit
  truncated : cap.budget.truncated = false
  markerSent : cap.budget.markerSent = false

/-- A stream whose budget was crossed and whose marker was sent. -/
structure Closed (cap : StreamByteCap) : Prop where
  used : cap.budget.limit ≤ cap.budget.used
  markerSent : cap.budget.markerSent = true

theorem Closed.push (h : cap.Closed) :
    cap.push accepts chunk out =
      (true, { cap with budget := { cap.budget with truncated := true } }, out) := by
  simp [StreamByteCap.push, ByteBudget.fit, ByteBudget.takeMarker, h.used, h.markerSent]

theorem Closed.merge (h : cap.Closed) (unicode : FormatCategory) (lines : List Bytes) :
    (cap.merge unicode accepts lines out).1.sent = cap.sent ∧
      (cap.merge unicode accepts lines out).2 = out := by
  induction lines generalizing cap with
  | nil => exact ⟨rfl, rfl⟩
  | cons line lines ih =>
    rw [StreamByteCap.merge, h.push]
    exact ih ⟨h.used, h.markerSent⟩

theorem Open.push_exhausted (h : cap.Open) (hused : cap.budget.used = cap.budget.limit) :
    cap.push accepts chunk out =
      if accepts cap.sent.length then
        (true, ⟨{ cap.budget with truncated := true, markerSent := true },
          cap.sent ++ [Utf8.encode truncationSuffix]⟩, out ++ Utf8.encode truncationSuffix)
      else (false, ⟨{ cap.budget with truncated := true, markerSent := true }, cap.sent⟩, out) := by
  simp only [StreamByteCap.push, ByteBudget.fit, hused, le_refl, if_true, lt_irrefl, if_false,
    ByteBudget.takeMarker, h.markerSent, Bool.not_false, Bool.and_self, forward]
  split_ifs <;> simp_all

theorem Open.push_fits (h : cap.Open) (hlen : 0 < chunk.length)
    (hfit : cap.budget.used + chunk.length ≤ cap.budget.limit) :
    cap.push accepts chunk out =
      if accepts cap.sent.length then
        (true, ⟨{ cap.budget with used := cap.budget.used + chunk.length }, cap.sent ++ [chunk]⟩,
          out ++ chunk)
      else
        (false, ⟨{ cap.budget with used := cap.budget.used + chunk.length }, cap.sent⟩, out) := by
  have hroom : ¬cap.budget.limit ≤ cap.budget.used := by omega
  have hno : ¬cap.budget.limit - cap.budget.used < chunk.length := by omega
  by_cases haccept : accepts cap.sent.length = true
  · simp only [StreamByteCap.push, ByteBudget.fit, if_neg hroom, if_neg hno, if_pos hlen,
      take_length, forward, if_pos haccept, ByteBudget.takeMarker, h.truncated,
      Bool.false_and, Bool.false_eq_true, if_false, if_true]
  · simp only [StreamByteCap.push, ByteBudget.fit, if_neg hroom, if_neg hno, if_pos hlen,
      take_length, forward, if_neg haccept, Bool.false_eq_true, if_false]

theorem Open.push_crosses (h : cap.Open) (hroom : cap.budget.used < cap.budget.limit)
    (hcross : cap.budget.limit < cap.budget.used + chunk.length) :
    cap.push accepts chunk out =
      if accepts cap.sent.length then
        if accepts (cap.sent.length + 1) then
          (true, ⟨{ cap.budget with
              used := cap.budget.limit, truncated := true, markerSent := true },
            cap.sent ++ [chunk.take (cap.budget.limit - cap.budget.used)] ++
              [Utf8.encode truncationSuffix]⟩,
            out ++ chunk.take (cap.budget.limit - cap.budget.used) ++
              Utf8.encode truncationSuffix)
        else
          (false, ⟨{ cap.budget with
              used := cap.budget.limit, truncated := true, markerSent := true },
            cap.sent ++ [chunk.take (cap.budget.limit - cap.budget.used)]⟩,
            out ++ chunk.take (cap.budget.limit - cap.budget.used))
      else
        (false, ⟨{ cap.budget with used := cap.budget.limit, truncated := true }, cap.sent⟩,
          out) := by
  have hroom' : ¬cap.budget.limit ≤ cap.budget.used := by omega
  have hlt : cap.budget.limit - cap.budget.used < chunk.length := by omega
  have hpos : 0 < cap.budget.limit - cap.budget.used := by omega
  by_cases haccept : accepts cap.sent.length = true
  · simp only [StreamByteCap.push, ByteBudget.fit, if_neg hroom', if_pos hlt, if_pos hpos, forward,
      if_pos haccept, ByteBudget.takeMarker, h.markerSent, Bool.not_false, Bool.and_self, if_true,
      length_append, length_singleton]
    by_cases hmarker : accepts (cap.sent.length + 1) = true
    · simp only [if_pos hmarker, if_true]
    · simp only [if_neg hmarker, Bool.false_eq_true, if_false]
  · simp only [StreamByteCap.push, ByteBudget.fit, if_neg hroom', if_pos hlt, if_pos hpos, forward,
      if_neg haccept, Bool.false_eq_true, if_false]

variable {unicode : FormatCategory}

/-- The texts of the lines that arrive. -/
def texts (unicode : FormatCategory) (lines : List Bytes) : List Text :=
  lines.map (escapedLine unicode)

theorem size_escapedLine_pos {line : Bytes} (hline : line ≠ []) :
    0 < Utf8.size (escapedLine unicode line) := by
  have hne : escapedLine unicode line ≠ [] :=
    sanitizeTranscript_ne_nil (Utf8.decodeLossy_ne_nil hline)
  have hpos := length_pos_iff.2 hne
  have hle := Utf8.length_le_size (escapedLine unicode line)
  omega

/-- A result of the merger that keeps what it forwarded and adds to the body what it should. -/
def Adds (unicode : FormatCategory) (accepts : ℕ → Bool) (cap : StreamByteCap)
    (lines : List Bytes) (out : Bytes) (result : StreamByteCap × Bytes) : Prop :=
  ∃ added, Forwarded accepts cap.sent.length (cap.budget.limit - cap.budget.used)
      (texts unicode lines) added ∧
    result.2 = out ++ added ∧ result.1.sent.flatten = out ++ added

variable {lines : List Bytes}

theorem adds_of_gone (hout : cap.sent.flatten = out)
    (hfail : ¬accepts cap.sent.length = true) (budget : ByteBudget) :
    Adds unicode accepts cap lines out (⟨budget, cap.sent⟩, out) :=
  ⟨[], .none (Bool.eq_false_iff.2 hfail), (append_nil out).symm,
    hout.trans (append_nil out).symm⟩

/-- With its budget used up, the stream sends the marker and closes. -/
theorem adds_of_exhausted {line : Bytes} (hline : line ≠ [])
    (hopen : cap.Open) (hout : cap.sent.flatten = out)
    (hused : cap.budget.used = cap.budget.limit) :
    Adds unicode accepts cap (line :: lines) out
      (cap.merge unicode accepts (line :: lines) out) := by
  have hpos := @size_escapedLine_pos unicode line hline
  rw [merge, hopen.push_exhausted hused]
  by_cases haccept : accepts cap.sent.length = true
  · rw [if_pos haccept]
    have hclosed : Closed ⟨{ cap.budget with truncated := true, markerSent := true },
        cap.sent ++ [Utf8.encode truncationSuffix]⟩ := ⟨hused.ge, rfl⟩
    obtain ⟨hsent, hbody⟩ := @Closed.merge accepts _ (out ++ Utf8.encode truncationSuffix)
      hclosed unicode lines
    refine ⟨Utf8.encode truncationSuffix, ?_, hbody, ?_⟩
    · rw [hused, Nat.sub_self]
      refine .marked ?_ ?_
      · simp only [texts, map_cons, flatten_cons, Utf8.size_append]
        omega
      · simpa using haccept
    · rw [hsent, flatten_append, hout]
      simp
  · rw [if_neg haccept]
    exact adds_of_gone hout haccept _

theorem adds_of_crosses {line : Bytes} (hopen : cap.Open)
    (hout : cap.sent.flatten = out) (hroom : cap.budget.used < cap.budget.limit)
    (hcross : cap.budget.limit < cap.budget.used + Utf8.size (escapedLine unicode line)) :
    Adds unicode accepts cap (line :: lines) out
      (cap.merge unicode accepts (line :: lines) out) := by
  have htake : (Utf8.encode (texts unicode (line :: lines)).flatten).take
      (cap.budget.limit - cap.budget.used) =
        (Utf8.encode (escapedLine unicode line)).take (cap.budget.limit - cap.budget.used) := by
    rw [texts, map_cons, flatten_cons, Utf8.encode_append,
      take_append_of_le_length (by rw [Utf8.length_encode]; omega)]
  have hsize : Utf8.size (texts unicode (line :: lines)).flatten =
      Utf8.size (escapedLine unicode line) + Utf8.size (texts unicode lines).flatten := by
    simp [texts]
  have hsends : sendsWithin (cap.budget.limit - cap.budget.used)
      (texts unicode (line :: lines)) = 1 := by
    rw [texts, map_cons, sendsWithin, if_neg (by omega), Nat.sub_eq_zero_of_le (by omega),
      sendsWithin_zero]
  rw [merge, hopen.push_crosses hroom (by rw [Utf8.length_encode]; exact hcross)]
  by_cases haccept : accepts cap.sent.length = true
  · rw [if_pos haccept]
    by_cases hmarker : accepts (cap.sent.length + 1) = true
    · rw [if_pos hmarker]
      have hclosed : Closed ⟨{ cap.budget with
          used := cap.budget.limit, truncated := true, markerSent := true },
        cap.sent ++ [(Utf8.encode (escapedLine unicode line)).take
          (cap.budget.limit - cap.budget.used)] ++ [Utf8.encode truncationSuffix]⟩ :=
        ⟨le_rfl, rfl⟩
      obtain ⟨hsent, hbody⟩ := @Closed.merge accepts _
        (out ++ (Utf8.encode (escapedLine unicode line)).take
          (cap.budget.limit - cap.budget.used) ++ Utf8.encode truncationSuffix)
        hclosed unicode lines
      refine ⟨_, .marked (by omega) fun n hn => ?_, ?_, ?_⟩
      · rw [hsends] at hn
        interval_cases n
        · exact haccept
        · exact hmarker
      · rw [hbody, htake, append_assoc]
      · rw [hsent, htake, flatten_append, flatten_append, hout]
        simp
    · rw [if_neg hmarker]
      refine ⟨_, .unmarked (cap.budget.limit - cap.budget.used) le_rfl (by omega)
        (fun _ => ⟨1, hsends.ge, Bool.eq_false_iff.2 hmarker⟩)
        (fun hall => absurd (hall _) hmarker), ?_, ?_⟩
      · rw [htake]
      · rw [htake, flatten_append, hout]
        simp
  · rw [if_neg haccept]
    exact adds_of_gone hout haccept _

/-- The merger keeps exactly what it forwarded, and forwards the escaped lines up to the budget
and then one marker, unless the client is gone before. -/
theorem merge_spec (hlines : ∀ line ∈ lines, line ≠ [])
    (hopen : cap.Open) (hout : cap.sent.flatten = out) :
    Adds unicode accepts cap lines out (cap.merge unicode accepts lines out) := by
  induction lines generalizing cap out with
  | nil =>
    exact ⟨[], .unmarked 0 (Nat.zero_le _) le_rfl (fun h => absurd h (Nat.not_lt_zero _))
      fun _ => rfl, (append_nil out).symm, hout.trans (append_nil out).symm⟩
  | cons line lines ih =>
    have hline := hlines line mem_cons_self
    have hpos := @size_escapedLine_pos unicode line hline
    have hlen : (Utf8.encode (escapedLine unicode line)).length =
        Utf8.size (escapedLine unicode line) := Utf8.length_encode _
    rcases hopen.used.lt_or_eq with hroom | hused
    · rcases Nat.lt_or_ge cap.budget.limit
        (cap.budget.used + Utf8.size (escapedLine unicode line)) with hcross | hfit
      · exact adds_of_crosses hopen hout hroom hcross
      · rw [merge, hopen.push_fits (by omega) (by omega)]
        by_cases haccept : accepts cap.sent.length = true
        · rw [if_pos haccept]
          have hopen' : Open ⟨{ cap.budget with
              used := cap.budget.used + (Utf8.encode (escapedLine unicode line)).length },
              cap.sent ++ [Utf8.encode (escapedLine unicode line)]⟩ :=
            ⟨by dsimp only; omega, hopen.truncated, hopen.markerSent⟩
          have hout' : (cap.sent ++ [Utf8.encode (escapedLine unicode line)]).flatten =
              out ++ Utf8.encode (escapedLine unicode line) := by
            rw [flatten_append, hout]
            simp
          obtain ⟨added, hadded, hbody, hsent⟩ :=
            ih (fun l hl => hlines l (mem_cons_of_mem _ hl)) hopen' hout'
          dsimp only at hadded
          rw [length_append, length_singleton, hlen, ← Nat.sub_sub] at hadded
          refine ⟨_, hadded.cons (by omega) (by omega) haccept, ?_, ?_⟩
          · rw [hbody, append_assoc]
          · rw [hsent, append_assoc]
        · rw [if_neg haccept]
          exact adds_of_gone hout haccept _
    · exact adds_of_exhausted hline hopen hout hused

end StreamByteCap

/-! ### The record against the stream -/

/-- What a stream shows of its bytes: all of them, or the first and one marker. -/
def capStream (limit : ℕ) (bytes : Bytes) : Bytes :=
  if bytes.length ≤ limit then bytes else bytes.take limit ++ Utf8.encode truncationSuffix

def shellFooter : Text := "\n\nExit code: ".toList ++ exitCodeText code

/-- The record of a run shows what the client saw. The client saw the escaped lines up to the
budget and one marker if they cross it, or the first part of that if it was gone before; the
record is the escaped header, the text of what the client saw and the footer; it is within the
limit, and recording changes nothing of it. -/
structure RecordedAsStreamed (unicode : FormatCategory) (accepts : ℕ → Bool) (displayCmd : Text)
    (arrivals : List Bytes) (timeoutMs : ℕ) (code : Option Int32) : Prop where
  seen : (runShellStreaming unicode accepts displayCmd arrivals timeoutMs code).2.flatten <+:
    capStream (streamLimit unicode displayCmd)
      (Utf8.encode (StreamByteCap.texts unicode arrivals).flatten)
  seenWhole : (∀ n, accepts n = true) →
    (runShellStreaming unicode accepts displayCmd arrivals timeoutMs code).2.flatten =
      capStream (streamLimit unicode displayCmd)
        (Utf8.encode (StreamByteCap.texts unicode arrivals).flatten)
  text : (runShellStreaming unicode accepts displayCmd arrivals timeoutMs code).1 =
    sanitizeTranscript unicode (shellHeader displayCmd) ++
      Utf8.decodeLossy
        (runShellStreaming unicode accepts displayCmd arrivals timeoutMs code).2.flatten ++
      shellFooter code
  bounded : Utf8.size (runShellStreaming unicode accepts displayCmd arrivals timeoutMs code).1 ≤
    maxToolOutputBytes
  recorded : recordedContent unicode
      (runShellStreaming unicode accepts displayCmd arrivals timeoutMs code).1 =
    (runShellStreaming unicode accepts displayCmd arrivals timeoutMs code).1

/-- If the lines cross the budget and the client takes the marker, the replacement of the
character at the cut and the exit code together have at most eleven bytes. -/
def CutHasRoom (accepts : ℕ → Bool) (displayCmd : Text)
    (arrivals : List Bytes) (code : Option Int32) : Prop :=
  streamLimit unicode displayCmd < Utf8.size (StreamByteCap.texts unicode arrivals).flatten →
    (∀ n ≤ sendsWithin (streamLimit unicode displayCmd) (StreamByteCap.texts unicode arrivals),
      accepts n = true) →
    Utf8.growth (Utf8.cutBytes (streamLimit unicode displayCmd)
        (StreamByteCap.texts unicode arrivals).flatten) +
      (exitCodeText code).length ≤ 11

theorem exitCodeText_cases :
    (∃ n < 2 ^ 31, exitCodeText code = Nat.toDigits 10 n) ∨
      ∃ n ≤ 2 ^ 31, exitCodeText code = '-' :: Nat.toDigits 10 n := by
  have hlow := (code.getD (-1)).le_toInt
  have hhigh := (code.getD (-1)).toInt_lt
  rw [exitCodeText]
  generalize (code.getD (-1)).toInt = i at hlow hhigh ⊢
  rcases i with n | n
  · refine .inl ⟨n, by simp at hhigh; omega, ?_⟩
    rw [Int.toString_eq_repr, Int.repr, Nat.toList_repr]
  · refine .inr ⟨n + 1, by simp at hlow; omega, ?_⟩
    rw [Int.toString_eq_repr, Int.repr]
    simp

theorem exitCodeText_ascii : ∀ c ∈ exitCodeText code, c.toNat < 0x80 := by
  rcases exitCodeText_cases code with ⟨n, -, htext⟩ | ⟨n, -, htext⟩
  · rw [htext]
    exact toDigits_ascii (by norm_num) n
  · rw [htext]
    intro c hc
    rcases mem_cons.1 hc with rfl | hc
    · decide
    · exact toDigits_ascii (by norm_num) n c hc

/-- An exit code has at most ten digits and a sign. -/
theorem length_exitCodeText_le : (exitCodeText code).length ≤ 11 := by
  rcases exitCodeText_cases code with ⟨n, hn, htext⟩ | ⟨n, hn, htext⟩
  · have hlen : (Nat.toDigits 10 n).length ≤ 10 :=
      (Nat.length_toDigits_le_iff (by norm_num) (by norm_num)).2 (by omega)
    rw [htext]
    omega
  · have hlen : (Nat.toDigits 10 n).length ≤ 10 :=
      (Nat.length_toDigits_le_iff (by norm_num) (by norm_num)).2 (by omega)
    rw [htext, length_cons]
    omega

theorem shellFooter_ascii : ∀ c ∈ shellFooter code, c.toNat < 0x80 := by
  intro c hc
  rcases mem_append.1 hc with hc | hc
  · have hfixed : ∀ c ∈ "\n\nExit code: ".toList, c.toNat < 0x80 :=
      Utf8.ascii_of_all (by decide)
    exact hfixed c hc
  · exact exitCodeText_ascii code c hc

theorem newline_cons_exitCode (text : Text) :
    '\n' :: ("\nExit code: ".toList ++ text) = "\n\nExit code: ".toList ++ text := by
  simp

theorem length_exitCode_append (text : Text) :
    ("\n\nExit code: ".toList ++ text).length = text.length + 13 := by
  simp

theorem size_shellFooter :
    Utf8.size (shellFooter code) = (exitCodeText code).length + 13 := by
  rw [Utf8.size_eq_length (shellFooter_ascii code)]
  exact length_exitCode_append _

theorem truncationSuffix_ascii : ∀ c ∈ truncationSuffix, c.toNat < 0x80 :=
  Utf8.ascii_of_all (by decide)

theorem size_truncationSuffix : Utf8.size truncationSuffix = 15 := by decide

section Record

variable {unicode : FormatCategory} {displayCmd : Text} {body : Bytes}

theorem formatShellOutput_eq (hclean : Clean unicode (Utf8.decodeLossy body)) (timeoutMs : ℕ)
    (code : Option Int32) :
    formatShellOutput unicode displayCmd { stdout := body, code := code } timeoutMs false =
      truncateToolOutputAt
          (sanitizeTranscript unicode (shellHeader displayCmd) ++ Utf8.decodeLossy body)
          (maxToolOutputBytes - ((exitCodeText code).length + 28)) ++ shellFooter code := by
  have htail : '\n' :: ("\nExit code: ".toList ++ exitCodeText code) = shellFooter code :=
    newline_cons_exitCode _
  have hstderr : ([] : Bytes).isEmpty = true := rfl
  rw [formatShellOutput, if_neg Bool.false_ne_true]
  dsimp only
  rw [if_pos hstderr, finishToolOutputSanitized, sanitizeTranscript_append,
    hclean.sanitizeTranscript, finishToolOutput]
  rw [htail, size_shellFooter, size_truncationSuffix, Nat.add_assoc]

theorem clean_cut {text : Text} (h : Clean unicode text) (n : ℕ) :
    Clean unicode (Utf8.floorPrefix n text ++ Utf8.cutMark (Utf8.cutBytes n text)) := by
  refine clean_append.2
    ⟨fun c hc => h c ((Utf8.floorPrefix_isPrefix n text).subset hc), fun c hc => ?_⟩
  rw [Utf8.cutMark] at hc
  split_ifs at hc with hcut
  · simp at hc
  · rw [mem_singleton.1 hc, isNonJoinerFormatChar, unicode.replacement, Bool.false_and]

theorem fresh_truncationSuffix : Utf8.Fresh (Utf8.encode truncationSuffix) := by
  have hhead : (Utf8.encode truncationSuffix).head? = some 0x0A := by decide
  intro b hb
  rw [hhead] at hb
  obtain rfl : 0x0A = b := Option.some.inj hb
  decide

theorem decodeLossy_marked {text : Text} {n : ℕ} (hn : n ≤ Utf8.size text) :
    Utf8.decodeLossy ((Utf8.encode text).take n ++ Utf8.encode truncationSuffix) =
      Utf8.floorPrefix n text ++ Utf8.cutMark (Utf8.cutBytes n text) ++ truncationSuffix := by
  rw [Utf8.decodeLossy_take_encode_append hn fresh_truncationSuffix, Utf8.decodeLossy_encode]

/-- The text of first bytes. -/
theorem decodeLossy_unmarked {text : Text} {n : ℕ} (hn : n ≤ Utf8.size text) :
    Utf8.decodeLossy ((Utf8.encode text).take n) =
      Utf8.floorPrefix n text ++ Utf8.cutMark (Utf8.cutBytes n text) := by
  have h := @Utf8.decodeLossy_take_encode_append n [] text hn (by simp [Utf8.Fresh])
  simpa using h

variable {code : Option Int32}

theorem formatShellOutput_of_fits (hclean : Clean unicode (Utf8.decodeLossy body))
    (hfits : Utf8.size (sanitizeTranscript unicode (shellHeader displayCmd)) +
      Utf8.size (Utf8.decodeLossy body) + (exitCodeText code).length + 28 ≤ maxToolOutputBytes)
    (timeoutMs : ℕ) :
    formatShellOutput unicode displayCmd { stdout := body, code := code } timeoutMs false =
      sanitizeTranscript unicode (shellHeader displayCmd) ++ Utf8.decodeLossy body ++
        shellFooter code := by
  rw [formatShellOutput_eq hclean, truncateToolOutputAt, if_pos]
  rw [Utf8.size_append]
  omega

/-- A body that leaves too little room loses its end to a second marker. The record has another
size then than the header, the body and the footer have. -/
theorem formatShellOutput_of_overflow (hclean : Clean unicode (Utf8.decodeLossy body))
    (hover : maxToolOutputBytes < Utf8.size (sanitizeTranscript unicode (shellHeader displayCmd)) +
      Utf8.size (Utf8.decodeLossy body) + (exitCodeText code).length + 28)
    (hless : Utf8.size (sanitizeTranscript unicode (shellHeader displayCmd)) +
      Utf8.size (Utf8.decodeLossy body) + (exitCodeText code).length + 16 < maxToolOutputBytes)
    (timeoutMs : ℕ) :
    formatShellOutput unicode displayCmd { stdout := body, code := code } timeoutMs false ≠
      sanitizeTranscript unicode (shellHeader displayCmd) ++ Utf8.decodeLossy body ++
        shellFooter code := by
  set whole := sanitizeTranscript unicode (shellHeader displayCmd) ++ Utf8.decodeLossy body
    with hwhole
  have hsize : Utf8.size whole = Utf8.size (sanitizeTranscript unicode (shellHeader displayCmd)) +
      Utf8.size (Utf8.decodeLossy body) := Utf8.size_append _ _
  have hexit := length_exitCodeText_le code
  have hmax : maxToolOutputBytes = 131072 := rfl
  have hlt : maxToolOutputBytes - ((exitCodeText code).length + 28) < Utf8.size whole := by omega
  have hcut := Utf8.cutBytes_le_three hlt
  rw [formatShellOutput_eq hclean, ← hwhole, truncateToolOutputAt, if_neg (by omega)]
  intro heq
  have hsizes := congrArg Utf8.size (append_cancel_right heq)
  rw [Utf8.size_append, size_truncationSuffix] at hsizes
  rw [Utf8.cutBytes] at hcut
  omega

theorem recordedContent_of_clean {content : Text} (hclean : Clean unicode content)
    (hsize : Utf8.size content ≤ maxToolOutputBytes) :
    recordedContent unicode content = content := by
  rw [recordedContent, hclean.sanitizeTranscript, truncateToolOutput, truncateToolOutputAt,
    if_pos hsize]

variable {accepts : ℕ → Bool} {arrivals : List Bytes}

theorem clean_texts (unicode : FormatCategory) (lines : List Bytes) :
    Clean unicode (StreamByteCap.texts unicode lines).flatten := by
  intro c hc
  obtain ⟨text, htext, hc⟩ := mem_flatten.1 hc
  obtain ⟨line, -, rfl⟩ := mem_map.1 htext
  exact clean_sanitizeTranscript _ c hc

theorem runShellStreaming_spec (hlines : ∀ line ∈ arrivals, line ≠ []) (timeoutMs : ℕ)
    (code : Option Int32) :
    ∃ body, Forwarded accepts 0 (streamLimit unicode displayCmd)
        (StreamByteCap.texts unicode arrivals) body ∧
      (runShellStreaming unicode accepts displayCmd arrivals timeoutMs code).1 =
        formatShellOutput unicode displayCmd { stdout := body, code := code } timeoutMs false ∧
      (runShellStreaming unicode accepts displayCmd arrivals timeoutMs code).2.flatten = body := by
  have hopen : StreamByteCap.Open { budget := { limit := streamLimit unicode displayCmd } } :=
    ⟨Nat.zero_le _, rfl, rfl⟩
  obtain ⟨body, hbody, hfull, hsent⟩ :=
    @StreamByteCap.merge_spec accepts _ [] unicode arrivals hlines hopen rfl
  refine ⟨body, hbody, ?_, hsent⟩
  change formatShellOutput unicode displayCmd { stdout := Prod.snd _, code := code } timeoutMs
    false = _
  rw [hfull, nil_append]

theorem streamLimit_add (hres : shellOutputFramingReservation unicode displayCmd <
      maxToolOutputBytes) :
    Utf8.size (sanitizeTranscript unicode (shellHeader displayCmd)) +
      streamLimit unicode displayCmd + 54 = maxToolOutputBytes := by
  have hfooter : Utf8.size "\n\nExit code: -2147483648".toList = 24 := by decide
  rw [streamLimit]
  rw [shellOutputFramingReservation, hfooter, size_truncationSuffix] at hres ⊢
  omega

theorem Forwarded.seen {sends limit : ℕ} {texts : List Text}
    (h : Forwarded accepts sends limit texts body) :
    body <+: capStream limit (Utf8.encode texts.flatten) ∧
      ((∀ n, accepts n = true) → body = capStream limit (Utf8.encode texts.flatten)) := by
  rw [capStream, Utf8.length_encode]
  cases h with
  | marked hcross htaken =>
    rw [if_neg (by omega)]
    exact ⟨prefix_rfl, fun _ => rfl⟩
  | unmarked m hm hsize hgone hall =>
    split_ifs with hfit
    · refine ⟨List.take_prefix _ _, fun h => ?_⟩
      rw [hall h, ← Utf8.length_encode, take_length]
    · obtain ⟨n, -, hfail⟩ := hgone (by omega)
      refine ⟨?_, fun h => absurd (h _) (by rw [hfail]; exact Bool.false_ne_true)⟩
      exact ((take_prefix_take_left hm).trans (prefix_append _ _))

/-- A body that fits makes the record show what the client saw. -/
theorem recordedAsStreamed_of_fits {timeoutMs : ℕ}
    (hbody : Forwarded accepts 0 (streamLimit unicode displayCmd)
      (StreamByteCap.texts unicode arrivals) body)
    (hrecord : (runShellStreaming unicode accepts displayCmd arrivals timeoutMs code).1 =
      formatShellOutput unicode displayCmd { stdout := body, code := code } timeoutMs false)
    (hsent : (runShellStreaming unicode accepts displayCmd arrivals timeoutMs code).2.flatten =
      body)
    (hclean : Clean unicode (Utf8.decodeLossy body))
    (hfits : Utf8.size (sanitizeTranscript unicode (shellHeader displayCmd)) +
      Utf8.size (Utf8.decodeLossy body) + (exitCodeText code).length + 28 ≤ maxToolOutputBytes) :
    RecordedAsStreamed unicode accepts displayCmd arrivals timeoutMs code := by
  have htext := hrecord.trans (formatShellOutput_of_fits hclean hfits timeoutMs)
  have hbounded : Utf8.size
      (runShellStreaming unicode accepts displayCmd arrivals timeoutMs code).1 ≤
        maxToolOutputBytes := by
    rw [htext, Utf8.size_append, Utf8.size_append, size_shellFooter]
    omega
  have hcleanRecord : Clean unicode
      (runShellStreaming unicode accepts displayCmd arrivals timeoutMs code).1 := by
    rw [htext]
    exact clean_append.2 ⟨clean_append.2 ⟨clean_sanitizeTranscript _, hclean⟩,
      clean_of_ascii (shellFooter_ascii code)⟩
  refine ⟨?_, ?_, ?_, hbounded, recordedContent_of_clean hcleanRecord hbounded⟩
  · rw [hsent]
    exact hbody.seen.1
  · rw [hsent]
    exact hbody.seen.2
  · rw [hsent, htext]

end Record

section Main

variable {unicode : FormatCategory} {accepts : ℕ → Bool} {displayCmd : Text}
  {arrivals : List Bytes}

theorem CutHasRoom.recordedAsStreamed (hlines : ∀ line ∈ arrivals, line ≠ [])
    (hres : shellOutputFramingReservation unicode displayCmd < maxToolOutputBytes)
    {code : Option Int32} (h : CutHasRoom unicode accepts displayCmd arrivals code)
    (timeoutMs : ℕ) : RecordedAsStreamed unicode accepts displayCmd arrivals timeoutMs code := by
  obtain ⟨body, hbody, hrecord, hsent⟩ :=
    @runShellStreaming_spec unicode displayCmd accepts arrivals hlines timeoutMs code
  have hlimit := streamLimit_add hres
  have hexit := length_exitCodeText_le code
  have htexts := clean_texts unicode arrivals
  have hforwarded := hbody
  cases hbody with
  | marked hcross htaken =>
    have hroom := h hcross (by simpa using htaken)
    have hdecode := decodeLossy_marked hcross.le
    refine recordedAsStreamed_of_fits hforwarded hrecord hsent ?_ ?_
    · rw [hdecode]
      exact clean_append.2 ⟨clean_cut htexts _, clean_of_ascii truncationSuffix_ascii⟩
    · rw [hdecode, Utf8.size_append, Utf8.size_cut hcross.le, size_truncationSuffix]
      omega
  | unmarked m hm hsize hgone hall =>
    have hdecode := decodeLossy_unmarked hsize
    refine recordedAsStreamed_of_fits hforwarded hrecord hsent ?_ ?_
    · rw [hdecode]
      exact clean_cut htexts _
    · have hgrowth := Utf8.growth_le_two
        (Utf8.cutBytes m (StreamByteCap.texts unicode arrivals).flatten)
      rw [hdecode, Utf8.size_cut hsize]
      omega

/-- A cut without room loses the end of the stream to a second marker. -/
theorem not_recordedAsStreamed (hlines : ∀ line ∈ arrivals, line ≠ [])
    (hres : shellOutputFramingReservation unicode displayCmd < maxToolOutputBytes)
    {code : Option Int32}
    (hcross : streamLimit unicode displayCmd <
      Utf8.size (StreamByteCap.texts unicode arrivals).flatten)
    (htaken : ∀ n ≤ sendsWithin (streamLimit unicode displayCmd)
      (StreamByteCap.texts unicode arrivals), accepts n = true)
    (hover : 11 < Utf8.growth (Utf8.cutBytes (streamLimit unicode displayCmd)
        (StreamByteCap.texts unicode arrivals).flatten) + (exitCodeText code).length)
    (timeoutMs : ℕ) :
    ¬RecordedAsStreamed unicode accepts displayCmd arrivals timeoutMs code := by
  obtain ⟨body, hbody, hrecord, hsent⟩ :=
    @runShellStreaming_spec unicode displayCmd accepts arrivals hlines timeoutMs code
  have hlimit := streamLimit_add hres
  have hexit := length_exitCodeText_le code
  have htexts := clean_texts unicode arrivals
  cases hbody with
  | marked _ _ =>
    have hdecode := decodeLossy_marked hcross.le
    have hgrowth := Utf8.growth_le_two (Utf8.cutBytes (streamLimit unicode displayCmd)
      (StreamByteCap.texts unicode arrivals).flatten)
    have hclean := clean_append.2
      ⟨clean_cut htexts (streamLimit unicode displayCmd), clean_of_ascii truncationSuffix_ascii⟩
    have hsize := congrArg Utf8.size hdecode
    rw [Utf8.size_append, Utf8.size_cut hcross.le, size_truncationSuffix] at hsize
    rw [← hdecode] at hclean
    intro h
    have htext := h.text
    rw [hrecord, hsent] at htext
    exact formatShellOutput_of_overflow hclean (by omega) (by omega) timeoutMs htext
  | unmarked m hm hsize hgone hall =>
    obtain ⟨n, hn, hfail⟩ := hgone hcross
    rw [Nat.zero_add, htaken n hn] at hfail
    exact absurd hfail (by decide)

/-- **The record of a shell command against its stream.** However the pipes are read and the lines
of the two streams interleave, the record shows what the client saw exactly when the stream is not
cut, or the replacement of the character at the cut and the exit code together have at most
eleven bytes. -/
theorem recordedAsStreamed_iff {stdout stderr : List Bytes}
    (harrivals : Interleaving (drainLines stdout) (drainLines stderr) arrivals)
    (hres : shellOutputFramingReservation unicode displayCmd < maxToolOutputBytes)
    (timeoutMs : ℕ) (code : Option Int32) :
    RecordedAsStreamed unicode accepts displayCmd arrivals timeoutMs code ↔
      CutHasRoom unicode accepts displayCmd arrivals code := by
  have hlines : ∀ line ∈ arrivals, line ≠ [] := fun line hline =>
    (harrivals.mem hline).elim (drainLines_ne_nil stdout line) (drainLines_ne_nil stderr line)
  constructor
  · intro h hcross htaken
    by_contra hover
    exact not_recordedAsStreamed hlines hres hcross htaken (by omega) timeoutMs h
  · exact fun h => h.recordedAsStreamed hlines hres timeoutMs

end Main

theorem interleaving_left {α : Type} (xs : List α) : Interleaving xs [] xs := by
  induction xs with
  | nil => exact .nil
  | cons x xs ih => exact ih.left

theorem recordedAsStreamed_hello :
    RecordedAsStreamed .listed (fun _ => true) "ls".toList (drainLines [[0x68, 0x69, 0x0A]]) 1000
      (some 0) :=
  (@recordedAsStreamed_iff .listed (fun _ => true) "ls".toList _ [[0x68, 0x69, 0x0A]] []
    (interleaving_left _) (by decide) 1000 _).2
    fun hcross => absurd hcross (by decide)

/-- A line with one character of three bytes. -/
def euroLine : Bytes := [0xE2, 0x82, 0xAC, 0x0A]

theorem drainLines_replicate (n : ℕ) :
    drainLines (List.replicate n euroLine) = List.replicate n euroLine := by
  have hstep (lines : List Bytes) :
      LineDrain.forwardCompleteLines { lines := lines } euroLine =
        { lines := lines ++ [euroLine] } := rfl
  have hrun (lines : List Bytes) :
      (List.replicate n euroLine).foldl LineDrain.forwardCompleteLines { lines := lines } =
        { lines := lines ++ List.replicate n euroLine } := by
    induction n generalizing lines with
    | zero => simp
    | succ n ih => rw [replicate_succ, foldl_cons, hstep, ih, append_assoc,
        singleton_append]
  rw [drainLines, hrun]
  simp

theorem texts_replicate (n : ℕ) :
    StreamByteCap.texts .listed (List.replicate n euroLine) = List.replicate n ['€', '\n'] := by
  have hline : StreamByteCap.escapedLine .listed euroLine = ['€', '\n'] := by decide
  rw [StreamByteCap.texts, map_replicate, hline]

theorem size_replicate (n : ℕ) :
    Utf8.size (List.replicate n ['€', '\n']).flatten = 4 * n := by
  have hline : Utf8.size ['€', '\n'] = 4 := by decide
  induction n with
  | zero => rfl
  | succ n ih => rw [replicate_succ, flatten_cons, Utf8.size_append, ih, hline]; ring

/-- The exit code of a process that Windows ends for an access violation has eleven characters:
two bytes of a character at the cut grow to three, and the record is cut a second time. -/
theorem not_recordedAsStreamed_euroLines :
    Interleaving (drainLines (List.replicate 32754 euroLine)) (drainLines [])
        (List.replicate 32754 euroLine) ∧
      shellOutputFramingReservation .listed ['x'] < maxToolOutputBytes ∧
      ¬RecordedAsStreamed .listed (fun _ => true) ['x'] (List.replicate 32754 euroLine) 1000
        (some (-1073741819)) := by
  have hres : shellOutputFramingReservation .listed ['x'] < maxToolOutputBytes := by
    decide
  have hlimit : streamLimit .listed ['x'] = 131014 := by decide
  refine ⟨?_, hres, ?_⟩
  · rw [drainLines_replicate]
    exact interleaving_left _
  · have hcut : Utf8.cutBytes 131014 (List.replicate 32754 ['€', '\n']).flatten = 2 := by
      have hsplit : (List.replicate 32754 ['€', '\n']).flatten =
          (List.replicate 32753 ['€', '\n']).flatten ++ '€' :: ['\n'] := by
        rw [replicate_succ', flatten_append, flatten_singleton]
      have hn : 131014 = Utf8.size (List.replicate 32753 ['€', '\n']).flatten + 2 := by
        rw [size_replicate]
      rw [Utf8.cutBytes, hsplit, hn, Utf8.floorPrefix_append _ (by decide),
        Nat.add_sub_cancel_left]
    have hcode : (exitCodeText (some (-1073741819))).length = 11 := by decide
    refine not_recordedAsStreamed (fun line hline => ?_) hres ?_ (fun _ _ => rfl) ?_ 1000
    · rw [eq_of_mem_replicate hline]
      exact cons_ne_nil _ _
    · rw [hlimit, texts_replicate, size_replicate]
      norm_num
    · rw [hlimit, texts_replicate, hcut, hcode]
      decide

end Choreo
