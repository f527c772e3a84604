import Choreo.Library.Runs
import Choreo.Library.TreeMap
import Choreo.Library.Utf8Cuts
import Choreo.Library.Utf8Strict
import Choreo.Text
import Choreo.Wire.Messages

/-!
# The bridge of the instant messengers

The bridge (`daemon_to_bridge_events` of `choreo-im/src/bridge.rs`) collects the chunks of a request
and hands a text on when a tool call or the request ends. Chunks are decoded one by one, and all tool
calls of a request share one buffer, so that the texts are those of the calls when chunks hold whole
characters and a call ends before another one sends its output.
-/

namespace Utf8

/-- Bytes that are accepted end between two characters. -/
theorem stateAfter_of_fromUtf8From {s : Option Partial} {valid : ℕ} {bytes : List UInt8}
    {text : List Char} (h : fromUtf8From s valid bytes = .ok text) :
    stateAfter s bytes = none := by
  induction bytes generalizing s valid text with
  | nil =>
    cases s with
    | none => rfl
    | some p => cases h
  | cons b bytes ih =>
    rw [stateAfter_cons]
    cases s with
    | none =>
      rw [fromUtf8From] at h
      rw [next]
      rcases hstart : start b with c | p <;> rw [hstart] at h
      · dsimp only at h
        split_ifs at h
        obtain ⟨rest, hrest, -⟩ := map_eq_ok h
        exact ih hrest
      · exact ih h
    | some p =>
      rw [fromUtf8From] at h
      rw [next]
      split_ifs at h with haccepts
      rw [if_pos haccepts]
      rcases hextend : p.extend b with c | q <;> rw [hextend] at h
      · obtain ⟨rest, hrest, -⟩ := map_eq_ok h
        exact ih hrest
      · exact ih h

end Utf8

namespace Choreo.Im

open Wire (DaemonMessage)

/-! ### The bridge -/

/-- The text of some bytes. -/
def decoded (bytes : Bytes) : String := String.ofList (Utf8.decodeLossy bytes)

/-- The reasoning and the answer of a request so far. -/
structure StreamBuffer where
  reasoning : String := ""
  answer : String := ""
deriving DecidableEq

namespace StreamBuffer

def append (buffer : StreamBuffer) (stream : OutputStream) (data : String) : StreamBuffer :=
  match stream with
  | .reasoning => { buffer with reasoning := buffer.reasoning ++ data }
  | .answer => { buffer with answer := buffer.answer ++ data }

def flatten (buffer : StreamBuffer) : String :=
  trim ((if buffer.reasoning = "" then "" else "[reasoning]\n" ++ buffer.reasoning ++ "\n\n") ++
    buffer.answer)

theorem flatten_empty : ({} : StreamBuffer).flatten = "" := by decide

end StreamBuffer

inductive BridgeEvent
  | text (text : String)
  | toolCallStarted (name argumentsJson : String)
  | toolCallFinished (name output : String)
  | toolCallFailed (name error : String)
  | error (error : String)
  | models (models : List String) (selected : Option String)
  | modelSelected (model : String)
  | unlocked
  | locked
  | pong
deriving DecidableEq

/-- The buffers, by the ids of requests. -/
structure Bridge where
  buffers : Std.ExtTreeMap UInt32 StreamBuffer := ∅
  toolBuffers : Std.ExtTreeMap UInt32 String := ∅

variable (event : Wire.SessionEvent)

def handleSession (b : Bridge) : Bridge × Option BridgeEvent :=
  match event with
  | .outputChunk requestId stream data =>
    let entry := ((b.buffers[requestId]?).getD {}).append stream (decoded data)
    ({ b with buffers := b.buffers.insert requestId entry }, none)
  | .done requestId _ _ =>
    ({ b with buffers := b.buffers.erase requestId },
      (b.buffers[requestId]?).bind fun entry =>
        if entry.flatten = "" then none else some (.text entry.flatten))
  | .failed requestId error =>
    ({ b with buffers := b.buffers.erase requestId }, some (.error error))
  | .cancelled requestId =>
    ({ buffers := b.buffers.erase requestId, toolBuffers := b.toolBuffers.erase requestId },
      some (.error "cancelled"))
  | .toolCallStarted _ _ name argumentsJson _ => (b, some (.toolCallStarted name argumentsJson))
  | .toolCallFinished requestId _ name =>
    ({ b with toolBuffers := b.toolBuffers.erase requestId },
      some (.toolCallFinished name ((b.toolBuffers[requestId]?).getD "")))
  | .toolCallFailed requestId _ name error =>
    ({ b with toolBuffers := b.toolBuffers.erase requestId }, some (.toolCallFailed name error))
  | .modelSelected model _ => (b, some (.modelSelected model))
  | .sessionFailed _ error | .modelSelectionFailed _ error => (b, some (.error error))
  | .toolResultChunk requestId _ data =>
    match Utf8.fromUtf8 data with
    | .error _ => (b, none)
    | .ok text =>
      let output := (b.toolBuffers[requestId]?).getD "" ++ String.ofList text
      ({ b with toolBuffers := b.toolBuffers.insert requestId output }, none)
  | _ => (b, none)

variable (msg : DaemonMessage)

/-- What the bridge does with a message. -/
def daemonToBridgeEvents (b : Bridge) : Bridge × Option BridgeEvent :=
  match msg with
  | .session _ event => handleSession event b
  | .models models selected => (b, some (.models models selected))
  | .unlocked => (b, some .unlocked)
  | .locked => (b, some .locked)
  | .pong => (b, some .pong)
  | .lockedError error | .modelsFailed error => (b, some (.error error))
  | _ => (b, none)

/-! ### The chunks of a request -/

/-- The chunks of tool output that no end of a call or of the request took, after an event. -/
def outstandingStep (requestId : UInt32) (chunks : List (String × Bytes)) :
    Wire.SessionEvent → List (String × Bytes)
  | .toolResultChunk id callId data => if id = requestId then chunks ++ [(callId, data)] else chunks
  | .toolCallFinished id callId _ | .toolCallFailed id callId _ _ =>
    if id = requestId then chunks.filter (·.1 ≠ callId) else chunks
  | .done id _ _ | .failed id _ | .cancelled id => if id = requestId then [] else chunks
  | _ => chunks

def streamedStep (requestId : UInt32) (stream : OutputStream) (bytes : Bytes) :
    Wire.SessionEvent → Bytes
  | .outputChunk id stream' data =>
    if id = requestId ∧ stream' = stream then bytes ++ data else bytes
  | .done id _ _ | .failed id _ | .cancelled id => if id = requestId then [] else bytes
  | _ => bytes

variable (log : List Wire.SessionEvent)

def outstanding (requestId : UInt32) : List (String × Bytes) :=
  log.foldl (outstandingStep requestId) []

def streamed (requestId : UInt32) (stream : OutputStream) : Bytes :=
  log.foldl (streamedStep requestId stream) []

/-- The output of a call so far. -/
def ownChunks (requestId : UInt32) (callId : String) : Bytes :=
  ((outstanding log requestId).filter (·.1 = callId)).flatMap (·.2)

/-- The bridge with the events it has seen. -/
structure Forwarding where
  log : List Wire.SessionEvent := []
  bridge : Bridge := {}

def Forwarding.next (t : Forwarding) : DaemonMessage → Forwarding
  | .session _ event => ⟨t.log ++ [event], (handleSession event t.bridge).1⟩
  | msg => ⟨t.log, (daemonToBridgeEvents msg t.bridge).1⟩

/-- The bridge takes every message. -/
def step (t : Forwarding) : Option Forwarding := some (t.next msg)

/-- Chunks hold whole characters; a call ends when no output of another call is left, and a request
when none is. -/
def Clean (t : Forwarding) : Prop :=
  match msg with
  | .session _ (.toolResultChunk _ _ data) => (Utf8.fromUtf8 data).isOk = true
  | .session _ (.outputChunk _ _ data) => Utf8.stateAfter none data = none
  | .session _ (.toolCallFinished requestId callId _)
  | .session _ (.toolCallFailed requestId callId _ _) =>
    ∀ chunk ∈ outstanding t.log requestId, chunk.1 = callId
  | .session _ (.done requestId _ _) | .session _ (.failed requestId _) =>
    outstanding t.log requestId = []
  | _ => True

def ended : DaemonMessage → Option UInt32
  | .session _ (.done requestId _ _) | .session _ (.failed requestId _)
  | .session _ (.cancelled requestId) => some requestId
  | _ => none

/-- A call that finished is handed on with the text of its own output, a request that is done with
the text of its streams, and nothing is left of a request that ended. -/
structure Forwards (msg : DaemonMessage) (t : Forwarding) : Prop where
  output : ∀ sessionId requestId callId name,
    msg = .session sessionId (.toolCallFinished requestId callId name) →
      (daemonToBridgeEvents msg t.bridge).2 =
        some (.toolCallFinished name (decoded (ownChunks t.log requestId callId)))
  text : ∀ sessionId requestId tokenUsage lastPromptTokens,
    msg = .session sessionId (.done requestId tokenUsage lastPromptTokens) →
      let text := StreamBuffer.flatten
        ⟨decoded (streamed t.log requestId .reasoning), decoded (streamed t.log requestId .answer)⟩
      (daemonToBridgeEvents msg t.bridge).2 = if text = "" then none else some (.text text)
  cleared : ∀ requestId ∈ ended msg,
    (t.next msg).bridge.buffers[requestId]? = none ∧
      (t.next msg).bridge.toolBuffers[requestId]? = none

/-! ### What the buffers hold -/

/-- The text a buffer of tool output has for some chunks. -/
def pending (chunks : List (String × Bytes)) : Option String :=
  if chunks = [] then none else some (decoded (chunks.flatMap (·.2)))

/-- The buffers hold the decoded chunks, which end between two characters. -/
structure Tracks (t : Forwarding) : Prop where
  tools : ∀ requestId, t.bridge.toolBuffers[requestId]? = pending (outstanding t.log requestId)
  streams : ∀ requestId, (t.bridge.buffers[requestId]?).getD {} =
    StreamBuffer.mk (decoded (streamed t.log requestId .reasoning))
      (decoded (streamed t.log requestId .answer))
  toolsWhole : ∀ requestId,
    Utf8.stateAfter none ((outstanding t.log requestId).flatMap (·.2)) = none
  streamsWhole : ∀ requestId stream, Utf8.stateAfter none (streamed t.log requestId stream) = none

theorem outstanding_concat (requestId : UInt32) :
    outstanding (log ++ [event]) requestId =
      outstandingStep requestId (outstanding log requestId) event := by
  rw [outstanding, List.foldl_append]
  rfl

theorem streamed_concat (requestId : UInt32)
    (stream : OutputStream) :
    streamed (log ++ [event]) requestId stream =
      streamedStep requestId stream (streamed log requestId stream) event := by
  rw [streamed, List.foldl_append]
  rfl

theorem decoded_append {bytes : Bytes} (h : Utf8.stateAfter none bytes = none) (data : Bytes) :
    decoded (bytes ++ data) = decoded bytes ++ decoded data := by
  rw [decoded, Utf8.decodeLossy_append_of_stateAfter h, String.ofList_append]
  rfl

theorem decoded_nil : decoded [] = "" := rfl

theorem filter_of_all {chunks : List (String × Bytes)} {callId : String}
    (h : ∀ chunk ∈ chunks, chunk.1 = callId) :
    chunks.filter (·.1 = callId) = chunks ∧ chunks.filter (·.1 ≠ callId) = [] := by
  refine ⟨List.filter_eq_self.2 fun x hx => ?_, List.filter_eq_nil_iff.2 fun x hx => ?_⟩ <;>
    simpa using h x hx

theorem tracks_new : Tracks {} :=
  ⟨fun _ => Std.ExtTreeMap.getElem?_empty,
    fun _ => by rw [Std.ExtTreeMap.getElem?_empty]; rfl, fun _ => rfl, fun _ _ => rfl⟩

variable {t : Forwarding} {event : Wire.SessionEvent}

theorem Tracks.ignored (h : Tracks t)
    (hbridge : (handleSession event t.bridge).1 = t.bridge)
    (houtstanding : ∀ requestId chunks, outstandingStep requestId chunks event = chunks)
    (hstreamed : ∀ requestId stream bytes, streamedStep requestId stream bytes event = bytes) :
    Tracks (t.next (.session none event)) := by
  change Tracks ⟨t.log ++ [event], (handleSession event t.bridge).1⟩
  rw [hbridge]
  refine ⟨fun requestId => ?_, fun requestId => ?_, fun requestId => ?_, fun requestId stream => ?_⟩
  · rw [outstanding_concat, houtstanding, h.tools]
  · rw [streamed_concat, streamed_concat, hstreamed, hstreamed, h.streams]
  · rw [outstanding_concat, houtstanding, h.toolsWhole]
  · rw [streamed_concat, hstreamed, h.streamsWhole]

variable {requestId : UInt32}

theorem Tracks.callEnded (h : Tracks t) {callId : String}
    (hown : ∀ chunk ∈ outstanding t.log requestId, chunk.1 = callId)
    (hbridge : (handleSession event t.bridge).1 =
      { t.bridge with toolBuffers := t.bridge.toolBuffers.erase requestId })
    (houtstanding : ∀ id chunks, outstandingStep id chunks event =
      if requestId = id then chunks.filter (·.1 ≠ callId) else chunks)
    (hstreamed : ∀ id stream bytes, streamedStep id stream bytes event = bytes) :
    Tracks (t.next (.session none event)) := by
  change Tracks ⟨t.log ++ [event], (handleSession event t.bridge).1⟩
  rw [hbridge]
  refine ⟨fun id => ?_, fun id => ?_, fun id => ?_, fun id stream => ?_⟩
  · rw [outstanding_concat, houtstanding, Std.ExtTreeMap.get_erase]
    by_cases hid : id = requestId
    · subst hid
      rw [if_pos rfl, if_pos rfl, (filter_of_all hown).2]
      rfl
    · rw [if_neg hid, if_neg (Ne.symm hid), h.tools]
  · rw [streamed_concat, streamed_concat, hstreamed, hstreamed, h.streams]
  · rw [outstanding_concat, houtstanding]
    by_cases hid : requestId = id
    · subst hid
      rw [if_pos rfl, (filter_of_all hown).2]
      rfl
    · rw [if_neg hid, h.toolsWhole]
  · rw [streamed_concat, hstreamed, h.streamsWhole]

theorem Tracks.requestEnded (h : Tracks t)
    (hbuffers : (handleSession event t.bridge).1.buffers = t.bridge.buffers.erase requestId)
    (htools : (handleSession event t.bridge).1.toolBuffers = t.bridge.toolBuffers.erase requestId ∨
      (handleSession event t.bridge).1.toolBuffers = t.bridge.toolBuffers ∧
        outstanding t.log requestId = [])
    (houtstanding : ∀ id chunks, outstandingStep id chunks event =
      if requestId = id then [] else chunks)
    (hstreamed : ∀ id stream bytes, streamedStep id stream bytes event =
      if requestId = id then [] else bytes) :
    Tracks (t.next (.session none event)) := by
  change Tracks ⟨t.log ++ [event], (handleSession event t.bridge).1⟩
  refine ⟨fun id => ?_, fun id => ?_, fun id => ?_, fun id stream => ?_⟩
  · dsimp only
    rw [outstanding_concat, houtstanding]
    by_cases hid : requestId = id
    · subst hid
      rw [if_pos rfl]
      rcases htools with htools | ⟨htools, hnil⟩
      · rw [htools, Std.ExtTreeMap.get_erase, if_pos rfl]
        rfl
      · rw [htools, h.tools, hnil]
    · rw [if_neg hid]
      rcases htools with htools | ⟨htools, -⟩
      · rw [htools, Std.ExtTreeMap.get_erase, if_neg (Ne.symm hid), h.tools]
      · rw [htools, h.tools]
  · dsimp only
    rw [streamed_concat, streamed_concat, hstreamed, hstreamed, hbuffers,
      Std.ExtTreeMap.get_erase]
    by_cases hid : requestId = id
    · rw [if_pos hid.symm, if_pos hid, if_pos hid]
      rfl
    · rw [if_neg (Ne.symm hid), if_neg hid, if_neg hid, h.streams]
  · dsimp only
    rw [outstanding_concat, houtstanding]
    split_ifs
    · rfl
    · exact h.toolsWhole id
  · dsimp only
    rw [streamed_concat, hstreamed]
    split_ifs
    · rfl
    · exact h.streamsWhole id stream

theorem Tracks.outputChunk (h : Tracks t)
    {stream : OutputStream} {data : Bytes} (hdata : Utf8.stateAfter none data = none) :
    Tracks (t.next (.session none (.outputChunk requestId stream data))) := by
  refine ⟨fun id => ?_, fun id => ?_, fun id => ?_, fun id stream' => ?_⟩ <;>
    dsimp only [Forwarding.next, handleSession]
  · rw [outstanding_concat]
    exact h.tools id
  · rw [streamed_concat, streamed_concat, Std.ExtTreeMap.get_insert]
    dsimp only [streamedStep]
    by_cases hid : id = requestId
    · subst hid
      rw [if_pos rfl, Option.getD_some, h.streams]
      cases stream with
      | answer =>
        rw [if_neg (by simp), if_pos (by simp), decoded_append (h.streamsWhole id _)]
        rfl
      | reasoning =>
        rw [if_pos (by simp), if_neg (by simp), decoded_append (h.streamsWhole id _)]
        rfl
    · rw [if_neg hid, if_neg fun hc => hid hc.1.symm, if_neg fun hc => hid hc.1.symm, h.streams]
  · rw [outstanding_concat]
    exact h.toolsWhole id
  · rw [streamed_concat]
    dsimp only [streamedStep]
    split_ifs
    · rw [Utf8.stateAfter_append, h.streamsWhole, hdata]
    · exact h.streamsWhole id stream'

/-- A chunk of tool output goes to the end of the buffer of its request. -/
theorem Tracks.toolResultChunk (h : Tracks t)
    {callId : String} {data : Bytes} (hdata : (Utf8.fromUtf8 data).isOk = true) :
    Tracks (t.next (.session none (.toolResultChunk requestId callId data))) := by
  cases htext : Utf8.fromUtf8 data with
  | error e =>
    rw [htext] at hdata
    cases hdata
  | ok text =>
    have hwhole := Utf8.stateAfter_of_fromUtf8From htext
    have hdecoded : decoded data = String.ofList text :=
      congrArg String.ofList (Utf8.decodeLossy_of_fromUtf8 htext)
    have hbridge : (handleSession (.toolResultChunk requestId callId data) t.bridge).1 =
        { t.bridge with
          toolBuffers := t.bridge.toolBuffers.insert requestId
            ((t.bridge.toolBuffers[requestId]?).getD "" ++ String.ofList text) } := by
      rw [handleSession, htext]
    change Tracks ⟨t.log ++ [_], (handleSession _ t.bridge).1⟩
    rw [hbridge]
    refine ⟨fun id => ?_, fun id => ?_, fun id => ?_, fun id stream => ?_⟩
    · rw [outstanding_concat, Std.ExtTreeMap.get_insert]
      dsimp only [outstandingStep]
      by_cases hid : id = requestId
      · subst hid
        rw [if_pos rfl, if_pos rfl, pending, if_neg (by simp), List.flatMap_append,
          List.flatMap_singleton, decoded_append (h.toolsWhole id), hdecoded, h.tools, pending]
        split_ifs with hnil
        · rw [hnil, List.flatMap_nil, decoded_nil, Option.getD_none]
        · rw [Option.getD_some]
      · rw [if_neg hid, if_neg (Ne.symm hid), h.tools]
    · rw [streamed_concat, streamed_concat]
      exact h.streams id
    · rw [outstanding_concat]
      dsimp only [outstandingStep]
      split_ifs
      · rw [List.flatMap_append, List.flatMap_singleton, Utf8.stateAfter_append, h.toolsWhole,
          hwhole]
      · exact h.toolsWhole id
    · rw [streamed_concat]
      exact h.streamsWhole id stream

/-- The buffers hold the decoded chunks after a clean message. -/
theorem Tracks.next (h : Tracks t) {msg : DaemonMessage} (hclean : Clean msg t) :
    Tracks (t.next msg) := by
  cases msg with
  | session sessionId event =>
    cases event with
    | toolResultChunk requestId callId data => exact h.toolResultChunk hclean
    | outputChunk requestId stream data => exact h.outputChunk hclean
    | toolCallFinished requestId callId name | toolCallFailed requestId callId name error =>
      exact h.callEnded hclean rfl (fun _ _ => rfl) fun _ _ _ => rfl
    | done requestId tokenUsage lastPromptTokens | failed requestId error =>
      exact h.requestEnded rfl (Or.inr ⟨rfl, hclean⟩) (fun _ _ => rfl) fun _ _ _ => rfl
    | cancelled requestId =>
      exact h.requestEnded rfl (Or.inl rfl) (fun _ _ => rfl) fun _ _ _ => rfl
    | _ => exact h.ignored rfl (fun _ _ => rfl) fun _ _ _ => rfl
  | _ => exact ⟨h.tools, h.streams, h.toolsWhole, h.streamsWhole⟩

/-! ### What is handed on -/

theorem Tracks.forwards (h : Tracks t) {msg : DaemonMessage}
    (hclean : Clean msg t) : Forwards msg t := by
  refine ⟨?_, ?_, fun requestId hended => ?_⟩
  · rintro sessionId requestId callId name rfl
    dsimp only [daemonToBridgeEvents, handleSession]
    rw [ownChunks, (filter_of_all hclean).1, h.tools, pending]
    split_ifs with hnil
    · rw [hnil, List.flatMap_nil, decoded_nil, Option.getD_none]
    · rw [Option.getD_some]
  · rintro sessionId requestId tokenUsage lastPromptTokens rfl
    dsimp only [daemonToBridgeEvents, handleSession]
    rw [← h.streams]
    cases t.bridge.buffers[requestId]? with
    | none => exact (if_pos StreamBuffer.flatten_empty).symm
    | some entry => rw [Option.bind_some, Option.getD_some]
  · -- the log of the next state has nothing of the request, and its buffers hold what the log has
    have htools := (h.next hclean).tools requestId
    cases msg with
    | session sessionId event =>
      cases event with
      | done id | failed id | cancelled id =>
        cases hended
        refine ⟨(Std.ExtTreeMap.get_erase _ _ _).trans (if_pos rfl), htools.trans ?_⟩
        change pending (outstanding (t.log ++ [_]) _) = none
        rw [outstanding_concat, outstandingStep, if_pos rfl, pending, if_pos rfl]
      | _ => cases hended
    | _ => cases hended

/-- In a clean run every tool call that finishes is handed on with the text of its own output, every
request that is done with that of its streams, and nothing is left of requests that ended. -/
theorem forwards_of_run {msgs : List DaemonMessage} (hclean : StepSystem.Along step Clean msgs {}) :
    StepSystem.Along step Forwards msgs {} := by
  have htracks : StepSystem.Along step (fun _ t => Tracks t) msgs {} := by
    refine StepSystem.Along.of_invariant (fun _ _ h => h) ?_ tracks_new hclean
    intro msg t t' hG h hstep
    cases hstep
    exact h.next hG
  exact (htracks.and hclean).mono fun _ _ h => h.1.forwards h.2

namespace Sample

def reasoned : List DaemonMessage :=
  [.session none (.outputChunk 1 .reasoning [0x77]),
    .session none (.toolResultChunk 1 "c" [0x6F]), .session none (.toolCallFinished 1 "c" "read"),
    .session none (.outputChunk 1 .answer [0x73]), .session none (.done 1 none none)]

end Sample

theorem forwards_reasoned : StepSystem.Along step Forwards Sample.reasoned {} := by
  refine forwards_of_run ⟨?_, ?_, ?_, ?_, ?_, trivial⟩
  · exact (by decide : Utf8.stateAfter none [0x77] = none)
  · exact (by decide : (Utf8.fromUtf8 [0x6F]).isOk = true)
  · exact (by decide : ∀ chunk ∈ [("c", ([0x6F] : Bytes))], chunk.1 = "c")
  · exact (by decide : Utf8.stateAfter none [0x73] = none)
  · exact (rfl : (([] : List (String × Bytes)) = []))

/-- The text of the answer alone is not what is handed on. -/
theorem not_verbatim_reasoned :
    ¬StepSystem.Along step
      (fun msg t => Forwards msg t ∧ ∀ sessionId requestId tokenUsage lastPromptTokens text,
        msg = .session sessionId (.done requestId tokenUsage lastPromptTokens) →
          (daemonToBridgeEvents msg t.bridge).2 = some (.text text) →
            text = decoded (streamed t.log requestId .answer))
      Sample.reasoned {} := by
  intro h
  have htext := h.2.2.2.2.1.2 none 1 none none "[reasoning]\nw\n\ns" rfl (by decide +kernel)
  exact absurd htext (by decide +kernel)

end Choreo.Im
