import Choreo.Library.Utf8
import Choreo.Protocols.Anthropic
import Choreo.Protocols.Google

/-!
# Whole and streamed answers of the Google adapter

An answer of Gemini is a list of parts. It comes whole, or distributed over the payloads of a
stream. The two paths share only the classification of a part (`response_to_turn_result` of
`choreo-ai-protocols/src/google/mod.rs`, `generate_content_request_streaming` and
`handle_stream_part` of `requests.rs`). The artifact of a result has the thought signatures of the
parts, but not those of answer texts.
-/

namespace Choreo

open List Option

namespace Google

variable {Value : Type}

/-! ### Parts -/

variable (part : ResponsePart Value)

def ResponsePart.answer? : Option String :=
  match part.classify with
  | .answer content => some content
  | _ => none

def ResponsePart.thought? : Option String :=
  match part.classify with
  | .reasoning content _ => some content
  | _ => none

def ResponsePart.call? (packages : Packages Value) (part : ResponsePart Value) :
    Option ChatToolCall :=
  match part.classify with
  | .toolCall name args _ => some (toolCallOf packages name args)
  | _ => none

def ResponsePart.captured? : Option String :=
  match part.classify with
  | .answer _ => none
  | .reasoning _ signature | .toolCall _ _ signature => signature

/-- The signature of a part, as it comes over the wire. -/
def ResponsePart.thoughtSignature? : ResponsePart Value → Option String
  | .text _ _ signature | .functionCall _ _ signature => signature

/-- Whether a part counts as output: a call, or a text that is not empty. -/
def ResponsePart.isOutput : Bool :=
  match part.classify with
  | .answer content | .reasoning content _ => content ≠ ""
  | .toolCall .. => true

variable (parts : List (ResponsePart Value))

/-- The answer texts of some parts. -/
def answers : List String := parts.filterMap (·.answer?)

/-- The reasoning texts of some parts. -/
def thoughts : List String := parts.filterMap (·.thought?)

def calls (packages : Packages Value) (parts : List (ResponsePart Value)) : List ChatToolCall :=
  parts.filterMap (·.call? packages)

def capturedSignatures : List String :=
  parts.filterMap (·.captured?)

/-- The signatures of all parts, in wire order. -/
def thoughtSignatures : List String :=
  parts.filterMap (·.thoughtSignature?)

theorem calls_cons (packages : Packages Value) (part : ResponsePart Value)
    (parts : List (ResponsePart Value)) :
    calls packages (part :: parts) = (part.call? packages).toList ++ calls packages parts := by
  rw [calls, filterMap_cons]
  rcases part.call? packages with - | call <;> rfl

theorem answers_cons :
    answers (part :: parts) = part.answer?.toList ++ answers parts := by
  rw [answers, filterMap_cons]
  rcases part.answer? with - | text <;> rfl

theorem thoughts_cons :
    thoughts (part :: parts) = part.thought?.toList ++ thoughts parts := by
  rw [thoughts, filterMap_cons]
  rcases part.thought? with - | text <;> rfl

theorem ResponsePart.captured?_eq :
    part.captured? = if part.answer?.isSome then none else part.thoughtSignature? := by
  rcases part with ⟨text, thought, signature⟩ | ⟨name, args, signature⟩
  · by_cases hthought : thought = some true <;>
      simp [captured?, answer?, classify, thoughtSignature?, hthought]
  · rfl

/-- All signatures are captured exactly if no answer text has one. -/
theorem capturedSignatures_eq_iff :
    capturedSignatures parts = thoughtSignatures parts ↔
      ∀ part ∈ parts, part.answer?.isSome → part.thoughtSignature? = none := by
  have hlength (parts : List (ResponsePart Value)) :
      (capturedSignatures parts).length ≤ (thoughtSignatures parts).length := by
    induction parts with
    | nil => rfl
    | cons part parts ih =>
      have hpart := part.captured?_eq
      rw [capturedSignatures, thoughtSignatures] at ih ⊢
      rw [filterMap_cons, filterMap_cons, hpart]
      rcases part.thoughtSignature? with - | signature
      · simpa using ih
      · rcases part.answer?.isSome with - | -
        · simpa using ih
        · exact Nat.le_succ_of_le ih
  induction parts with
  | nil => exact iff_of_true rfl (fun _ h => absurd h not_mem_nil)
  | cons part parts ih =>
    have hpart := part.captured?_eq
    rw [forall_mem_cons]
    refine Iff.trans ?_ (and_congr_right fun _ => ih)
    rw [capturedSignatures, thoughtSignatures, filterMap_cons, filterMap_cons, hpart]
    rcases part.thoughtSignature? with - | signature
    · simp [capturedSignatures, thoughtSignatures]
    · rcases part.answer?.isSome with - | -
      · simp [capturedSignatures, thoughtSignatures]
      · refine iff_of_false (fun heq => ?_) (by simp)
        -- a signature was lost, and none can take its place
        have hshort := hlength parts
        have hlen := congrArg List.length heq
        simp only [if_true, length_cons] at hlen
        rw [capturedSignatures, thoughtSignatures] at hshort
        omega

/-! ### Whole answers -/

theorem foldl_add (packages : Packages Value) (parts : List (ResponsePart Value)) (c : Collected) :
    parts.foldl (Collected.add packages) c =
      { textParts := c.textParts ++ answers parts
        toolCalls := c.toolCalls ++ calls packages parts
        reasoningParts := c.reasoningParts ++ thoughts parts
        signatures := c.signatures ++ capturedSignatures parts } := by
  induction parts generalizing c with
  | nil => simp [answers, calls, thoughts, capturedSignatures]
  | cons part parts ih =>
    rw [foldl_cons, ih, Collected.add]
    rcases hpart : part.classify with text | ⟨text, signature⟩ | ⟨name, args, signature⟩
    · simp [answers, calls, thoughts, capturedSignatures, ResponsePart.answer?,
        ResponsePart.thought?, ResponsePart.call?, ResponsePart.captured?, hpart]
    all_goals
      rcases signature with - | signature <;>
        simp [answers, calls, thoughts, capturedSignatures, ResponsePart.answer?,
          ResponsePart.thought?, ResponsePart.call?, ResponsePart.captured?, hpart]

/-- The result of a whole answer. -/
theorem responseToTurnResult_eq (packages : Packages Value)
    {response : GenerateContentResponse Value} {parts : List (ResponsePart Value)}
    (hparts : response.candidates.head? = some (some parts)) :
    responseToTurnResult packages response =
      if calls packages parts ≠ [] then
        .ok (.toolUse {
          content := if (answers parts).isEmpty then none else some (String.join (answers parts))
          toolCalls := calls packages parts
          reasoning :=
            if (thoughts parts).isEmpty then none else some ("\n".intercalate (thoughts parts))
          usage := response.usageMetadata
          reasoningArtifact := googleSignaturesArtifact packages (capturedSignatures parts) })
      else if String.join (answers parts) = "" then .error .emptyResponse
      else .ok (.finalText {
          content := String.join (answers parts)
          reasoning :=
            if (thoughts parts).isEmpty then none else some ("\n".intercalate (thoughts parts))
          usage := response.usageMetadata
          reasoningArtifact := googleSignaturesArtifact packages (capturedSignatures parts) }) := by
  rw [responseToTurnResult, hparts]
  simp only [foldl_add, nil_append]
  rcases calls packages parts with - | ⟨call, rest⟩ <;> simp

/-! ### Streams -/

/-- What a stream has accumulated after some more parts. -/
def Streamed.extend (packages : Packages Value) (s : Streamed) (parts : List (ResponsePart Value))
    (usage : Option TokenUsage) : Streamed where
  hasAnyOutput := s.hasAnyOutput || parts.any (·.isOutput)
  fullText := s.fullText ++ String.join (answers parts)
  fullReasoning := s.fullReasoning ++ String.join (thoughts parts)
  pendingToolCalls := s.pendingToolCalls ++ calls packages parts
  signatures := s.signatures ++ capturedSignatures parts
  streamUsage := usage

theorem handleStreamPart_eq (packages : Packages Value) (s : Streamed)
    (part : ResponsePart Value) :
    handleStreamPart packages s part =
      if (part.call? packages).isSome ∧ maxToolCalls ≤ s.pendingToolCalls.length then
        .error (.io s!"too many tool calls (max {maxToolCalls})")
      else .ok (s.extend packages [part] s.streamUsage) := by
  rw [handleStreamPart]
  rcases hpart : part.classify with text | ⟨text, signature⟩ | ⟨name, args, signature⟩
  · by_cases htext : text = ""
    · simp [Streamed.extend, answers, calls, thoughts, capturedSignatures, ResponsePart.answer?,
        ResponsePart.thought?, ResponsePart.call?, ResponsePart.captured?, ResponsePart.isOutput, hpart, htext]
    · simp [Streamed.extend, answers, calls, thoughts, capturedSignatures, ResponsePart.answer?,
        ResponsePart.thought?, ResponsePart.call?, ResponsePart.captured?, ResponsePart.isOutput, hpart, htext,
        String.join_cons]
  · by_cases htext : text = "" <;> rcases signature with - | signature <;>
      simp [Streamed.extend, answers, calls, thoughts, capturedSignatures, ResponsePart.answer?,
        ResponsePart.thought?, ResponsePart.call?, ResponsePart.captured?, ResponsePart.isOutput, hpart, htext,
        String.join_cons]
  · rcases signature with - | signature <;>
      simp [Streamed.extend, answers, calls, thoughts, capturedSignatures, ResponsePart.answer?,
        ResponsePart.thought?, ResponsePart.call?, ResponsePart.captured?,
        ResponsePart.isOutput, hpart]

/-- Parts are accumulated one after the other. -/
theorem Streamed.extend_extend (packages : Packages Value) (s : Streamed)
    (first rest : List (ResponsePart Value)) (usage usage' : Option TokenUsage) :
    (s.extend packages first usage).extend packages rest usage' =
      s.extend packages (first ++ rest) usage' := by
  simp only [Streamed.extend, answers, calls, thoughts, capturedSignatures, filterMap_append,
    append_assoc, String.join_append, String.append_assoc, any_append, Bool.or_assoc]

theorem Streamed.extend_nil (packages : Packages Value) (s : Streamed) :
    s.extend packages [] s.streamUsage = s := by
  simp [Streamed.extend, answers, calls, thoughts, capturedSignatures]

theorem foldlM_handleStreamPart (packages : Packages Value) (parts : List (ResponsePart Value))
    {s : Streamed} (hs : s.pendingToolCalls.length ≤ maxToolCalls) :
    parts.foldlM (handleStreamPart packages) s =
      if (s.pendingToolCalls ++ calls packages parts).length ≤ maxToolCalls then
        .ok (s.extend packages parts s.streamUsage)
      else .error (.io s!"too many tool calls (max {maxToolCalls})") := by
  induction parts generalizing s with
  | nil =>
    rw [calls, filterMap_nil, append_nil, if_pos hs, Streamed.extend_nil]
    rfl
  | cons part parts ih =>
    rw [foldlM_cons, handleStreamPart_eq]
    have hpending : (s.extend packages [part] s.streamUsage).pendingToolCalls =
        s.pendingToolCalls ++ (part.call? packages).toList := by
      rw [Streamed.extend, calls, filterMap_cons]
      rcases part.call? packages with - | call <;> rfl
    by_cases hmany : (part.call? packages).isSome ∧ maxToolCalls ≤ s.pendingToolCalls.length
    · obtain ⟨call, hcall⟩ := isSome_iff_exists.1 hmany.1
      rw [if_pos hmany, if_neg]
      · rfl
      · rw [calls_cons, hcall, length_append, toList_some, length_append,
          length_singleton]
        omega
    · have hroom : (s.extend packages [part] s.streamUsage).pendingToolCalls.length ≤
          maxToolCalls := by
        rw [hpending, length_append]
        rcases hcall : part.call? packages with - | call
        · simpa using hs
        · rw [hcall] at hmany
          simp only [isSome_some, true_and, not_le] at hmany
          simpa [Nat.succ_le_iff] using hmany
      rw [if_neg hmany]
      refine (ih hroom).trans ?_
      rw [hpending, calls_cons, append_assoc, Streamed.extend_extend]
      rfl

theorem foldlM_handlePayload (packages : Packages Value)
    (payloads : List (GenerateContentResponse Value)) {s : Streamed}
    (hs : s.pendingToolCalls.length ≤ maxToolCalls) :
    ∃ usage, payloads.foldlM (handlePayload packages) s =
      if (s.pendingToolCalls ++ calls packages (payloads.flatMap (·.parts))).length ≤
          maxToolCalls then
        .ok (s.extend packages (payloads.flatMap (·.parts)) usage)
      else .error (.io s!"too many tool calls (max {maxToolCalls})") := by
  induction payloads generalizing s with
  | nil =>
    refine ⟨s.streamUsage, ?_⟩
    rw [flatMap_nil, calls, filterMap_nil, append_nil, if_pos hs,
      Streamed.extend_nil]
    rfl
  | cons payload payloads ih =>
    rw [foldlM_cons, handlePayload, flatMap_cons]
    have hparts := foldlM_handleStreamPart packages payload.parts
      (s := { s with streamUsage := payload.usageMetadata.or s.streamUsage }) hs
    rw [hparts]
    dsimp only
    have hcalls : calls packages (payload.parts ++ payloads.flatMap (·.parts)) =
        calls packages payload.parts ++ calls packages (payloads.flatMap (·.parts)) :=
      filterMap_append
    rw [hcalls, ← append_assoc]
    by_cases hroom : (s.pendingToolCalls ++ calls packages payload.parts).length ≤ maxToolCalls
    · obtain ⟨usage, hrest⟩ := ih (s := Streamed.extend packages
        { s with streamUsage := payload.usageMetadata.or s.streamUsage } payload.parts
        (payload.usageMetadata.or s.streamUsage)) hroom
      refine ⟨usage, ?_⟩
      rw [if_pos hroom]
      refine hrest.trans ?_
      rw [Streamed.extend_extend]
      rfl
    · refine ⟨none, ?_⟩
      rw [if_neg hroom, if_neg]
      · rfl
      · rw [length_append]
        omega

theorem any_isOutput (packages : Packages Value) (parts : List (ResponsePart Value)) :
    parts.any (·.isOutput) = true ↔ calls packages parts ≠ [] ∨
      String.join (answers parts) ≠ "" ∨ String.join (thoughts parts) ≠ "" := by
  induction parts with
  | nil => simp [calls, answers, thoughts]
  | cons part parts ih =>
    rw [any_cons, Bool.or_eq_true, ih, calls_cons, answers_cons, thoughts_cons,
      ResponsePart.isOutput, ResponsePart.call?, ResponsePart.answer?, ResponsePart.thought?]
    rcases part.classify with text | ⟨text, signature⟩ | ⟨name, args, signature⟩
    · by_cases htext : text = "" <;> simp [htext, String.join_cons]
    · by_cases htext : text = "" <;> simp [htext, String.join_cons]
    · simp

theorem streamedTurnResult_eq (packages : Packages Value)
    (payloads : List (GenerateContentResponse Value)) {parts : List (ResponsePart Value)}
    (hparts : payloads.flatMap (·.parts) = parts) :
    ∃ usage, streamedTurnResult packages payloads =
      if maxToolCalls < (calls packages parts).length then
        .error (.io s!"too many tool calls (max {maxToolCalls})")
      else if calls packages parts ≠ [] then
        .ok (.toolUse {
          content := nonempty (String.join (answers parts))
          toolCalls := calls packages parts
          reasoning := nonempty (String.join (thoughts parts))
          usage := usage
          reasoningArtifact := googleSignaturesArtifact packages (capturedSignatures parts) })
      else if String.join (answers parts) = "" ∧ String.join (thoughts parts) = "" then
        .error .emptyResponse
      else
        .ok (.finalText {
          content := String.join (answers parts)
          reasoning := nonempty (String.join (thoughts parts))
          usage := usage
          reasoningArtifact := googleSignaturesArtifact packages (capturedSignatures parts) }) := by
  obtain ⟨usage, hfold⟩ := foldlM_handlePayload packages payloads (s := {}) (Nat.zero_le _)
  refine ⟨usage, ?_⟩
  rw [hparts, nil_append] at hfold
  rw [streamedTurnResult, hfold]
  by_cases hmany : maxToolCalls < (calls packages parts).length
  · rw [if_neg (Nat.not_le.2 hmany), if_pos hmany]
    rfl
  · rw [if_pos (Nat.not_lt.1 hmany), if_neg hmany]
    have houtput := any_isOutput packages parts
    simp only [bind, Except.bind, Streamed.result, Streamed.extend, nil_append,
      String.empty_append, Bool.false_or]
    by_cases hcalls : calls packages parts = []
    · by_cases hempty : String.join (answers parts) = "" ∧ String.join (thoughts parts) = ""
      · have hnone : parts.any (·.isOutput) = false := by
          rw [← Bool.not_eq_true, houtput]
          tauto
        simp [hnone, hcalls, hempty]
      · have hany : parts.any (·.isOutput) = true := by
          rw [houtput]
          tauto
        simp [hany, hcalls, hempty]
    · have hany : parts.any (·.isOutput) = true := houtput.2 (.inl hcalls)
      simp [hany, hcalls]

/-! ### Agreement -/

/-- Two results are of the same kind, with the same texts and calls, and both have the signatures
of the parts. -/
def SameTurn (packages : Packages Value) (parts : List (ResponsePart Value)) :
    ChatTurnResult → ChatTurnResult → Prop
  | .finalText a, .finalText b =>
    a.content = b.content ∧ a.reasoning = b.reasoning ∧
      a.reasoningArtifact = googleSignaturesArtifact packages (thoughtSignatures parts) ∧
      b.reasoningArtifact = googleSignaturesArtifact packages (thoughtSignatures parts)
  | .toolUse a, .toolUse b =>
    a.content = b.content ∧ a.toolCalls = b.toolCalls ∧ a.reasoning = b.reasoning ∧
      a.reasoningArtifact = googleSignaturesArtifact packages (thoughtSignatures parts) ∧
      b.reasoningArtifact = googleSignaturesArtifact packages (thoughtSignatures parts)
  | _, _ => False

/-- The stream and the whole answer give the same result, or both fail. -/
def Agrees (packages : Packages Value) (response : GenerateContentResponse Value)
    (payloads : List (GenerateContentResponse Value)) : Prop :=
  AgreeOn (SameTurn packages response.parts) (streamedTurnResult packages payloads)
    (responseToTurnResult packages response)

def ResponsePart.isCall : Bool :=
  match part.classify with
  | .toolCall .. => true
  | _ => false

/-- Either there is nothing to show, or there are few enough calls, a text that is not empty or no
text beside calls, at most one reasoning part, which is not empty, and no signature on answer
text. -/
def StreamedAlike : Prop :=
  (parts.countP (·.isCall) = 0 ∧ String.join (answers parts) = "" ∧
      String.join (thoughts parts) = "") ∨
    (parts.countP (·.isCall) ≤ maxToolCalls ∧
      (String.join (answers parts) ≠ "" ∨
        parts.countP (·.isCall) ≠ 0 ∧ answers parts = []) ∧
      (thoughts parts = [] ∨ ∃ text, text ≠ "" ∧ thoughts parts = [text]) ∧
      ∀ part ∈ parts, part.answer?.isSome → part.thoughtSignature? = none)

theorem length_calls (packages : Packages Value) (parts : List (ResponsePart Value)) :
    (calls packages parts).length = parts.countP (·.isCall) := by
  rw [calls, length_filterMap_eq_countP]
  refine countP_congr fun part _ => ?_
  rw [ResponsePart.isCall, ResponsePart.call?]
  rcases part.classify with text | ⟨text, signature⟩ | ⟨name, args, signature⟩ <;> rfl

theorem calls_eq_nil_iff (packages : Packages Value) (parts : List (ResponsePart Value)) :
    calls packages parts = [] ↔ parts.countP (·.isCall) = 0 := by
  rw [← length_calls packages, length_eq_zero_iff]

theorem artifact_eq_iff {packages : Packages Value}
    (hinj : Function.Injective packages.signaturesToVec) (parts : List (ResponsePart Value)) :
    googleSignaturesArtifact packages (capturedSignatures parts) =
        googleSignaturesArtifact packages (thoughtSignatures parts) ↔
      ∀ part ∈ parts, part.answer?.isSome → part.thoughtSignature? = none := by
  rw [← capturedSignatures_eq_iff]
  refine ⟨fun h => ?_, fun h => by rw [h]⟩
  rw [googleSignaturesArtifact, googleSignaturesArtifact] at h
  split_ifs at h with hcaptured hall
  · rw [List.isEmpty_iff.1 hcaptured, List.isEmpty_iff.1 hall]
  · exact hinj (ReasoningArtifact.googleSignatures.inj (some.inj h))

/-- **The two paths agree exactly on these answers**, in whatever payloads their parts come. -/
theorem agrees_iff_answeredAlike {packages : Packages Value}
    (hinj : Function.Injective packages.signaturesToVec)
    {response : GenerateContentResponse Value} {parts : List (ResponsePart Value)}
    (hwhole : response.candidates.head? = some (some parts))
    {payloads : List (GenerateContentResponse Value)}
    (hpayloads : payloads.flatMap (·.parts) = parts) :
    Agrees packages response payloads ↔ StreamedAlike parts := by
  obtain ⟨usage, hstream⟩ := streamedTurnResult_eq packages payloads hpayloads
  have hresponse : response.parts = parts := by
    rw [GenerateContentResponse.parts, hwhole]
    rfl
  have hartifact := artifact_eq_iff hinj parts
  have hreasoning := Anthropic.reasoning_eq_iff (thoughts parts)
  have hcontent := Anthropic.content_eq_iff (answers parts)
  have hnone := calls_eq_nil_iff packages parts
  have hlength := length_calls packages parts
  have hempty : answers parts = [] → String.join (answers parts) = "" := fun h => by
    rw [h, String.join_nil]
  have hblank : thoughts parts = [] → String.join (thoughts parts) = "" := fun h => by
    rw [h, String.join_nil]
  rw [Agrees, hstream, responseToTurnResult_eq packages hwhole, hresponse, StreamedAlike]
  by_cases hmany : maxToolCalls < (calls packages parts).length
  · -- a stream fails on a call too many, the whole answer does not
    have hcalls : calls packages parts ≠ [] := fun hnil => by
      rw [hnil] at hmany
      exact absurd hmany (by decide)
    rw [if_pos hmany, if_pos hcalls]
    refine iff_of_false not_false ?_
    rintro (⟨hzero, -⟩ | ⟨hle, -⟩) <;> omega
  · rw [if_neg hmany]
    by_cases hcalls : calls packages parts = []
    · rw [if_neg (not_not_intro hcalls), if_neg (not_not_intro hcalls)]
      have hzero := hnone.1 hcalls
      by_cases htext : String.join (answers parts) = ""
      · rw [if_pos htext]
        by_cases hthought : String.join (thoughts parts) = ""
        · rw [if_pos ⟨htext, hthought⟩]
          exact iff_of_true trivial (.inl ⟨hzero, htext, hthought⟩)
        · rw [if_neg (fun h => hthought h.2)]
          refine iff_of_false not_false ?_
          rintro (⟨-, -, h⟩ | ⟨-, h | h, -⟩)
          · exact hthought h
          · exact h htext
          · exact h.1 hzero
      · rw [if_neg htext, if_neg (fun h => htext h.1)]
        constructor
        · rintro ⟨-, hsame, hkept, -⟩
          exact .inr ⟨by omega, .inl htext, hreasoning.1 hsame, hartifact.1 hkept⟩
        · rintro (⟨-, h, -⟩ | ⟨-, -, hsame, hkept⟩)
          · exact absurd h htext
          · exact ⟨rfl, hreasoning.2 hsame, hartifact.2 hkept, hartifact.2 hkept⟩
    · rw [if_pos hcalls, if_pos hcalls]
      have hsome : parts.countP (·.isCall) ≠ 0 := fun h => hcalls (hnone.2 h)
      constructor
      · rintro ⟨htext, -, hsame, hkept, -⟩
        refine .inr ⟨by omega, ?_, hreasoning.1 hsame, hartifact.1 hkept⟩
        rcases hcontent.1 htext with h | h
        · exact .inr ⟨hsome, h⟩
        · exact .inl h
      · rintro (⟨h, -⟩ | ⟨-, htext, hsame, hkept⟩)
        · exact absurd h hsome
        · refine ⟨hcontent.2 ?_, rfl, hreasoning.2 hsame, hartifact.2 hkept,
            hartifact.2 hkept⟩
          rcases htext with h | ⟨-, h⟩
          · exact .inr h
          · exact .inl h

namespace Sample

/-- A digit in base 16. -/
def hexDigit (n : ℕ) : Char := ("0123456789abcdef".toList)[n]?.getD '0'

/-- A character inside a JSON string. -/
def escape (c : Char) : List Char :=
  if c = '"' ∨ c = '\\' then ['\\', c]
  else if 0x20 ≤ c.toNat then [c]
  else match c.toNat with
    | 8 => ['\\', 'b']
    | 9 => ['\\', 't']
    | 10 => ['\\', 'n']
    | 12 => ['\\', 'f']
    | 13 => ['\\', 'r']
    | n => ['\\', 'u', '0', '0', hexDigit (n / 16), hexDigit (n % 16)]

/-- The character that a JSON string begins with, and the rest. -/
def unescape : List Char → Option (Char × List Char)
  | '\\' :: 'u' :: '0' :: '0' :: a :: b :: rest =>
    some (Char.ofNat (16 * "0123456789abcdef".toList.idxOf a + "0123456789abcdef".toList.idxOf b),
      rest)
  | '\\' :: 'b' :: rest => some (Char.ofNat 8, rest)
  | '\\' :: 't' :: rest => some (Char.ofNat 9, rest)
  | '\\' :: 'n' :: rest => some (Char.ofNat 10, rest)
  | '\\' :: 'f' :: rest => some (Char.ofNat 12, rest)
  | '\\' :: 'r' :: rest => some (Char.ofNat 13, rest)
  | '\\' :: c :: rest => some (c, rest)
  | c :: rest => some (c, rest)
  | [] => none

theorem unescape_escape (c : Char) (rest : List Char) :
    unescape (escape c ++ rest) = some (c, rest) := by
  rw [escape]
  split_ifs with hquoted hplain
  · rcases hquoted with rfl | rfl <;> rfl
  · have hc : c ≠ '\\' := fun h => hquoted (.inr h)
    rw [singleton_append, unescape.eq_8]
    all_goals simp [hc]
  · have hc : c = Char.ofNat c.toNat := (Char.ofNat_toNat c).symm
    generalize c.toNat = n at hc hplain ⊢
    subst hc
    interval_cases n <;> rfl

theorem escape_ne_quote (c : Char) (rest rest' : List Char) :
    escape c ++ rest ≠ '"' :: rest' := by
  intro h
  have hread := unescape_escape c rest
  rw [h] at hread
  obtain ⟨rfl, -⟩ : '"' = c ∧ rest' = rest := by simpa [unescape] using hread
  exact absurd h (by simp [escape])

/-- A JSON string. -/
def jsonString (text : String) : List Char := '"' :: text.toList.flatMap escape ++ ['"']

theorem jsonString_append_inj {text text' : String} {rest rest' : List Char}
    (h : jsonString text ++ rest = jsonString text' ++ rest') : text = text' ∧ rest = rest' := by
  have hchars : ∀ chars chars' : List Char,
      chars.flatMap escape ++ '"' :: rest = chars'.flatMap escape ++ '"' :: rest' →
        chars = chars' ∧ rest = rest' := by
    intro chars
    induction chars with
    | nil =>
      rintro (_ | ⟨c', chars'⟩) h
      · exact ⟨rfl, (cons.inj h).2⟩
      · rw [flatMap_cons, append_assoc] at h
        exact (escape_ne_quote _ _ _ h.symm).elim
    | cons c chars ih =>
      rintro (_ | ⟨c', chars'⟩) h
      · rw [flatMap_cons, append_assoc] at h
        exact (escape_ne_quote _ _ _ h).elim
      · rw [flatMap_cons, flatMap_cons, append_assoc, append_assoc] at h
        have hread := congrArg unescape h
        rw [unescape_escape, unescape_escape, some_inj, Prod.mk.injEq] at hread
        obtain ⟨rfl, hrest⟩ := hread
        exact (ih chars' hrest).imp_left (congrArg (c :: ·))
  obtain ⟨htext, hrest⟩ := hchars text.toList text'.toList (by simpa [jsonString] using h)
  exact ⟨String.toList_injective htext, hrest⟩

/-- The elements of a JSON array after the first one. -/
def jsonElements : List String → List Char
  | [] => [']']
  | text :: texts => ',' :: jsonString text ++ jsonElements texts

theorem jsonElements_injective : Function.Injective jsonElements := by
  intro texts
  induction texts with
  | nil => rintro (_ | ⟨text', texts'⟩) h <;> simp [jsonElements] at h ⊢
  | cons text texts ih =>
    rintro (_ | ⟨text', texts'⟩) h
    · simp [jsonElements] at h
    · obtain ⟨rfl, hrest⟩ := jsonString_append_inj (cons.inj h).2
      rw [ih hrest]

def jsonArray : List String → List Char
  | [] => ['[', ']']
  | text :: texts => '[' :: jsonString text ++ jsonElements texts

def signaturesToVec (signatures : List String) : Bytes := Utf8.encode (jsonArray signatures)

theorem signaturesToVec_injective : Function.Injective signaturesToVec := by
  intro signatures signatures' h
  have harray := Function.LeftInverse.injective Utf8.decodeLossy_encode h
  rcases signatures with _ | ⟨text, texts⟩ <;> rcases signatures' with _ | ⟨text', texts'⟩
  · rfl
  · simp [jsonArray, jsonString] at harray
  · simp [jsonArray, jsonString] at harray
  · obtain ⟨rfl, hrest⟩ := jsonString_append_inj (cons.inj harray).2
    rw [jsonElements_injective hrest]

/-- Packages that write the signatures. -/
def signing : Packages Unit := { packages with signaturesToVec := signaturesToVec }

def signedThought : List (ResponsePart Unit) :=
  [.text "Let me see" (some true) (some "c2ln"), .text "Here" none none]

/-- A text with a signature. -/
def signedText : List (ResponsePart Unit) := [.text "Here" none (some "c2ln")]

def whole (parts : List (ResponsePart Unit)) : GenerateContentResponse Unit where
  candidates := [some parts]

end Sample

/-- The paths agree when the signature is on a thought. -/
theorem agrees_signedThought : Agrees Sample.signing (Sample.whole Sample.signedThought)
    (Sample.signedThought.map fun part => Sample.whole [part]) := by
  have hpayloads : (Sample.signedThought.map fun part => Sample.whole [part]).flatMap (·.parts) =
      Sample.signedThought := rfl
  refine (agrees_iff_answeredAlike Sample.signaturesToVec_injective rfl hpayloads).2
    (.inr ⟨by decide, .inl (by decide), .inr ⟨"Let me see", by decide, rfl⟩, ?_⟩)
  simp [Sample.signedThought, ResponsePart.answer?, ResponsePart.classify,
    ResponsePart.thoughtSignature?]

/-- The signature of an answer text is lost. -/
theorem not_agrees_signedText : ¬ Agrees Sample.signing (Sample.whole Sample.signedText)
    [Sample.whole Sample.signedText] := by
  rintro ⟨-, -, hkept, -⟩
  cases hkept

end Google

end Choreo
