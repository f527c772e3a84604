import Choreo.Protocols.Chat

/-!
# The echo guard of reasoning artifacts

Some providers demand that the reasoning of earlier turns is sent back to them.
`build_chat_request_messages` of `choreo-daemon/src/reasoning.rs` attaches the stored artifact of a
turn to its assistant message, and `warn_on_missing_reasoning_artifacts` counts, before the request
is sent, the turns whose message the provider may refuse. The two run over the history separately,
so the count of the guard is compared with the messages that are built.

The guard is silent where the policy of the model never replays. There a message may be empty
without being counted.
-/

namespace Choreo

open List Option

/-! ### Guard -/

/-- Whether the policy lets an artifact be replayed in a message. -/
def ReasoningPassback.canEcho : ReasoningPassback → Bool
  | .none | .responseId => false
  | .toolLoop | .allTurns | .signature => true

/-- Whether the policy checks every turn, and not only those of the tool loop. -/
def ReasoningPassback.checksAllTurns : ReasoningPassback → Bool
  | .allTurns | .signature => true
  | .none | .toolLoop | .responseId => false

def Turn.hasAssistantMessage (turn : Turn) : Bool :=
  turn.assistantText.isSome || !turn.toolCalls.isEmpty

variable (request : RequestModel)

/-- The problems of the guard after one more turn. -/
def warnIfMissing (problems : ℕ) (turn : Turn) : ℕ :=
  if turn.undone then problems
  else if !turn.hasAssistantMessage then problems
  else if includeReasoningArtifact request turn then problems
  else
    let wireEmpty := turn.isWireEmpty
    let policyDemandsEcho := request.passback.checksAllTurns || turn.hasToolInvolvement
    if !policyDemandsEcho && !wireEmpty then problems
    else problems + 1

def warnOnMissingReasoningArtifacts (turns : List Turn) : ℕ :=
  if request.passback = .none ∨ request.passback = .responseId then 0
  else turns.foldl (warnIfMissing request) 0

/-! ### Built messages -/

def builtAssistantMessages (turns : List Turn) :
    List (Turn × ChatRequestMessage) :=
  turns.filterMap fun turn =>
    if turn.undone then none else (assistantMessage request turn).map fun message => (turn, message)

/-- Whether the policy demands that the reasoning of a turn is sent back. -/
def ReasoningPassback.demandsEcho (passback : ReasoningPassback) (turn : Turn) : Bool :=
  match passback with
  | .none | .responseId => false
  | .toolLoop => turn.hasToolInvolvement
  | .allTurns | .signature => true

def omitsDemandedEcho (turn : Turn) (message : ChatRequestMessage) :
    Bool :=
  request.passback.demandsEcho turn && message.reasoningArtifact.isNone

def ReasoningArtifact.bytes : ReasoningArtifact → Bytes
  | .chatReasoning _ bytes => bytes
  | .anthropicThinking bytes => bytes
  | .googleSignatures bytes => bytes
  | .responsesItems bytes => bytes

def ChatRequestMessage.isWireEmpty (message : ChatRequestMessage) : Bool :=
  message.content.all (· == "") && message.toolCalls.isNone && message.reasoningArtifact.isNone

def ChatRequestMessage.hasNoPayload (message : ChatRequestMessage) : Bool :=
  message.content.all (· == "") && message.toolCalls.isNone &&
    message.reasoningArtifact.all (·.bytes.isEmpty)

/-- Whether a provider may refuse the message of a turn. -/
def isRefusable (entry : Turn × ChatRequestMessage) : Bool :=
  omitsDemandedEcho request entry.1 entry.2 || entry.2.isWireEmpty

section Messages

variable {request : RequestModel} {turn : Turn} {message : ChatRequestMessage}

theorem assistantMessage_isSome :
    (assistantMessage request turn).isSome = turn.hasAssistantMessage := by
  rw [assistantMessage, Turn.hasAssistantMessage]
  split <;> simp_all

theorem role_of_assistantMessage (h : assistantMessage request turn = some message) :
    message.role = .assistant := by
  rw [assistantMessage] at h
  split at h
  · cases h
    rfl
  · exact absurd h (by simp)

theorem artifact_of_assistantMessage (h : assistantMessage request turn = some message) :
    message.reasoningArtifact =
      if includeReasoningArtifact request turn then turn.reasoningArtifact else none := by
  rw [assistantMessage] at h
  split at h
  · cases h
    rfl
  · exact absurd h (by simp)

theorem isSome_of_includeReasoningArtifact (h : includeReasoningArtifact request turn = true) :
    turn.reasoningArtifact.isSome = true ∧
      turn.reasoningProducer = some ⟨request.providerSlug, request.model⟩ ∧
      request.passback.canEcho = true := by
  rw [includeReasoningArtifact] at h
  split at h
  · exact absurd h (by simp)
  next hgate =>
    rw [not_or, not_not] at hgate
    refine ⟨isSome_iff_ne_none.2 hgate.2, hgate.1, ?_⟩
    revert h
    rcases request.passback with _ | _ | _ | _ | _ <;> simp [ReasoningPassback.canEcho]

theorem artifact_isNone_of_assistantMessage (h : assistantMessage request turn = some message) :
    message.reasoningArtifact.isNone = !includeReasoningArtifact request turn := by
  rw [artifact_of_assistantMessage h]
  by_cases hinclude : includeReasoningArtifact request turn = true
  · rw [if_pos hinclude, hinclude, ← not_isSome,
      (isSome_of_includeReasoningArtifact hinclude).1]
  · rw [if_neg hinclude, Bool.eq_false_iff.2 hinclude]
    rfl

theorem isWireEmpty_of_assistantMessage (h : assistantMessage request turn = some message) :
    message.isWireEmpty = (turn.isWireEmpty && !includeReasoningArtifact request turn) := by
  have hartifact := artifact_isNone_of_assistantMessage h
  have htext : message.content = turn.assistantText ∧
      message.toolCalls.isNone = turn.toolCalls.isEmpty := by
    rw [assistantMessage] at h
    split at h
    · cases h
      refine ⟨rfl, ?_⟩
      dsimp only
      split <;> simp_all
    · exact absurd h (by simp)
  rw [ChatRequestMessage.isWireEmpty, Turn.isWireEmpty, hartifact, htext.1, htext.2,
    Bool.and_comm turn.toolCalls.isEmpty]

/-- What the guard asks of a turn says whether its message may be refused. -/
theorem isRefusable_iff (hcan : request.passback.canEcho = true)
    (h : assistantMessage request turn = some message) :
    isRefusable request (turn, message) = true ↔
      includeReasoningArtifact request turn = false ∧
        (request.passback.checksAllTurns = true ∨ turn.hasToolInvolvement = true ∨
          turn.isWireEmpty = true) := by
  rw [isRefusable, omitsDemandedEcho, isWireEmpty_of_assistantMessage h,
    artifact_isNone_of_assistantMessage h]
  rcases hpolicy : request.passback with _ | _ | _ | _ | _ <;> rw [hpolicy] at hcan
  · exact absurd hcan (by simp [ReasoningPassback.canEcho])
  · simp [ReasoningPassback.demandsEcho, ReasoningPassback.checksAllTurns]
    tauto
  · simp [ReasoningPassback.demandsEcho, ReasoningPassback.checksAllTurns]
  · simp [ReasoningPassback.demandsEcho, ReasoningPassback.checksAllTurns]
  · exact absurd hcan (by simp [ReasoningPassback.canEcho])

end Messages

/-! ### Agreement -/

section Request

variable (request : RequestModel) (systemPrompt : Option String) (turns : List Turn)

theorem mem_builtAssistantMessages {entry : Turn × ChatRequestMessage} :
    entry ∈ builtAssistantMessages request turns ↔
      entry.1 ∈ turns ∧ entry.1.undone = false ∧
        assistantMessage request entry.1 = some entry.2 := by
  rw [builtAssistantMessages, mem_filterMap]
  constructor
  · rintro ⟨turn, hmem, h⟩
    split at h
    · exact absurd h (by simp)
    next hkept =>
      obtain ⟨message, hmessage, rfl⟩ := map_eq_some_iff.1 h
      exact ⟨hmem, Bool.eq_false_iff.2 hkept, hmessage⟩
  · rintro ⟨hmem, hkept, hmessage⟩
    exact ⟨entry.1, hmem, by simp [hkept, hmessage]⟩

theorem filter_turnMessages (turn : Turn) :
    (turnMessages request turn).filter (·.role = .assistant) =
      if turn.undone then [] else (assistantMessage request turn).toList := by
  rw [turnMessages]
  split
  · rfl
  have huser : ((turn.userText.map (ChatRequestMessage.simple .user)).toList).filter
      (·.role = .assistant) = [] := by
    rcases turn.userText with _ | text <;> rfl
  have hassistant : ((assistantMessage request turn).toList).filter (·.role = .assistant) =
      (assistantMessage request turn).toList := by
    refine filter_eq_self.2 fun message hmem => ?_
    exact decide_eq_true (role_of_assistantMessage (mem_toList.1 hmem))
  have hresults : (turn.toolResults.map toolMessage).filter (·.role = .assistant) = [] := by
    refine filter_eq_nil_iff.2 fun message hmem => ?_
    obtain ⟨result, -, rfl⟩ := List.mem_map.1 hmem
    simp [toolMessage]
  have himages : (toolResultImageMessages request.vision turn).filter (·.role = .assistant) =
      [] := by
    refine filter_eq_nil_iff.2 fun message hmem => ?_
    obtain ⟨result, -, h⟩ := mem_filterMap.1 hmem
    obtain ⟨image, -, rfl⟩ := map_eq_some_iff.1 h
    dsimp only
    split
    · simp [ChatRequestMessage.withImages]
    · split <;> simp [ChatRequestMessage.withImages]
  rw [filter_append, filter_append, filter_append, huser, hassistant, hresults,
    himages, nil_append, append_nil, append_nil]

theorem filter_buildChatRequestMessages :
    (buildChatRequestMessages request systemPrompt turns).filter (·.role = .assistant) =
      (builtAssistantMessages request turns).map Prod.snd := by
  have hsystem : ((systemPrompt.map (ChatRequestMessage.simple .system)).toList).filter
      (·.role = .assistant) = [] := by
    rcases systemPrompt with _ | prompt <;> rfl
  rw [buildChatRequestMessages, filter_append, hsystem, nil_append]
  induction turns with
  | nil => rfl
  | cons turn turns ih =>
    rw [flatMap_cons, filter_append, ih, filter_turnMessages, builtAssistantMessages,
      builtAssistantMessages, filterMap_cons]
    rcases hundone : turn.undone with _ | _
    · rcases hmessage : assistantMessage request turn with _ | message <;> simp
    · simp

theorem exists_turn_of_artifact {message : ChatRequestMessage}
    (hmem : message ∈ buildChatRequestMessages request systemPrompt turns)
    (hartifact : message.reasoningArtifact.isSome = true) :
    ∃ turn, (turn, message) ∈ builtAssistantMessages request turns := by
  rw [buildChatRequestMessages, mem_append] at hmem
  rcases hmem with hmem | hmem
  · obtain ⟨prompt, -, rfl⟩ := map_eq_some_iff.1 (mem_toList.1 hmem)
    exact absurd hartifact (by simp [ChatRequestMessage.simple, ChatRequestMessage.withImages])
  obtain ⟨turn, hturn, hmem⟩ := mem_flatMap.1 hmem
  rw [turnMessages] at hmem
  split at hmem
  · exact absurd hmem not_mem_nil
  next hkept =>
    simp only [mem_append, mem_toList] at hmem
    rcases hmem with ((hmem | hmem) | hmem) | hmem
    · obtain ⟨text, -, rfl⟩ := map_eq_some_iff.1 hmem
      exact absurd hartifact (by simp [ChatRequestMessage.simple, ChatRequestMessage.withImages])
    · exact ⟨turn, (mem_builtAssistantMessages request turns).2
        ⟨hturn, Bool.eq_false_iff.2 hkept, hmem⟩⟩
    · obtain ⟨result, -, rfl⟩ := List.mem_map.1 hmem
      exact absurd hartifact (by simp [toolMessage])
    · obtain ⟨result, -, h⟩ := mem_filterMap.1 hmem
      obtain ⟨image, -, rfl⟩ := map_eq_some_iff.1 h
      refine absurd hartifact ?_
      dsimp only
      split
      · simp [ChatRequestMessage.withImages]
      · split <;> simp [ChatRequestMessage.withImages]

theorem artifact_eq_some {message : ChatRequestMessage} {artifact : ReasoningArtifact}
    (hmem : message ∈ buildChatRequestMessages request systemPrompt turns)
    (hartifact : message.reasoningArtifact = some artifact) :
    request.passback.canEcho = true ∧ ∃ turn ∈ turns, turn.undone = false ∧
      turn.reasoningArtifact = some artifact ∧
      turn.reasoningProducer = some ⟨request.providerSlug, request.model⟩ := by
  obtain ⟨turn, hentry⟩ := exists_turn_of_artifact request systemPrompt turns hmem
    (by rw [hartifact]; rfl)
  obtain ⟨hturn, hkept, hmessage⟩ := (mem_builtAssistantMessages request turns).1 hentry
  have heq := artifact_of_assistantMessage hmessage
  rw [hartifact] at heq
  by_cases hinclude : includeReasoningArtifact request turn = true
  · rw [if_pos hinclude] at heq
    obtain ⟨-, hproducer, hcan⟩ := isSome_of_includeReasoningArtifact hinclude
    exact ⟨hcan, turn, hturn, hkept, heq.symm, hproducer⟩
  · rw [if_neg hinclude] at heq
    exact absurd heq (by simp)

theorem warnIfMissing_eq (hcan : request.passback.canEcho = true) (problems : ℕ) (turn : Turn) :
    warnIfMissing request problems turn =
      problems + (builtAssistantMessages request [turn]).countP (isRefusable request) := by
  rw [warnIfMissing, builtAssistantMessages, filterMap_cons, filterMap_nil]
  rcases hundone : turn.undone with _ | _
  swap
  · simp
  have hmessage : (assistantMessage request turn).isSome = turn.hasAssistantMessage :=
    assistantMessage_isSome
  rcases h : assistantMessage request turn with _ | message <;> rw [h] at hmessage
  · simp [← hmessage]
  have hrefusable := isRefusable_iff hcan h
  rcases hinclude : includeReasoningArtifact request turn with _ | _ <;> rw [hinclude] at hrefusable
  · by_cases hproblem : request.passback.checksAllTurns = true ∨
        turn.hasToolInvolvement = true ∨ turn.isWireEmpty = true
    · have hcounted := hrefusable.2 ⟨rfl, hproblem⟩
      rcases hproblem with hproblem | hproblem | hproblem <;>
        simp [← hmessage, hcounted, hproblem]
    · have hclean : isRefusable request (turn, message) = false :=
        Bool.eq_false_iff.2 fun hcounted => hproblem (hrefusable.1 hcounted).2
      simp only [not_or, Bool.not_eq_true] at hproblem
      simp [← hmessage, hproblem, hclean]
  · have hclean : isRefusable request (turn, message) = false :=
      Bool.eq_false_iff.2 fun hcounted => absurd (hrefusable.1 hcounted).1 (by simp)
    simp [← hmessage, hclean]

theorem warnOnMissing_eq_countP (hcan : request.passback.canEcho = true) :
    warnOnMissingReasoningArtifacts request turns =
      (builtAssistantMessages request turns).countP (isRefusable request) := by
  have hfold (problems : ℕ) : turns.foldl (warnIfMissing request) problems =
      problems + (builtAssistantMessages request turns).countP (isRefusable request) := by
    induction turns generalizing problems with
    | nil => rfl
    | cons turn turns ih =>
      have happend : builtAssistantMessages request (turn :: turns) =
          builtAssistantMessages request [turn] ++ builtAssistantMessages request turns :=
        filterMap_append (l := [turn])
      rw [foldl_cons, ih, warnIfMissing_eq request hcan, happend, countP_append,
        Nat.add_assoc]
  have hpolicy : ¬ (request.passback = .none ∨ request.passback = .responseId) := by
    rintro (h | h) <;> rw [h] at hcan <;> exact absurd hcan (by simp [ReasoningPassback.canEcho])
  rw [warnOnMissingReasoningArtifacts, if_neg hpolicy, hfold, Nat.zero_add]

/-- The guard agrees with the builder. Under a policy that replays, it counts the assistant messages
of the request that omit a demanded echo or are empty. Under the others it counts nothing, and
nothing is replayed. An artifact goes only to the provider and the model that made it. -/
theorem warnOnMissing_agrees :
    (buildChatRequestMessages request systemPrompt turns).filter (·.role = .assistant) =
        (builtAssistantMessages request turns).map Prod.snd ∧
      (request.passback ≠ .none ∧ request.passback ≠ .responseId →
        warnOnMissingReasoningArtifacts request turns =
          (builtAssistantMessages request turns).countP fun entry =>
            omitsDemandedEcho request entry.1 entry.2 || entry.2.isWireEmpty) ∧
      (request.passback = .none ∨ request.passback = .responseId →
        warnOnMissingReasoningArtifacts request turns = 0 ∧
          ∀ message ∈ buildChatRequestMessages request systemPrompt turns,
            message.reasoningArtifact = none) ∧
      ((∀ turn ∈ turns, ∀ artifact ∈ turn.reasoningArtifact, artifact.bytes ≠ []) →
        ∀ message ∈ buildChatRequestMessages request systemPrompt turns,
          message.hasNoPayload = message.isWireEmpty) ∧
      ∀ message ∈ buildChatRequestMessages request systemPrompt turns,
        ∀ artifact ∈ message.reasoningArtifact, ∃ turn ∈ turns, turn.undone = false ∧
          turn.reasoningArtifact = some artifact ∧
          turn.reasoningProducer = some ⟨request.providerSlug, request.model⟩ := by
  refine ⟨filter_buildChatRequestMessages request systemPrompt turns, fun hpolicy => ?_,
    fun hpolicy => ⟨?_, fun message hmem => ?_⟩, fun hbytes message hmem => ?_,
    fun message hmem artifact hartifact =>
      (artifact_eq_some request systemPrompt turns hmem hartifact).2⟩
  · refine warnOnMissing_eq_countP request turns ?_
    rcases h : request.passback with _ | _ | _ | _ | _ <;> simp_all [ReasoningPassback.canEcho]
  · rw [warnOnMissingReasoningArtifacts, if_pos hpolicy]
  · refine eq_none_iff_forall_ne_some.2 fun artifact hartifact => ?_
    have hcan := (artifact_eq_some request systemPrompt turns hmem hartifact).1
    rcases hpolicy with h | h <;> rw [h] at hcan <;>
      exact absurd hcan (by simp [ReasoningPassback.canEcho])
  · rw [ChatRequestMessage.hasNoPayload, ChatRequestMessage.isWireEmpty]
    rcases hartifact : message.reasoningArtifact with _ | artifact
    · rfl
    · obtain ⟨-, turn, hturn, -, hsource, -⟩ :=
        artifact_eq_some request systemPrompt turns hmem hartifact
      have hbytes := hbytes turn hturn artifact hsource
      simp [hbytes]

/-- A model whose reasoning is replayed in tool loops. -/
def deepseek : RequestModel := ⟨"deepseek", "deepseek-v4-pro", .toolLoop, true, false⟩

def toolTurn (artifact : Option ReasoningArtifact) : Turn where
  createdAt := 0
  toolCalls := [{ callId := "a", name := "read_file", argumentsJson := "" }]
  reasoningArtifact := artifact
  reasoningProducer := artifact.map fun _ => ⟨"deepseek", "deepseek-v4-pro"⟩

/-- A turn whose reasoning is replayed, one that omits it, and one without a text. -/
def mixedTurns : List Turn :=
  [toolTurn (some (.chatReasoning .reasoningContent [104, 109])), toolTurn none,
    { createdAt := 0, assistantText := some "" }]

/-- The guard counts the second and the third turn. -/
theorem warnOnMissing_agrees_toolLoop :
    ((builtAssistantMessages deepseek mixedTurns).map fun entry =>
        entry.2.reasoningArtifact.isSome) = [true, false, false] ∧
      warnOnMissingReasoningArtifacts deepseek mixedTurns = 2 ∧
      warnOnMissingReasoningArtifacts deepseek mixedTurns =
        (builtAssistantMessages deepseek mixedTurns).countP fun entry =>
          omitsDemandedEcho deepseek entry.1 entry.2 || entry.2.isWireEmpty :=
  ⟨by decide, by decide,
    (warnOnMissing_agrees deepseek none mixedTurns).2.1 ⟨by decide, by decide⟩⟩

/-- An answer without a text is an empty message that the guard does not count under a policy that
never replays. -/
theorem warnOnMissing_disagrees_none :
    ¬ ∀ (request : RequestModel) (turns : List Turn),
      warnOnMissingReasoningArtifacts request turns =
        (builtAssistantMessages request turns).countP fun entry =>
          omitsDemandedEcho request entry.1 entry.2 || entry.2.isWireEmpty := by
  intro h
  exact absurd (h ⟨"cerebras", "gpt-oss-120b", .none, false, false⟩
    [{ createdAt := 0, assistantText := some "" }]) (by decide)

end Request

end Choreo
